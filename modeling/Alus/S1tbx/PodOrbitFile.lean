import Alus.Etad.Text
import Alus.S1tbx.PodOrbitData

/-!
# Reading and caching precise orbit files

`SentinelPODOrbitFile::ReadOrbitFile` (`sentinel_p_o_d_orbit_file.cc`) reads the vectors of an orbit
file, checks the validity period of its header against the time of the product, and keeps the list
for all later requests of the process. A list that is found in the cache is taken without the check.

The files, their extraction from archives and the readers of numbers and times are parameters.
-/

namespace Alus.S1tbx

open Alus.Lib
open Alus.Etad (stoi)
open Outcome (require)

/-! ## Documents -/

mutual

/-- `//name`, from an element on. -/
def namedBelow (name : String) : XmlContent → List XmlContent
  | .element name' attributes content =>
    (if name' == name then [.element name' attributes content] else []) ++
      namedWithin name content
  | .text _ => []

/-- `//name`, in a list of nodes. -/
def namedWithin (name : String) : List XmlContent → List XmlContent
  | [] => []
  | node :: nodes => namedBelow name node ++ namedWithin name nodes

end

/-- `name()`. -/
def nodeName : XmlContent → String
  | .element name _ _ => name
  | .text _ => ""

/-- `text().as_string()`. -/
def nodeText (node : XmlContent) : String := XmlNode.childValue (some node)

/-- The nodes in a node. -/
def nodeContent (node : XmlContent) : List XmlContent := XmlNode.content (some node)

/-- `boost::replace_all`. -/
def replaceAll (pattern replacement : List Char) : Nat → List Char → List Char
  | 0, text => text
  | _ + 1, [] => []
  | n + 1, c :: text =>
    if pattern.isPrefixOf (c :: text) then
      replacement ++ replaceAll pattern replacement n ((c :: text).drop pattern.length)
    else c :: replaceAll pattern replacement n text

/-- `FixedHeader`. -/
structure FixedHeader where
  mission : String
  fileType : String
  validityStart : String
  validityStop : String

/-- `std::stod`, and `Utc::Parse` with the pattern of orbit files, in days. -/
structure OrbitReaders (R : Type) where
  stod : String → Outcome R
  parseUtc : String → Outcome R

section Parsing

variable {R : Type} [Zero R] [LinearOrder R] (readers : OrbitReaders R)

/-- `ConvertUtc`. -/
def convertUtc (utc : String) : String :=
  let str := replaceAll "UTC=".toList [] utc.toList.length utc.toList
  String.ofList (replaceAll ['T'] [' '] str.length str)

/-- `ToUtc`. -/
def toUtc (str : String) : Outcome R := readers.parseUtc (convertUtc str)

/-- A node of a vector that `ReadOneOSV` reads. -/
def readOSVNode (utc : String) (osv : OrbitVector R) (node : XmlContent) :
    Outcome (String × OrbitVector R) :=
  if nodeName node = "UTC" then return (nodeText node, osv)
  else if nodeName node = "X" then do
    let x ← readers.stod (nodeText node)
    return (utc, { osv with xPos := x })
  else if nodeName node = "Y" then do
    let y ← readers.stod (nodeText node)
    return (utc, { osv with yPos := y })
  else if nodeName node = "Z" then do
    let z ← readers.stod (nodeText node)
    return (utc, { osv with zPos := z })
  else if nodeName node = "VX" then do
    let vx ← readers.stod (nodeText node)
    return (utc, { osv with xVel := vx })
  else if nodeName node = "VY" then do
    let vy ← readers.stod (nodeText node)
    return (utc, { osv with yVel := vy })
  else if nodeName node = "VZ" then do
    let vz ← readers.stod (nodeText node)
    return (utc, { osv with zVel := vz })
  else return (utc, osv)

/-- `ReadOneOSV`. -/
def readOneOSV (osvNode : XmlContent) : Outcome (OrbitVector R) := do
  let (utc, osv) ← (nodeContent osvNode).foldlM
    (fun (utc, osv) node => readOSVNode readers utc osv node)
    ("", (⟨0, 0, 0, 0, 0, 0, 0⟩ : OrbitVector R))
  let utcTime ← toUtc readers utc
  return { osv with utcMjd := utcTime }

/-- `ReadOSVList`. A count that differs is only logged. -/
def readOSVList (listNode : XmlContent) : Outcome (List (OrbitVector R)) := do
  let _count ← stoi ((XmlNode.attributeValue (some listNode) "count").getD "")
  let osvList ← Outcome.collect
    (((nodeContent listNode).filter fun node => nodeName node = "OSV").map (readOneOSV readers))
  return osvList.mergeSort fun osv1 osv2 => !compare osv2.utcMjd osv1.utcMjd

end Parsing

/-- The loop of `ReadFixedHeader`. A header is made once all texts are there. -/
def readFixedHeader : FixedHeader → List XmlContent → Option FixedHeader
  | _, [] => none
  | header, node :: nodes =>
    let header :=
      if nodeName node = "Mission" then { header with mission := nodeText node }
      else if nodeName node = "File_Type" then { header with fileType := nodeText node }
      else if nodeName node = "Validity_Period" then
        (nodeContent node).foldl (fun header period =>
          if nodeName period = "Validity_Start" then
            { header with validityStart := nodeText period }
          else if nodeName period = "Validity_Stop" then
            { header with validityStop := nodeText period }
          else header) header
      else header
    if header.mission ≠ "" ∧ header.fileType ≠ "" ∧ header.validityStart ≠ "" ∧
        header.validityStop ≠ "" then some header
    else readFixedHeader header nodes

/-- The nodes that `ReadOrbitFile` looks for. -/
structure OrbitFileNodes where
  fixedHeader : XmlNode
  variableHeader : XmlNode
  listOfOSVs : XmlNode

/-- The loop over the nodes of the file, up to where all are found. -/
def findNodes : OrbitFileNodes → List XmlContent → OrbitFileNodes
  | nodes, [] => nodes
  | nodes, node :: rest =>
    let nodes :=
      if nodeName node = "Earth_Explorer_Header" then
        (nodeContent node).foldl (fun nodes child =>
          if nodeName child = "Fixed_Header" then { nodes with fixedHeader := some child }
          else if nodeName child = "Variable_Header" then
            { nodes with variableHeader := some child }
          else nodes) nodes
      else if nodeName node = "Data_Block" then
        (nodeContent node).foldl (fun nodes child =>
          if nodeName child = "List_of_OSVs" then { nodes with listOfOSVs := some child }
          else nodes) nodes
      else nodes
    if nodes.fixedHeader.isSome ∧ nodes.variableHeader.isSome ∧ nodes.listOfOSVs.isSome then nodes
    else findNodes nodes rest

section Files

variable {R : Type} [Zero R] [LinearOrder R]

/-- What `ReadOrbitFile` reads of a document: the header and the vectors, for a provider that has
read nothing before. -/
def parseOrbitFile (readers : OrbitReaders R) (doc : List XmlContent) :
    Outcome (Option FixedHeader × List (OrbitVector R)) :=
  match namedWithin "Earth_Explorer_File" doc with
  | [root] => do
    let nodes := findNodes ⟨none, none, none⟩ (nodeContent root)
    let fixedHeader := nodes.fixedHeader.bind fun node =>
      readFixedHeader ⟨"", "", "", ""⟩ (nodeContent node)
    let osvList ← match nodes.listOfOSVs with
      | some listNode => readOSVList readers listNode
      | none => .ok []
    return (fixedHeader, osvList)
  | _ => .throws

/-- `CheckOrbitFileValidity`. -/
def checkOrbitFileValidity (readers : OrbitReaders R) (fixedHeader : Option FixedHeader)
    (stateVectorTime : R) : Outcome Unit := do
  let validityStartTimeMjd ← toUtc readers ((fixedHeader.map (·.validityStart)).getD "")
  let validityStopTimeMjd ← toUtc readers ((fixedHeader.map (·.validityStop)).getD "")
  require (¬ (stateVectorTime < validityStartTimeMjd ∨ validityStopTimeMjd < stateVectorTime))

/-! ## Requests -/

/-- `boost::filesystem::path`. -/
structure Path where
  directory : List Char
  filename : List Char
  deriving DecidableEq

namespace Path

/-- `extension()`. -/
def extension (path : Path) : List Char :=
  if '.' ∈ path.filename then '.' :: (path.filename.reverse.takeWhile (· ≠ '.')).reverse else []

/-- `stem()`. -/
def stem (path : Path) : List Char :=
  if '.' ∈ path.filename then
    ((path.filename.reverse.dropWhile (· ≠ '.')).drop 1).reverse
  else path.filename

/-- The file is a zip archive. -/
def IsZip (path : Path) : Prop := path.extension = ".zip".toList

instance (path : Path) : Decidable path.IsZip := inferInstanceAs (Decidable (_ = _))

end Path

/-- The files when a request is made. What is extracted from an archive is removed with its
temporary directory. -/
structure OrbitFiles where
  /-- What `load_file` makes of a file, if there is one. -/
  document : Path → Option (List XmlContent)
  /-- What it makes of an entry of an archive. -/
  zipDocument : Path → List Char → Option (List XmlContent)
  isTemporary : List Char → Bool
  temporary_removed : ∀ path, isTemporary path.directory = true → document path = none

/-- An orbit file that is found for the time of a product, and the new directory that an archive is
extracted to. -/
structure OrbitRequest (R : Type) (files : OrbitFiles) where
  orbitFile : Path
  stateVectorTime : R
  tempDir : List Char
  temporary : files.isTemporary tempDir = true

/-- `osv_cache`. -/
abbrev OsvCache (R : Type) := List (Path × List (OrbitVector R))

/-- `std::map::insert`: an entry that is there is kept. -/
def OsvCache.insert (cache : OsvCache R) (path : Path) (osvList : List (OrbitVector R)) :
    OsvCache R :=
  if (cache.lookup path).isSome then cache else (path, osvList) :: cache

section Requests

variable {files : OrbitFiles} (readers : OrbitReaders R)

/-- The document of an orbit file, extracted first where it is an archive, and its path. -/
def loadOrbitFile (request : OrbitRequest R files) : Outcome (Path × List XmlContent) :=
  if request.orbitFile.IsZip then
    match files.zipDocument request.orbitFile ("tmp/".toList ++ request.orbitFile.stem) with
    | some doc => .ok (⟨request.tempDir, request.orbitFile.stem⟩, doc)
    | none => .throws
  else
    match files.document request.orbitFile with
    | some doc => .ok (request.orbitFile, doc)
    | none => .throws

/-- `ReadOrbitFile`. -/
def readOrbitFile (cache : OsvCache R) (request : OrbitRequest R files) :
    Outcome (OsvCache R × List (OrbitVector R)) :=
  match cache.lookup request.orbitFile with
  | some osvList => .ok (cache, osvList)
  | none => do
    let (orbitFile, doc) ← loadOrbitFile request
    let (fixedHeader, osvList) ← parseOrbitFile readers doc
    checkOrbitFileValidity readers fixedHeader request.stateVectorTime
    return (cache.insert orbitFile osvList, osvList)

/-- `RetrieveOrbitFile`, of the file that is found. -/
def retrieveOrbitFile (cache : OsvCache R) (request : OrbitRequest R files) :
    Outcome (OsvCache R × List (OrbitVector R)) := do
  require (files.document request.orbitFile).isSome
  readOrbitFile readers cache request

/-- The cache after a request. One that throws leaves it as it is. -/
def cacheStep (cache : OsvCache R) (request : OrbitRequest R files) : OsvCache R :=
  match retrieveOrbitFile readers cache request with
  | .ok (cache', _) => cache'
  | _ => cache

/-- The cache after some requests, from an empty one. -/
def cacheAfter (requests : List (OrbitRequest R files)) : OsvCache R :=
  requests.foldl (cacheStep readers) []

/-- The list of vectors that a request returns, or its refusal. -/
def requestOutcome (cache : OsvCache R) (request : OrbitRequest R files) :
    Outcome (List (OrbitVector R)) := do
  let (_, osvList) ← retrieveOrbitFile readers cache request
  return osvList

/-! ### What is promised -/

/-- Every request of the sequence has the outcome that it has with an empty cache. -/
def Transparent (requests : List (OrbitRequest R files)) : Prop :=
  ∀ before request after, requests = before ++ request :: after →
    requestOutcome readers (cacheAfter readers before) request = requestOutcome readers [] request

/-- The file can be read, and its validity period contains the time. -/
def ValidFor (files : OrbitFiles) (path : Path) (stateVectorTime : R) : Prop :=
  ∃ doc fixedHeader osvList, files.document path = some doc ∧
    parseOrbitFile readers doc = .ok (fixedHeader, osvList) ∧
    checkOrbitFileValidity readers fixedHeader stateVectorTime = .ok ()

/-- A file that has been requested for a time in its validity period is not requested for another
time afterwards. Archives may be. -/
def RequestedWhileValid (requests : List (OrbitRequest R files)) : Prop :=
  ∀ before request after, requests = before ++ request :: after →
    ∀ request' ∈ before, request'.orbitFile = request.orbitFile → ¬ request.orbitFile.IsZip →
      ValidFor readers files request.orbitFile request'.stateVectorTime →
        ValidFor readers files request.orbitFile request.stateVectorTime

end Requests

end Files

/-! ## The cache -/

section Cache

variable {R : Type}

theorem lookup_insert (cache : OsvCache R) (path path' : Path) (osvList : List (OrbitVector R)) :
    (cache.insert path osvList).lookup path' =
      if path' = path then some ((cache.lookup path).getD osvList) else cache.lookup path' := by
  unfold OsvCache.insert
  split
  · next hsome =>
    obtain ⟨stored, hstored⟩ := Option.isSome_iff_exists.mp hsome
    split
    · next hsame => rw [hsame, hstored, Option.getD_some]
    · rfl
  · next hnone =>
    rw [Option.not_isSome_iff_eq_none] at hnone
    rw [List.lookup_cons, hnone, Option.getD_none]
    split
    · next hsame => rw [if_pos (by simpa using hsame)]
    · next hdiffers => rw [if_neg (by simpa using hdiffers)]

/-- An entry stays when another is made. -/
theorem exists_lookup_insert {cache : OsvCache R} {path path' : Path}
    {osvList : List (OrbitVector R)}
    (h : path' = path ∨ ∃ stored, cache.lookup path' = some stored) :
    ∃ stored, (cache.insert path osvList).lookup path' = some stored := by
  rw [lookup_insert]
  split
  · exact ⟨_, rfl⟩
  · next hdiffers => exact h.resolve_left hdiffers

variable [Zero R] [LinearOrder R] {files : OrbitFiles} {readers : OrbitReaders R}

/-- What is read of a file that is not an archive. -/
def plainList (readers : OrbitReaders R) (files : OrbitFiles) (path : Path) :
    Outcome (List (OrbitVector R)) :=
  match files.document path with
  | some doc => do
    let (_, osvList) ← parseOrbitFile readers doc
    return osvList
  | none => .throws

/-- The entries of files that exist are their lists, and there is one for each file that was
requested for a time in its validity period. -/
structure CacheHolds (readers : OrbitReaders R) (requests : List (OrbitRequest R files))
    (cache : OsvCache R) : Prop where
  list : ∀ path osvList, (files.document path).isSome → cache.lookup path = some osvList →
    ¬ path.IsZip ∧ plainList readers files path = .ok osvList ∧
      ∃ request ∈ requests, request.orbitFile = path ∧
        ValidFor readers files path request.stateVectorTime
  entry : ∀ request ∈ requests, ¬ request.orbitFile.IsZip →
    ValidFor readers files request.orbitFile request.stateVectorTime →
      ∃ osvList, cache.lookup request.orbitFile = some osvList

/-- How a request can succeed, with the cache after it and its list. -/
inductive Retrieved (readers : OrbitReaders R) (cache : OsvCache R)
    (request : OrbitRequest R files) : OsvCache R → List (OrbitVector R) → Prop where
  | hit (osvList) (hfound : cache.lookup request.orbitFile = some osvList) :
      Retrieved readers cache request cache osvList
  | read (osvList) (hmiss : cache.lookup request.orbitFile = none)
      (hplain : ¬ request.orbitFile.IsZip)
      (hlist : plainList readers files request.orbitFile = .ok osvList)
      (hvalid : ValidFor readers files request.orbitFile request.stateVectorTime) :
      Retrieved readers cache request (cache.insert request.orbitFile osvList) osvList
  | extracted (osvList) (hmiss : cache.lookup request.orbitFile = none)
      (hzip : request.orbitFile.IsZip) :
      Retrieved readers cache request
        (cache.insert ⟨request.tempDir, request.orbitFile.stem⟩ osvList) osvList

/-- What a request that succeeds has done. -/
theorem retrieved_of_ok {cache cache' : OsvCache R} {request : OrbitRequest R files}
    {osvList : List (OrbitVector R)}
    (h : retrieveOrbitFile readers cache request = .ok (cache', osvList)) :
    (files.document request.orbitFile).isSome = true ∧
      Retrieved readers cache request cache' osvList := by
  obtain ⟨_, hexists, h⟩ := Outcome.bind_eq_ok.mp h
  refine ⟨Outcome.require_eq_ok.mp hexists, ?_⟩
  unfold readOrbitFile at h
  -- a file that was read before is not opened again
  cases hlookup : cache.lookup request.orbitFile with
  | some stored =>
    rw [hlookup] at h
    obtain ⟨rfl, rfl⟩ := Prod.mk.inj (Outcome.ok.inj h)
    exact .hit _ hlookup
  | none =>
    rw [hlookup] at h
    dsimp only at h
    obtain ⟨⟨path, doc⟩, hdoc, h⟩ := Outcome.bind_eq_ok.mp h
    obtain ⟨⟨fixedHeader, list⟩, hparse, h⟩ := Outcome.bind_eq_ok.mp h
    obtain ⟨_, hcheck, h⟩ := Outcome.bind_eq_ok.mp h
    obtain ⟨rfl, rfl⟩ := Prod.mk.inj (Outcome.ok.inj h)
    unfold loadOrbitFile at hdoc
    -- the list of a zip file is kept under the path it was extracted to
    by_cases hzip : request.orbitFile.IsZip
    · rw [if_pos hzip] at hdoc
      cases hentry : files.zipDocument request.orbitFile
          ("tmp/".toList ++ request.orbitFile.stem) with
      | none => rw [hentry] at hdoc; cases hdoc
      | some entry =>
        rw [hentry] at hdoc
        obtain ⟨rfl, -⟩ := Prod.mk.inj (Outcome.ok.inj hdoc)
        exact .extracted _ hlookup hzip
    · rw [if_neg hzip] at hdoc
      cases hfile : files.document request.orbitFile with
      | none => rw [hfile] at hdoc; cases hdoc
      | some stored =>
        rw [hfile] at hdoc
        obtain ⟨rfl, rfl⟩ := Prod.mk.inj (Outcome.ok.inj hdoc)
        refine .read _ hlookup hzip ?_ ⟨_, fixedHeader, _, hfile, hparse, hcheck⟩
        rw [plainList, hfile]
        dsimp only
        rw [hparse]
        rfl

/-- A list in the cache is returned, whatever the time. -/
theorem requestOutcome_hit {cache : OsvCache R} {request : OrbitRequest R files}
    {osvList : List (OrbitVector R)} (hexists : (files.document request.orbitFile).isSome = true)
    (hfound : cache.lookup request.orbitFile = some osvList) :
    requestOutcome readers cache request = .ok osvList := by
  rw [requestOutcome, retrieveOrbitFile, Outcome.require_of hexists, Outcome.ok_bind,
    readOrbitFile, hfound]
  rfl

/-- Without an entry it does not matter what else is in the cache. -/
theorem requestOutcome_miss {cache : OsvCache R} {request : OrbitRequest R files}
    (hmiss : cache.lookup request.orbitFile = none) :
    requestOutcome readers cache request = requestOutcome readers [] request := by
  unfold requestOutcome retrieveOrbitFile readOrbitFile
  rw [hmiss, show List.lookup request.orbitFile ([] : OsvCache R) = none from rfl]
  simp only [bind_assoc, Outcome.pure_eq, Outcome.ok_bind]

/-- A file that is read is accepted for the times of its validity period. -/
theorem requestOutcome_empty {request : OrbitRequest R files} {osvList : List (OrbitVector R)}
    (hplain : ¬ request.orbitFile.IsZip)
    (hlist : plainList readers files request.orbitFile = .ok osvList) :
    requestOutcome readers [] request = .ok osvList ↔
      ValidFor readers files request.orbitFile request.stateVectorTime := by
  constructor
  · intro h
    obtain ⟨⟨cache', list⟩, hok, -⟩ := Outcome.bind_eq_ok.mp h
    obtain ⟨-, hretrieved⟩ := retrieved_of_ok hok
    cases hretrieved with
    | hit _ hfound => cases hfound
    | read _ _ _ _ hvalid => exact hvalid
    | extracted _ _ hzip => exact absurd hzip hplain
  · rintro ⟨doc, fixedHeader, list, hdoc, hparse, hcheck⟩
    have hsame : list = osvList := by
      rw [plainList, hdoc] at hlist
      dsimp only at hlist
      rw [hparse] at hlist
      exact Outcome.ok.inj hlist
    rw [requestOutcome, retrieveOrbitFile, Outcome.require_of (by rw [hdoc]; rfl),
      Outcome.ok_bind, readOrbitFile, show List.lookup request.orbitFile ([] : OsvCache R) = none
        from rfl]
    dsimp only
    rw [loadOrbitFile, if_neg hplain, hdoc]
    dsimp only
    rw [Outcome.ok_bind, hparse, Outcome.ok_bind, hcheck, Outcome.ok_bind, hsame]
    rfl

/-- The entries after a request that succeeds. -/
theorem CacheHolds.list_next {requests : List (OrbitRequest R files)} {cache cache' : OsvCache R}
    {request : OrbitRequest R files} {osvList : List (OrbitVector R)}
    (h : CacheHolds readers requests cache)
    (hretrieved : Retrieved readers cache request cache' osvList) (path : Path)
    (stored : List (OrbitVector R)) (hexists : (files.document path).isSome = true)
    (hfound : cache'.lookup path = some stored) :
    ¬ path.IsZip ∧ plainList readers files path = .ok stored ∧
      ∃ request' ∈ requests ++ [request], request'.orbitFile = path ∧
        ValidFor readers files path request'.stateVectorTime := by
  have hold : cache.lookup path = some stored → ¬ path.IsZip ∧
      plainList readers files path = .ok stored ∧
        ∃ request' ∈ requests ++ [request], request'.orbitFile = path ∧
          ValidFor readers files path request'.stateVectorTime := by
    intro hfound
    obtain ⟨hplain, hlist, request', hmem, hrest⟩ := h.list path stored hexists hfound
    exact ⟨hplain, hlist, request', List.mem_append_left _ hmem, hrest⟩
  cases hretrieved with
  | hit _ _ => exact hold hfound
  | read _ hmiss hplain hlist hvalid =>
    rw [lookup_insert] at hfound
    split at hfound
    · next hsame =>
      rw [hmiss, Option.getD_none] at hfound
      cases hfound
      subst hsame
      exact ⟨hplain, hlist, request, List.mem_append_right _ (List.mem_singleton_self _), rfl,
        hvalid⟩
    · exact hold hfound
  | extracted _ _ _ =>
    rw [lookup_insert] at hfound
    split at hfound
    · next hsame =>
      -- what was extracted is not there any more
      rw [hsame, files.temporary_removed _ request.temporary] at hexists
      cases hexists
    · exact hold hfound

/-- **A step of the cache.** -/
theorem CacheHolds.next {requests : List (OrbitRequest R files)} {cache : OsvCache R}
    (h : CacheHolds readers requests cache) (request : OrbitRequest R files) :
    CacheHolds readers (requests ++ [request]) (cacheStep readers cache request) := by
  cases hok : retrieveOrbitFile readers cache request with
  | ok result =>
    obtain ⟨cache', osvList⟩ := result
    obtain ⟨hexists, hretrieved⟩ := retrieved_of_ok hok
    have hstep : cacheStep readers cache request = cache' := by rw [cacheStep, hok]
    rw [hstep]
    refine ⟨h.list_next hretrieved, fun request' hmem hplain hvalid => ?_⟩
    cases hretrieved with
    | hit _ hfound =>
      cases List.mem_append.mp hmem with
      | inl hmem => exact h.entry request' hmem hplain hvalid
      | inr hmem =>
        rw [List.mem_singleton.mp hmem]
        exact ⟨osvList, hfound⟩
    | read _ _ _ _ _ =>
      refine exists_lookup_insert ?_
      cases List.mem_append.mp hmem with
      | inl hmem => exact .inr (h.entry request' hmem hplain hvalid)
      | inr hmem => exact .inl (congrArg OrbitRequest.orbitFile (List.mem_singleton.mp hmem))
    | extracted _ _ hzip =>
      refine exists_lookup_insert ?_
      cases List.mem_append.mp hmem with
      | inl hmem => exact .inr (h.entry request' hmem hplain hvalid)
      | inr hmem =>
        rw [List.mem_singleton.mp hmem] at hplain
        exact absurd hzip hplain
  | _ =>
    have hstep : cacheStep readers cache request = cache := by rw [cacheStep, hok]
    rw [hstep]
    refine ⟨fun path osvList hexists hfound => ?_, fun request' hmem hplain hvalid => ?_⟩
    · obtain ⟨hplain, hlist, request', hmem, hrest⟩ := h.list path osvList hexists hfound
      exact ⟨hplain, hlist, request', List.mem_append_left _ hmem, hrest⟩
    · cases List.mem_append.mp hmem with
      | inl hmem => exact h.entry request' hmem hplain hvalid
      | inr hmem =>
        rw [List.mem_singleton.mp hmem] at hplain hvalid ⊢
        cases hfound : cache.lookup request.orbitFile with
        | some osvList => exact ⟨osvList, rfl⟩
        | none =>
          -- the file would have been accepted
          have haccepted := hvalid
          obtain ⟨doc, fixedHeader, osvList, hdoc, hparse, -⟩ := hvalid
          have hlist : plainList readers files request.orbitFile = .ok osvList := by
            rw [plainList, hdoc]
            dsimp only
            rw [hparse]
            rfl
          have houtcome := (requestOutcome_empty hplain hlist).mpr haccepted
          rw [← requestOutcome_miss hfound, requestOutcome, hok] at houtcome
          cases houtcome

/-- **The cache after a run of requests.** -/
theorem cacheHolds_cacheAfter (requests : List (OrbitRequest R files)) :
    CacheHolds readers requests (cacheAfter readers requests) := by
  induction requests using List.reverseRecOn with
  | nil =>
    refine ⟨fun path osvList _ hfound => ?_, fun request hmem => ?_⟩
    · cases hfound
    · cases hmem
  | append_singleton requests request ih =>
    rw [cacheAfter, List.foldl_append]
    exact ih.next request

/-- A request for a list in the cache is refused without the cache, for a time outside the validity
period. -/
theorem requestedWhileValid_of_transparent {requests : List (OrbitRequest R files)}
    (h : Transparent readers requests) : RequestedWhileValid readers requests := by
  intro before request after hrequests request' hmem hfile hplain hvalid
  have hholds : CacheHolds readers before (cacheAfter readers before) :=
    cacheHolds_cacheAfter before
  obtain ⟨osvList, hfound⟩ := hholds.entry request' hmem (hfile ▸ hplain) (hfile ▸ hvalid)
  rw [hfile] at hfound
  have hexists : (files.document request.orbitFile).isSome = true := by
    obtain ⟨doc, _, _, hdoc, -⟩ := hvalid
    rw [hdoc]
    rfl
  obtain ⟨-, hlist, -⟩ := hholds.list _ _ hexists hfound
  have hsame := h before request after hrequests
  rw [requestOutcome_hit hexists hfound] at hsame
  exact (requestOutcome_empty hplain hlist).mp hsame.symm

/-- **The cache is transparent** exactly where no file that has been accepted for a time is
requested for a time outside its validity period. -/
theorem transparent_iff (readers : OrbitReaders R) (requests : List (OrbitRequest R files)) :
    Transparent readers requests ↔ RequestedWhileValid readers requests := by
  constructor
  · exact requestedWhileValid_of_transparent
  · intro h before request after hrequests
    have hholds : CacheHolds readers before (cacheAfter readers before) :=
      cacheHolds_cacheAfter before
    cases hfound : (cacheAfter readers before).lookup request.orbitFile with
    | none => exact requestOutcome_miss hfound
    | some osvList =>
      by_cases hexists : (files.document request.orbitFile).isSome = true
      · obtain ⟨hplain, hlist, request', hmem, hfile, hvalid⟩ := hholds.list _ _ hexists hfound
        rw [requestOutcome_hit hexists hfound]
        exact ((requestOutcome_empty hplain hlist).mpr
          (h before request after hrequests request' hmem hfile hplain hvalid)).symm
      · unfold requestOutcome retrieveOrbitFile
        rw [Outcome.require_of_not hexists]
        rfl

end Cache

/-! ## A file that is requested for two times -/

section Sample

/-- The header of an orbit file without vectors. -/
def sampleDocument : List XmlContent :=
  [.element "Earth_Explorer_File" [] [
    .element "Earth_Explorer_Header" [] [
      .element "Fixed_Header" [] [
        .element "Mission" [] [.text "Sentinel-1A"],
        .element "File_Type" [] [.text "AUX_POEORB"],
        .element "Validity_Period" [] [
          .element "Validity_Start" [] [.text "UTC=2023-01-01T22:59:42"],
          .element "Validity_Stop" [] [.text "UTC=2023-01-03T00:59:42"]]],
      .element "Variable_Header" [] []],
    .element "Data_Block" [] [.element "List_of_OSVs" [("count", "0")] []]]]

/-- A file whose name has a longer period than its header. -/
def samplePath : Path where
  directory := "orbits".toList
  filename :=
    "S1A_OPER_AUX_POEORB_OPOD_20230122T080820_V20230101T225942_20230105T005942.EOF".toList

/-- The only file. -/
def sampleFiles : OrbitFiles where
  document path := if path = samplePath then some sampleDocument else none
  zipDocument _ _ := none
  isTemporary directory := directory = "tmp".toList
  temporary_removed path h := by
    rw [if_neg]
    rintro rfl
    exact absurd h (by decide)

/-- The times of the header. -/
def sampleReaders : OrbitReaders Rat where
  stod _ := .throws
  parseUtc text :=
    if text = "2023-01-01 22:59:42" then .ok (8401 + 82782 / 86400)
    else if text = "2023-01-03 00:59:42" then .ok (8403 + 3582 / 86400)
    else .throws

/-- The file, for a time in days from the year 2000 on. -/
def sampleRequest (stateVectorTime : Rat) : OrbitRequest Rat sampleFiles :=
  ⟨samplePath, stateVectorTime, "tmp".toList, by decide⟩

theorem parseOrbitFile_sample : parseOrbitFile sampleReaders sampleDocument =
    .ok (some ⟨"Sentinel-1A", "AUX_POEORB", "UTC=2023-01-01T22:59:42",
      "UTC=2023-01-03T00:59:42"⟩, []) := by
  have hlist :
      readOSVList sampleReaders (.element "List_of_OSVs" [("count", "0")] []) = .ok [] := by
    have hcount : stoi "0" = .ok (0, 1) := by rfl
    show (stoi "0" >>= fun _ => Outcome.ok (List.mergeSort [] _)) = _
    rw [hcount, Outcome.ok_bind, List.mergeSort_nil]
  show (readOSVList sampleReaders (.element "List_of_OSVs" [("count", "0")] []) >>= _) = _
  rw [hlist]
  rfl

theorem document_sample : sampleFiles.document samplePath = some sampleDocument := by
  show (if samplePath = samplePath then some sampleDocument else none) = _
  exact if_pos rfl

/-- The header is valid for the times between its two. -/
theorem checkOrbitFileValidity_sample (stateVectorTime : Rat) :
    checkOrbitFileValidity sampleReaders (some ⟨"Sentinel-1A", "AUX_POEORB",
        "UTC=2023-01-01T22:59:42", "UTC=2023-01-03T00:59:42"⟩) stateVectorTime = .ok () ↔
      8401 + 82782 / 86400 ≤ stateVectorTime ∧ stateVectorTime ≤ 8403 + 3582 / 86400 := by
  have hstart : toUtc sampleReaders "UTC=2023-01-01T22:59:42" = .ok (8401 + 82782 / 86400) := rfl
  have hstop : toUtc sampleReaders "UTC=2023-01-03T00:59:42" = .ok (8403 + 3582 / 86400) := rfl
  rw [checkOrbitFileValidity, Option.map_some, Option.getD_some, Option.map_some,
    Option.getD_some, hstart, Outcome.ok_bind, hstop, Outcome.ok_bind, Outcome.require_eq_ok,
    not_or, not_lt, not_lt]

/-- The product of 2 January is accepted. -/
theorem validFor_sample :
    ValidFor sampleReaders sampleFiles samplePath (sampleRequest 8402).stateVectorTime :=
  ⟨_, _, _, document_sample, parseOrbitFile_sample, (checkOrbitFileValidity_sample 8402).mpr
    (by norm_num)⟩

/-- That of 4 January is not. -/
theorem not_validFor_sample :
    ¬ ValidFor sampleReaders sampleFiles samplePath (sampleRequest 8404).stateVectorTime := by
  rintro ⟨doc, fixedHeader, osvList, hdoc, hparse, hcheck⟩
  obtain rfl : sampleDocument = doc := Option.some.inj (document_sample.symm.trans hdoc)
  rw [parseOrbitFile_sample] at hparse
  obtain ⟨rfl, -⟩ := Prod.mk.inj (Outcome.ok.inj hparse)
  have hperiod := (checkOrbitFileValidity_sample 8404).mp hcheck
  norm_num at hperiod

/-- Unless the file is in the cache. -/
theorem not_transparent_sample :
    ¬ Transparent sampleReaders [sampleRequest 8402, sampleRequest 8404] := by
  intro h
  exact not_validFor_sample (requestedWhileValid_of_transparent h [sampleRequest 8402]
    (sampleRequest 8404) [] rfl (sampleRequest 8402) (List.mem_singleton_self _) rfl (by decide)
    validFor_sample)

end Sample

end Alus.S1tbx
