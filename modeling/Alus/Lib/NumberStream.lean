import Mathlib.Data.List.TakeWhile

/-!
# Numbers from a stream

Numbers are extracted from a stream of characters one after another, as `operator>>` does it. Blanks
are skipped, characters are taken as long as they can belong to a number, and what was taken is
converted. The extraction fails where the conversion does; the stream is at its end where nothing is
left of it. The two have nothing to do with each other: an extraction that fails can also have
reached the end.

A text of numbers with blanks between them is read whole. What else is read to its end is described
by `ReadsToEnd`.
-/

namespace Alus.Lib

variable {isBlank : Char → Bool} {σ α : Type}

/-- What stands between the blanks of a text. -/
def words (isBlank : Char → Bool) (text : List Char) : List (List Char) :=
  (text.splitOnP isBlank).filter (· ≠ [])

/-- Which characters are taken for a number, and what they are converted to. A character that the
state does not accept is left in the stream. -/
structure NumGet (isBlank : Char → Bool) (σ α : Type) where
  start : σ
  step : σ → Char → Option σ
  value : List Char → Option α
  value_nil : value [] = none
  step_blank : ∀ s c, isBlank c = true → step s c = none
  accepts : ∀ text a, value text = some a → (text.foldlM step start).isSome

namespace NumGet

/-- The characters that are taken, and what is left. -/
def take (n : NumGet isBlank σ α) (s : σ) : List Char → List Char × List Char
  | [] => ([], [])
  | c :: rest =>
    match n.step s c with
    | some s' => (c :: (n.take s' rest).1, (n.take s' rest).2)
    | none => ([], c :: rest)

variable (n : NumGet isBlank σ α)

theorem take_append (s : σ) (text : List Char) : (n.take s text).1 ++ (n.take s text).2 = text := by
  induction text generalizing s with
  | nil => rfl
  | cons c rest ih =>
    rw [take]
    cases n.step s c with
    | none => rfl
    | some s' => simpa using ih s'

/-- An accepted text is taken, and nothing of what follows it after a blank. -/
theorem take_of_accepts {s : σ} {text rest : List Char} (h : (text.foldlM n.step s).isSome)
    (hrest : ∀ c ∈ rest.head?, isBlank c = true) : n.take s (text ++ rest) = (text, rest) := by
  induction text generalizing s with
  | nil =>
    cases rest with
    | nil => rfl
    | cons c rest => simp [take, n.step_blank s c (hrest c rfl)]
  | cons c text ih =>
    rw [List.foldlM_cons] at h
    cases hstep : n.step s c with
    | none => simp [hstep] at h
    | some s' =>
      rw [hstep, Option.bind_eq_bind, Option.bind_some] at h
      simp [take, hstep, ih h]

end NumGet

/-! ## Streams -/

/-- `std::istringstream`: what is left of the text, `eofbit` and `failbit`. -/
structure IStream where
  rest : List Char
  eof : Bool
  fail : Bool

namespace IStream

/-- `operator>>`. -/
def extract (n : NumGet isBlank σ α) (stream : IStream) : Option α × IStream :=
  if stream.eof || stream.fail then (none, { stream with fail := true })
  else
    match stream.rest.dropWhile isBlank with
    | [] => (none, ⟨[], true, true⟩)
    | text@(_ :: _) =>
      let (taken, rest) := n.take n.start text
      (n.value taken, ⟨rest, rest.isEmpty, (n.value taken).isNone⟩)

variable {n : NumGet isBlank σ α}

/-- A number that is read has been taken from the stream. -/
theorem length_extract {stream after : IStream} {a : α}
    (h : stream.extract n = (some a, after)) : after.rest.length < stream.rest.length := by
  unfold extract at h
  split at h
  · simp at h
  · split at h
    · simp at h
    · next c more htext =>
      simp only [Prod.mk.injEq] at h
      obtain ⟨hvalue, rfl⟩ := h
      have hsplit := congrArg List.length (n.take_append n.start (c :: more))
      have hskip := (List.dropWhile_suffix isBlank (l := stream.rest)).length_le
      have htaken : (n.take n.start (c :: more)).1 ≠ [] := by
        intro hnil
        rw [hnil, n.value_nil] at hvalue
        cases hvalue
      have hpos := List.length_pos_iff.mpr htaken
      rw [htext] at hskip
      rw [List.length_append] at hsplit
      show (n.take n.start (c :: more)).2.length < stream.rest.length
      omega

/-- `while (stream >> value)`: the values, and the stream when the loop is left. -/
def readWhile (n : NumGet isBlank σ α) (stream : IStream) : List α × IStream :=
  match _h : stream.extract n with
  | (some a, after) => (a :: (after.readWhile n).1, (after.readWhile n).2)
  | (none, after) => ([], after)
termination_by stream.rest.length
decreasing_by all_goals exact length_extract _h

theorem readWhile_of_some {stream after : IStream} {a : α}
    (h : stream.extract n = (some a, after)) :
    stream.readWhile n = (a :: (after.readWhile n).1, (after.readWhile n).2) := by
  rw [readWhile]
  split
  · next heq =>
    rw [h] at heq
    cases heq
    rfl
  · next heq =>
    rw [h] at heq
    cases heq

theorem readWhile_of_none {stream after : IStream} (h : stream.extract n = (none, after)) :
    stream.readWhile n = ([], after) := by
  rw [readWhile]
  split
  · next heq =>
    rw [h] at heq
    cases heq
  · next heq =>
    rw [h] at heq
    cases heq
    rfl

end IStream

/-! ## Texts that are read to their end -/

/-- The numbers that are read of a text, up to its end. The last one that is begun need not be one:
what is left can fail to be converted, as long as all of it is taken. -/
inductive ReadsToEnd (n : NumGet isBlank σ α) : List Char → List α → Prop where
  | blanks {text : List Char} (hskip : text.dropWhile isBlank = []) : ReadsToEnd n text []
  | number {text taken rest : List Char} {a : α} {as : List α}
      (hskip : text.dropWhile isBlank ≠ [])
      (htake : n.take n.start (text.dropWhile isBlank) = (taken, rest))
      (hvalue : n.value taken = some a) (hrest : ReadsToEnd n rest as) : ReadsToEnd n text (a :: as)
  | incomplete {text taken : List Char} (hskip : text.dropWhile isBlank ≠ [])
      (htake : n.take n.start (text.dropWhile isBlank) = (taken, []))
      (hvalue : n.value taken = none) : ReadsToEnd n text []

variable {n : NumGet isBlank σ α} {text : List Char} {values : List α}

theorem reads_of_blanks (h : text.dropWhile isBlank = []) :
    ReadsToEnd n text values ↔ values = [] := by
  constructor
  · intro hreads
    cases hreads with
    | blanks => rfl
    | number hskip => exact absurd h hskip
    | incomplete => rfl
  · rintro rfl
    exact .blanks h

theorem reads_of_number {taken rest : List Char} {a : α} (hskip : text.dropWhile isBlank ≠ [])
    (htake : n.take n.start (text.dropWhile isBlank) = (taken, rest))
    (hvalue : n.value taken = some a) :
    ReadsToEnd n text values ↔ ∃ as, ReadsToEnd n rest as ∧ values = a :: as := by
  constructor
  · intro hreads
    cases hreads with
    | blanks h => exact absurd h hskip
    | number _ htake' hvalue' hrest =>
      obtain ⟨rfl, rfl⟩ := Prod.mk.inj (htake.symm.trans htake')
      obtain rfl := Option.some.inj (hvalue.symm.trans hvalue')
      exact ⟨_, hrest, rfl⟩
    | incomplete _ htake' hvalue' =>
      obtain ⟨rfl, rfl⟩ := Prod.mk.inj (htake.symm.trans htake')
      cases hvalue.symm.trans hvalue'
  · rintro ⟨as, hrest, rfl⟩
    exact .number hskip htake hvalue hrest

theorem reads_of_incomplete {taken rest : List Char} (hskip : text.dropWhile isBlank ≠ [])
    (htake : n.take n.start (text.dropWhile isBlank) = (taken, rest))
    (hvalue : n.value taken = none) : ReadsToEnd n text values ↔ rest = [] ∧ values = [] := by
  constructor
  · intro hreads
    cases hreads with
    | blanks h => exact absurd h hskip
    | number _ htake' hvalue' =>
      obtain ⟨rfl, rfl⟩ := Prod.mk.inj (htake.symm.trans htake')
      cases hvalue.symm.trans hvalue'
    | incomplete _ htake' =>
      exact ⟨(Prod.mk.inj (htake.symm.trans htake')).2, rfl⟩
  · rintro ⟨rfl, rfl⟩
    exact .incomplete hskip htake hvalue

/-- The loop over a stream reads these numbers and reaches the end of the stream. -/
theorem IStream.readWhile_iff {stream : IStream} (hfail : stream.fail = false)
    (heof : stream.eof = true → stream.rest = []) :
    (stream.readWhile n).1 = values ∧ (stream.readWhile n).2.eof = true ↔
      ReadsToEnd n stream.rest values := by
  -- the induction is on the characters left
  induction hlength : stream.rest.length using Nat.strong_induction_on
    generalizing stream values with
  | _ length ih =>
  -- a stream at its end extracts nothing more
  cases hend : stream.eof with
  | true =>
    have hextract : stream.extract n = (none, { stream with fail := true }) := by
      simp [extract, hend]
    rw [readWhile_of_none hextract, heof hend, reads_of_blanks rfl]
    simp [hend, eq_comm]
  | false =>
    cases hskip : stream.rest.dropWhile isBlank with
    | nil =>
      have hextract : stream.extract n = (none, ⟨[], true, true⟩) := by
        simp [extract, hend, hfail, hskip]
      rw [readWhile_of_none hextract, reads_of_blanks hskip]
      simp [eq_comm]
    | cons c more =>
      have hne : stream.rest.dropWhile isBlank ≠ [] := by simp [hskip]
      -- otherwise the extraction takes a piece behind the blanks
      obtain ⟨⟨taken, rest⟩, htake⟩ :
          ∃ pieces, n.take n.start (stream.rest.dropWhile isBlank) = pieces := ⟨_, rfl⟩
      have hextract : stream.extract n =
          (n.value taken, ⟨rest, rest.isEmpty, (n.value taken).isNone⟩) := by
        rw [hskip] at htake
        simp [extract, hend, hfail, hskip, htake]
      cases hvalue : n.value taken with
      | none =>
        rw [hvalue] at hextract
        rw [readWhile_of_none hextract, reads_of_incomplete hne htake hvalue]
        constructor
        · rintro ⟨rfl, hlast⟩
          exact ⟨List.isEmpty_iff.mp hlast, rfl⟩
        · rintro ⟨rfl, rfl⟩
          exact ⟨rfl, rfl⟩
      | some a =>
        rw [hvalue] at hextract
        have hless := length_extract hextract
        rw [readWhile_of_some hextract, reads_of_number hne htake hvalue]
        -- what is left is shorter, and the stream is still good
        have hrest (as : List α) := @ih rest.length (hlength ▸ hless) as
          ⟨rest, rest.isEmpty, false⟩ rfl (by simp) rfl
        simp only [← hrest]
        constructor
        · rintro ⟨rfl, hlast⟩
          exact ⟨_, ⟨rfl, hlast⟩, rfl⟩
        · rintro ⟨as, ⟨rfl, hlast⟩, rfl⟩
          exact ⟨rfl, hlast⟩

/-- A text is read in one way. -/
theorem ReadsToEnd.unique {values' : List α} (h : ReadsToEnd n text values)
    (h' : ReadsToEnd n text values') : values = values' := by
  have hstream (as : List α) (hreads : ReadsToEnd n text as) :
      (IStream.readWhile n ⟨text, false, false⟩).1 = as :=
    ((IStream.readWhile_iff rfl (by simp)).mpr hreads).1
  rw [← hstream values h, hstream values' h']

/-! ## Words -/

theorem words_blank {c : Char} (hc : isBlank c = true) (rest : List Char) :
    words isBlank (c :: rest) = words isBlank rest := by
  simp [words, List.splitOnP_cons_eq_if_modifyHead, hc]

theorem words_dropWhile (text : List Char) :
    words isBlank (text.dropWhile isBlank) = words isBlank text := by
  induction text with
  | nil => rfl
  | cons c rest ih =>
    by_cases hc : isBlank c = true
    · rw [List.dropWhile_cons_of_pos hc, words_blank hc, ih]
    · rw [List.dropWhile_cons_of_neg hc]

/-- A word up to the first blank after it. -/
theorem words_append {word : List Char} (rest : List Char) (hne : word ≠ [])
    (hword : ∀ c ∈ word, isBlank c = false) (hrest : ∀ c ∈ rest.head?, isBlank c = true) :
    words isBlank (word ++ rest) = word :: words isBlank rest := by
  cases rest with
  | nil =>
    rw [List.append_nil, words, List.splitOnP_eq_singleton hword]
    simp [words, hne, List.splitOnP_nil]
  | cons c rest =>
    rw [words_blank (hrest c rfl), words,
      List.splitOnP_append_cons_of_forall_mem hword c (hrest c rfl)]
    simp [words, hne]

/-- The first word of a text that is not blank. -/
theorem exists_word (h : text.dropWhile isBlank ≠ []) : ∃ word rest,
    text.dropWhile isBlank = word ++ rest ∧ (∀ c ∈ rest.head?, isBlank c = true) ∧
      words isBlank text = word :: words isBlank rest := by
  obtain ⟨c, more, htext⟩ := List.exists_cons_of_ne_nil h
  have hsplit := List.takeWhile_append_dropWhile (p := fun c => !isBlank c)
    (l := text.dropWhile isBlank)
  have hfirst : isBlank c = false := by
    simpa [htext] using List.head?_dropWhile_not isBlank text
  have hrest : ∀ d ∈ ((text.dropWhile isBlank).dropWhile fun c => !isBlank c).head?,
      isBlank d = true := by
    intro d hd
    have hnot := List.head?_dropWhile_not (fun c => !isBlank c) (text.dropWhile isBlank)
    rw [Option.mem_def.mp hd] at hnot
    simpa using hnot
  have hne : (text.dropWhile isBlank).takeWhile (fun c => !isBlank c) ≠ [] := by
    simp [htext, hfirst]
  have hword : ∀ d ∈ (text.dropWhile isBlank).takeWhile (fun c => !isBlank c),
      isBlank d = false := by
    intro d hd
    have htaken := List.mem_takeWhile_imp hd
    simpa using htaken
  have hwords := words_append _ hne hword hrest
  rw [hsplit, words_dropWhile] at hwords
  exact ⟨_, _, hsplit.symm, hrest, hwords⟩

/-- A text of numbers with blanks between them is read. -/
theorem reads_of_words (h : (words isBlank text).map n.value = values.map some) :
    ReadsToEnd n text values := by
  induction values generalizing text with
  | nil =>
    by_cases hskip : text.dropWhile isBlank = []
    · exact .blanks hskip
    · obtain ⟨word, rest, -, -, hwords⟩ := exists_word hskip
      simp [hwords] at h
  | cons a as ih =>
    by_cases hskip : text.dropWhile isBlank = []
    · rw [← words_dropWhile, hskip] at h
      simp [words, List.splitOnP_nil] at h
    · obtain ⟨word, rest, hsplit, hblank, hwords⟩ := exists_word hskip
      simp only [hwords, List.map_cons, List.cons.injEq] at h
      refine .number hskip ?_ h.1 (ih h.2)
      rw [hsplit]
      exact n.take_of_accepts (n.accepts word a h.1) hblank

/-- Words with a blank after each of them. -/
theorem words_flatMap (blank : Char) (hblank : isBlank blank = true) {ws : List (List Char)}
    (hne : ∀ w ∈ ws, w ≠ []) (hws : ∀ w ∈ ws, ∀ c ∈ w, isBlank c = false) :
    words isBlank (ws.flatMap (· ++ [blank])) = ws := by
  induction ws with
  | nil => rfl
  | cons w ws ih =>
    rw [List.flatMap_cons, List.append_assoc,
      words_append _ (hne w List.mem_cons_self) (hws w List.mem_cons_self)
        (by simpa using hblank),
      List.singleton_append, words_blank hblank,
      ih (fun w hw => hne w (List.mem_cons_of_mem _ hw))
        (fun w hw => hws w (List.mem_cons_of_mem _ hw))]

/-- Words with a blank between them. -/
theorem words_intercalate (blank : Char) (hblank : isBlank blank = true) {ws : List (List Char)}
    (hne : ∀ w ∈ ws, w ≠ []) (hws : ∀ w ∈ ws, ∀ c ∈ w, isBlank c = false) :
    words isBlank ([blank].intercalate ws) = ws := by
  induction ws with
  | nil => rfl
  | cons w ws ih =>
    have hfirst := hne w List.mem_cons_self
    have hword := hws w List.mem_cons_self
    cases ws with
    | nil =>
      have hlast := words_append [] hfirst hword (by simp)
      simpa [words, List.splitOnP_nil] using hlast
    | cons w' ws =>
      have hnext := ih (fun w hw => hne w (List.mem_cons_of_mem _ hw))
        (fun w hw => hws w (List.mem_cons_of_mem _ hw))
      rw [List.intercalate_cons_cons, List.append_assoc,
        words_append _ hfirst hword (by simpa using hblank), List.singleton_append,
        words_blank hblank, hnext]

end Alus.Lib
