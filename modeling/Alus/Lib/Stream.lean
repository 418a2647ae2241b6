import Mathlib.Data.List.Basic
import Mathlib.Logic.Relation

/-!
# Host code and its stream

Host code puts operations on a stream and goes on; the device executes them in their order, at any
time after. The host waits for the stream where it synchronizes. What the host does in between on
the same memory may come before or after the operations that are pending. When it commutes with
each of them, every order of the steps has the effect of the program that executes each operation at
once.
-/

namespace Alus.Lib

universe u v

variable {S : Type u} {W : Type v}

/-! ## Programs -/

/-- What is done to a memory; `none` where it is not defined. -/
abbrev Action (S : Type u) := S → Option S

/-- What the host does: something of its own, the start of an operation, the wait for all operations
that it has started, or the output of a value. -/
inductive HostInstr (S : Type u) (W : Type v) where
  | host (act : Action S)
  | enqueue (op : Action S)
  | synchronize
  | write (value : S → W)

/-- Each operation is executed where it is started. -/
def runSequential : List (HostInstr S W) → S → Option (S × List W)
  | [], memory => some (memory, [])
  | .host act :: rest, memory => (act memory).bind (runSequential rest)
  | .enqueue op :: rest, memory => (op memory).bind (runSequential rest)
  | .synchronize :: rest, memory => runSequential rest memory
  | .write value :: rest, memory =>
    (runSequential rest memory).map fun result => (result.1, value memory :: result.2)

theorem runSequential_append (program program' : List (HostInstr S W)) (memory : S) :
    runSequential (program ++ program') memory =
      (runSequential program memory).bind fun result =>
        (runSequential program' result.1).map fun result' =>
          (result'.1, result.2 ++ result'.2) := by
  induction program generalizing memory with
  | nil => simp [runSequential]
  | cons instr program ih =>
    cases instr with
    | host act =>
      simp only [List.cons_append, runSequential, Option.bind_assoc]
      exact congrArg (act memory).bind (funext ih)
    | enqueue op =>
      simp only [List.cons_append, runSequential, Option.bind_assoc]
      exact congrArg (op memory).bind (funext ih)
    | synchronize => exact ih memory
    | write value =>
      simp only [List.cons_append, runSequential, ih]
      cases runSequential program memory with
      | none => rfl
      | some result => simp [Function.comp_def]

/-! ## Pre- and postconditions -/

/-- From a memory with `P` the program ends, with these values, in one with `Q`. -/
def HostTriple (P : S → Prop) (program : List (HostInstr S W)) (values : List W) (Q : S → Prop) :
    Prop :=
  ∀ memory, P memory → ∃ memory', Q memory' ∧ runSequential program memory = some (memory', values)

section Triples

variable {P Q R : S → Prop}

theorem HostTriple.host {act : Action S}
    (h : ∀ memory, P memory → ∃ memory', act memory = some memory' ∧ Q memory') :
    HostTriple P [(.host act : HostInstr S W)] [] Q := by
  intro memory hP
  obtain ⟨memory', hact, hQ⟩ := h memory hP
  exact ⟨memory', hQ, by simp [runSequential, hact]⟩

theorem HostTriple.enqueue {op : Action S}
    (h : ∀ memory, P memory → ∃ memory', op memory = some memory' ∧ Q memory') :
    HostTriple P [(.enqueue op : HostInstr S W)] [] Q := by
  intro memory hP
  obtain ⟨memory', hop, hQ⟩ := h memory hP
  exact ⟨memory', hQ, by simp [runSequential, hop]⟩

theorem HostTriple.synchronize : HostTriple P [(.synchronize : HostInstr S W)] [] P :=
  fun memory hP => ⟨memory, hP, rfl⟩

theorem HostTriple.write {value : S → W} {w : W} (h : ∀ memory, P memory → value memory = w) :
    HostTriple P [.write value] [w] P := by
  intro memory hP
  exact ⟨memory, hP, by simp [runSequential, h memory hP]⟩

theorem HostTriple.append {program program' : List (HostInstr S W)} {values values' : List W}
    (h : HostTriple P program values Q) (h' : HostTriple Q program' values' R) :
    HostTriple P (program ++ program') (values ++ values') R := by
  intro memory hP
  obtain ⟨memory', hQ, hrun⟩ := h memory hP
  obtain ⟨memory'', hR, hrun'⟩ := h' memory' hQ
  refine ⟨memory'', hR, ?_⟩
  rw [runSequential_append, hrun, Option.bind_some, hrun', Option.map_some]

end Triples

/-! ## Runs with a stream -/

/-- What the host has still to do, the operations that the device has still to execute, and the
memory. -/
structure StreamState (S : Type u) (W : Type v) where
  rest : List (HostInstr S W)
  pending : List (Action S)
  memory : S

/-- A step of the host or of the device, with what it puts out. -/
inductive StreamStep : StreamState S W → Option W → StreamState S W → Prop where
  | host {act : Action S} {rest : List (HostInstr S W)} {pending : List (Action S)}
      {memory memory' : S} (hact : act memory = some memory') :
      StreamStep ⟨.host act :: rest, pending, memory⟩ none ⟨rest, pending, memory'⟩
  | enqueue (op : Action S) (rest : List (HostInstr S W)) (pending : List (Action S))
      (memory : S) :
      StreamStep ⟨.enqueue op :: rest, pending, memory⟩ none ⟨rest, pending ++ [op], memory⟩
  | synchronize (rest : List (HostInstr S W)) (memory : S) :
      StreamStep ⟨.synchronize :: rest, [], memory⟩ none ⟨rest, [], memory⟩
  | write (value : S → W) (rest : List (HostInstr S W)) (pending : List (Action S))
      (memory : S) :
      StreamStep ⟨.write value :: rest, pending, memory⟩ (some (value memory))
        ⟨rest, pending, memory⟩
  | execute {op : Action S} {rest : List (HostInstr S W)} {pending : List (Action S)}
      {memory memory' : S} (hop : op memory = some memory') :
      StreamStep ⟨rest, op :: pending, memory⟩ none ⟨rest, pending, memory'⟩

/-- The next action of the host or of the device is not defined. -/
inductive GoesWrong : StreamState S W → Prop where
  | host {act : Action S} {rest : List (HostInstr S W)} {pending : List (Action S)} {memory : S}
      (hact : act memory = none) : GoesWrong ⟨.host act :: rest, pending, memory⟩
  | execute {op : Action S} {rest : List (HostInstr S W)} {pending : List (Action S)} {memory : S}
      (hop : op memory = none) : GoesWrong ⟨rest, op :: pending, memory⟩

/-! ## Discipline -/

/-- The order of the two actions does not matter. -/
def Commutes (act op : Action S) : Prop :=
  ∀ memory, (act memory).bind op = (op memory).bind act

/-- What the host does while operations are pending commutes with them, and what it puts out does
not depend on them. It ends with nothing pending. -/
def Disciplined : List (Action S) → List (HostInstr S W) → Prop
  | pending, [] => pending = []
  | pending, .host act :: rest => (∀ op ∈ pending, Commutes act op) ∧ Disciplined pending rest
  | pending, .enqueue op :: rest => Disciplined (pending ++ [op]) rest
  | _, .synchronize :: rest => Disciplined [] rest
  | pending, .write value :: rest =>
    (∀ op ∈ pending, ∀ memory, ∀ memory' ∈ op memory, value memory' = value memory) ∧
      Disciplined pending rest

theorem Disciplined.mono {pending pending' : List (Action S)} {rest : List (HostInstr S W)}
    (hsubset : pending' ⊆ pending) (h : Disciplined pending rest) : Disciplined pending' rest := by
  induction rest generalizing pending pending' with
  | nil =>
    rw [Disciplined] at h ⊢
    exact List.subset_nil.mp (h ▸ hsubset)
  | cons instr rest ih =>
    cases instr with
    | host act => exact ⟨fun op hop => h.1 op (hsubset hop), ih hsubset h.2⟩
    | enqueue op =>
      exact ih (List.append_subset.mpr ⟨List.Subset.trans hsubset (List.subset_append_left _ _),
        List.subset_append_right _ _⟩) h
    | synchronize => exact h
    | write value => exact ⟨fun op hop => h.1 op (hsubset hop), ih hsubset h.2⟩

/-- A program that ends with nothing pending may be followed by another. -/
theorem Disciplined.append {pending : List (Action S)} {program program' : List (HostInstr S W)}
    (h : Disciplined pending program) (h' : Disciplined [] program') :
    Disciplined pending (program ++ program') := by
  induction program generalizing pending with
  | nil =>
    rw [Disciplined] at h
    rwa [List.nil_append, h]
  | cons instr program ih =>
    cases instr with
    | host act => exact ⟨h.1, ih h.2⟩
    | enqueue op => exact ih h
    | synchronize => exact ih h
    | write value => exact ⟨h.1, ih h.2⟩

/-! ## The pending operations -/

/-- All operations, in their order. -/
def runOps (pending : List (Action S)) (memory : S) : Option S :=
  pending.foldlM (fun memory op => op memory) memory

@[simp] theorem runOps_nil (memory : S) : runOps [] memory = some memory := rfl

@[simp] theorem runOps_cons (op : Action S) (pending : List (Action S)) (memory : S) :
    runOps (op :: pending) memory = (op memory).bind (runOps pending) := rfl

theorem runOps_concat (pending : List (Action S)) (op : Action S) (memory : S) :
    runOps (pending ++ [op]) memory = (runOps pending memory).bind op := by
  induction pending generalizing memory with
  | nil =>
    rw [List.nil_append, runOps_cons, runOps_nil, Option.bind_some]
    exact Option.bind_fun_some (op memory)
  | cons first pending ih =>
    rw [List.cons_append, runOps_cons, runOps_cons, Option.bind_assoc]
    congr 1
    funext memory'
    exact ih memory'

/-- An action that commutes with each of the operations commutes with all of them. -/
theorem runOps_commute {act : Action S} {pending : List (Action S)}
    (h : ∀ op ∈ pending, Commutes act op) : Commutes act (runOps pending) := by
  induction pending with
  | nil =>
    intro memory
    rw [runOps_nil, Option.bind_some]
    exact Option.bind_fun_some (act memory)
  | cons op pending ih =>
    intro memory
    have hrest := ih fun op hop => h op (List.mem_cons_of_mem _ hop)
    calc (act memory).bind (runOps (op :: pending))
        = ((act memory).bind op).bind (runOps pending) := (Option.bind_assoc _ _ _).symm
      _ = ((op memory).bind act).bind (runOps pending) := by rw [h op List.mem_cons_self memory]
      _ = (op memory).bind fun memory' => (act memory').bind (runOps pending) :=
          Option.bind_assoc _ _ _
      _ = (op memory).bind fun memory' => (runOps pending memory').bind act := by
          congr 1
          funext memory'
          exact hrest memory'
      _ = (runOps (op :: pending) memory).bind act := (Option.bind_assoc _ _ _).symm

/-- What is put out does not depend on the pending operations. -/
theorem value_runOps {value : S → W} {pending : List (Action S)}
    (h : ∀ op ∈ pending, ∀ memory, ∀ memory' ∈ op memory, value memory' = value memory)
    {memory memory' : S} (hrun : runOps pending memory = some memory') :
    value memory' = value memory := by
  induction pending generalizing memory with
  | nil =>
    obtain rfl := Option.some.inj hrun
    rfl
  | cons op pending ih =>
    rw [runOps_cons, Option.bind_eq_some_iff] at hrun
    obtain ⟨between, hop, hrun⟩ := hrun
    rw [ih (fun op hop => h op (List.mem_cons_of_mem _ hop)) hrun,
      h op List.mem_cons_self memory between hop]

/-! ## Branches -/

/-- The action, where the condition holds. -/
def onlyIf (cond : S → Bool) (act : Action S) : Action S := fun memory =>
  if cond memory then act memory else some memory

/-- An instruction of a body that is only executed under a condition; otherwise `nothing` is put out
for its output. -/
def HostInstr.onlyIf (cond : S → Bool) (nothing : W) : HostInstr S W → HostInstr S W
  | .host act => .host (Lib.onlyIf cond act)
  | .enqueue op => .enqueue (Lib.onlyIf cond op)
  | .synchronize => .synchronize
  | .write value => .write fun memory => if cond memory then value memory else nothing

/-- The body of an `if` of the host. -/
def branch (cond : S → Bool) (nothing : W) (body : List (HostInstr S W)) : List (HostInstr S W) :=
  body.map (HostInstr.onlyIf cond nothing)

/-- The action leaves the condition as it is. -/
def KeepsCond (cond : S → Bool) (act : Action S) : Prop :=
  ∀ memory, ∀ memory' ∈ act memory, cond memory' = cond memory

def HostInstr.KeepsCond (cond : S → Bool) : HostInstr S W → Prop
  | .host act => Lib.KeepsCond cond act
  | .enqueue op => Lib.KeepsCond cond op
  | _ => True

/-- What the body of an untaken `if` puts out. -/
def HostInstr.skipped (nothing : W) : HostInstr S W → List W
  | .write _ => [nothing]
  | _ => []

section Branch

variable {cond : S → Bool} {nothing : W} {body : List (HostInstr S W)}

/-- The body is executed. -/
theorem runSequential_branch_of_true (hkeeps : ∀ instr ∈ body, instr.KeepsCond cond) {memory : S}
    (h : cond memory = true) :
    runSequential (branch cond nothing body) memory = runSequential body memory := by
  induction body generalizing memory with
  | nil => rfl
  | cons instr body ih =>
    have hbody {memory : S} (h : cond memory = true) :=
      ih (fun instr' hinstr => hkeeps instr' (List.mem_cons_of_mem _ hinstr)) h
    have hkeep := hkeeps instr List.mem_cons_self
    have haction {act : Action S} (hact : Lib.KeepsCond cond act) :
        (act memory).bind (runSequential (branch cond nothing body)) =
          (act memory).bind (runSequential body) := by
      cases hdone : act memory with
      | none => rfl
      | some memory' => exact hbody ((hact memory memory' hdone).trans h)
    cases instr with
    | host act =>
      show (onlyIf cond act memory).bind _ = _
      rw [onlyIf, if_pos h]
      exact haction hkeep
    | enqueue op =>
      show (onlyIf cond op memory).bind _ = _
      rw [onlyIf, if_pos h]
      exact haction hkeep
    | synchronize => exact hbody h
    | write value =>
      show (runSequential (branch cond nothing body) memory).map _ = _
      rw [hbody h]
      simp [runSequential, h]

/-- The body is left out. -/
theorem runSequential_branch_of_false {memory : S} (h : cond memory = false) :
    runSequential (branch cond nothing body) memory =
      some (memory, body.flatMap (HostInstr.skipped nothing)) := by
  have hnot : ¬ cond memory = true := by simp [h]
  induction body with
  | nil => rfl
  | cons instr body ih =>
    cases instr with
    | host act =>
      show (onlyIf cond act memory).bind _ = _
      rw [onlyIf, if_neg hnot]
      exact ih
    | enqueue op =>
      show (onlyIf cond op memory).bind _ = _
      rw [onlyIf, if_neg hnot]
      exact ih
    | synchronize => exact ih
    | write value =>
      show (runSequential (branch cond nothing body) memory).map _ = _
      rw [ih]
      simp [HostInstr.skipped, h]

theorem HostTriple.branch_of_true {P Q : S → Prop} {values : List W} (nothing : W)
    (hkeeps : ∀ instr ∈ body, instr.KeepsCond cond)
    (hcond : ∀ memory, P memory → cond memory = true)
    (h : HostTriple P body values Q) : HostTriple P (branch cond nothing body) values Q := by
  intro memory hP
  rw [runSequential_branch_of_true hkeeps (hcond memory hP)]
  exact h memory hP

theorem HostTriple.branch_of_false {P : S → Prop} (nothing : W) (body : List (HostInstr S W))
    (hcond : ∀ memory, P memory → cond memory = false) :
    HostTriple P (branch cond nothing body) (body.flatMap (HostInstr.skipped nothing)) P :=
  fun memory hP => ⟨memory, hP, runSequential_branch_of_false (hcond memory hP)⟩

theorem commutes_onlyIf {act op : Action S} (hact : KeepsCond cond act) (hop : KeepsCond cond op)
    (h : Commutes act op) : Commutes (onlyIf cond act) (onlyIf cond op) := by
  intro memory
  have hsame {first second : Action S} (hfirst : KeepsCond cond first)
      (hcond : cond memory = true) :
      (first memory).bind (onlyIf cond second) = (first memory).bind second := by
    cases hdone : first memory with
    | none => rfl
    | some memory' =>
      exact if_pos ((hfirst memory memory' hdone).trans hcond)
  cases hcond : cond memory with
  | true =>
    simp only [onlyIf, hcond, if_true]
    exact (hsame hact hcond).trans ((h memory).trans (hsame hop hcond).symm)
  | false => simp [onlyIf, hcond]

/-- What is disciplined is so in a branch. -/
theorem Disciplined.branch {pending : List (Action S)} (nothing : W)
    (h : Disciplined pending body) (hkeeps : ∀ instr ∈ body, instr.KeepsCond cond)
    (hpending : ∀ op ∈ pending, KeepsCond cond op) :
    Disciplined (pending.map (onlyIf cond)) (branch cond nothing body) := by
  induction body generalizing pending with
  | nil =>
    obtain rfl : pending = [] := h
    rfl
  | cons instr body ih =>
    have hkeep := hkeeps instr List.mem_cons_self
    have hrest := fun instr' (hinstr : instr' ∈ body) =>
      hkeeps instr' (List.mem_cons_of_mem _ hinstr)
    cases instr with
    | host act =>
      refine ⟨fun op' hop' => ?_, ih h.2 hrest hpending⟩
      obtain ⟨op, hop, rfl⟩ := List.mem_map.mp hop'
      exact commutes_onlyIf hkeep (hpending op hop) (h.1 op hop)
    | enqueue op =>
      have hall : ∀ op' ∈ pending ++ [op], KeepsCond cond op' := by
        intro op' hop'
        rcases List.mem_append.mp hop' with hop' | hop'
        · exact hpending op' hop'
        · rw [List.mem_singleton.mp hop']
          exact hkeep
      have hlater := ih h hrest hall
      rwa [List.map_append] at hlater
    | synchronize => exact ih h hrest (by simp)
    | write value =>
      refine ⟨fun op' hop' memory memory' hrun => ?_, ih h.2 hrest hpending⟩
      obtain ⟨op, hop, rfl⟩ := List.mem_map.mp hop'
      dsimp only [onlyIf] at hrun ⊢
      cases hcond : cond memory with
      | true =>
        rw [if_pos hcond] at hrun
        rw [hpending op hop memory memory' hrun, h.1 op hop memory memory' hrun, hcond]
      | false =>
        rw [if_neg (by simp [hcond])] at hrun
        obtain rfl := Option.some.inj hrun
        rw [hcond]

end Branch

/-! ## The invariant -/

/-- The state is on the way to a memory, with these values still to be put out. -/
structure OnTheWay (final : S) (values : List W) (s : StreamState S W) : Prop where
  disciplined : Disciplined s.pending s.rest
  result : (runOps s.pending s.memory).bind (runSequential s.rest) = some (final, values)

variable {final : S} {values : List W} {s t : StreamState S W} {out : Option W}

theorem onTheWay_start {program : List (HostInstr S W)} {memory : S}
    (hdisciplined : Disciplined [] program)
    (hrun : runSequential program memory = some (final, values)) :
    OnTheWay final values ⟨program, [], memory⟩ :=
  ⟨hdisciplined, by rwa [runOps_nil, Option.bind_some]⟩

/-- At the end nothing is pending and all values have been put out. -/
theorem OnTheWay.finished (h : OnTheWay final values s) (hrest : s.rest = []) :
    s.pending = [] ∧ s.memory = final ∧ values = [] := by
  have hpending : s.pending = [] := by
    have hdisciplined := h.disciplined
    rwa [hrest, Disciplined] at hdisciplined
  have hresult := h.result
  rw [hpending, hrest, runOps_nil, Option.bind_some, runSequential, Option.some.injEq,
    Prod.mk.injEq] at hresult
  exact ⟨hpending, hresult.1, hresult.2.symm⟩

/-- A step puts out the next of the values, or none. -/
theorem OnTheWay.step (h : OnTheWay final values s) (hstep : StreamStep s out t) :
    ∃ rest, values = out.toList ++ rest ∧ OnTheWay final rest t := by
  obtain ⟨hdisciplined, hresult⟩ := h
  cases hstep with
  | @host act rest pending memory memory' hact =>
    refine ⟨values, rfl, hdisciplined.2, ?_⟩
    -- the action is moved in front of the operations that are pending
    have hcommute := runOps_commute hdisciplined.1 memory
    rw [hact, Option.bind_some] at hcommute
    rw [hcommute, Option.bind_assoc]
    exact hresult
  | enqueue op rest pending memory =>
    refine ⟨values, rfl, hdisciplined, ?_⟩
    rw [runOps_concat, Option.bind_assoc]
    exact hresult
  | synchronize rest memory => exact ⟨values, rfl, hdisciplined, hresult⟩
  | write value rest pending memory =>
    obtain ⟨memory', hops, hrun⟩ := Option.bind_eq_some_iff.mp hresult
    obtain ⟨⟨final', later⟩, hlater, hpair⟩ := Option.map_eq_some_iff.mp hrun
    obtain ⟨rfl, rfl⟩ := Prod.mk.inj hpair
    refine ⟨later, ?_, hdisciplined.2, ?_⟩
    · rw [value_runOps hdisciplined.1 hops]
      rfl
    · rw [hops, Option.bind_some, hlater]
  | @execute op rest pending memory memory' hop =>
    refine ⟨values, rfl, hdisciplined.mono (List.subset_cons_self _ _), ?_⟩
    rw [runOps_cons, hop, Option.bind_some] at hresult
    exact hresult

/-- No step is undefined. -/
theorem OnTheWay.not_goesWrong (h : OnTheWay final values s) : ¬ GoesWrong s := by
  intro hwrong
  obtain ⟨hdisciplined, hresult⟩ := h
  cases hwrong with
  | @host act rest pending memory hact =>
    have hcommute := runOps_commute hdisciplined.1 memory
    rw [hact, Option.bind_none] at hcommute
    have hbind : ((runOps pending memory).bind act).bind (runSequential rest) =
        some (final, values) := by
      rw [Option.bind_assoc]
      exact hresult
    rw [← hcommute] at hbind
    cases hbind
  | execute hop =>
    rw [runOps_cons, hop] at hresult
    cases hresult

/-- Until the end the host or the device can go on. -/
theorem OnTheWay.progress (h : OnTheWay final values s) (hrest : s.rest ≠ []) :
    ∃ out t, StreamStep s out t := by
  have hright := h.not_goesWrong
  obtain ⟨rest, pending, memory⟩ := s
  cases pending with
  | cons op pending =>
    cases hop : op memory with
    | some memory' => exact ⟨none, _, .execute hop⟩
    | none => exact absurd (.execute hop) hright
  | nil =>
    cases rest with
    | nil => exact absurd rfl hrest
    | cons instr rest =>
      cases instr with
      | host act =>
        cases hact : act memory with
        | some memory' => exact ⟨none, _, .host hact⟩
        | none => exact absurd (.host hact) hright
      | enqueue op => exact ⟨none, _, .enqueue op rest [] memory⟩
      | synchronize => exact ⟨none, _, .synchronize rest memory⟩
      | write value => exact ⟨_, _, .write value rest [] memory⟩

end Alus.Lib
