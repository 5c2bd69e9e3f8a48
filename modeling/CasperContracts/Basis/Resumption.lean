import Mathlib.Logic.Relation

/-!
# Programs that call out of their own storage

A program owns a storage, may fail, and may hand control to code it does not
own.  `Prog` is its syntax: what it reads and writes, the events it records
and the outside requests it issues.  `Runs` is its meaning relative to a
relation that says what an outside request may do to the whole world.  Two
such relations are provided: `Quiet`, where the callee changes only its own
side of the world, and `Nested`, where it may call back into the program to
any depth.  `nested_rule` is the assume-guarantee rule for the second.
-/

namespace CasperContracts.Basis

/-- What a program runs in: its own storage, everything outside of it, and
the events recorded so far. -/
structure World (σ E ω : Type) where
  storage : σ
  outside : E
  log : List ω

/-- Programs over a storage `σ`, failures `ε`, outside requests `γ` and
events `ω`. -/
inductive Prog (σ ε γ ω α : Type) : Type where
  | pure (value : α)
  | fail (error : ε)
  | get (next : σ → Prog σ ε γ ω α)
  | put (storage : σ) (next : Prog σ ε γ ω α)
  | emit (event : ω) (next : Prog σ ε γ ω α)
  | call (request : γ) (next : Prog σ ε γ ω α)

namespace Prog

variable {σ ε γ ω α β : Type}

def bind : Prog σ ε γ ω α → (α → Prog σ ε γ ω β) → Prog σ ε γ ω β
  | .pure value, f => f value
  | .fail error, _ => .fail error
  | .get next, f => .get fun storage => (next storage).bind f
  | .put storage next, f => .put storage (next.bind f)
  | .emit event next, f => .emit event (next.bind f)
  | .call request next, f => .call request (next.bind f)

instance : Monad (Prog σ ε γ ω) where
  pure := Prog.pure
  bind := Prog.bind

def ofExcept : Except ε α → Prog σ ε γ ω α
  | .ok value => .pure value
  | .error error => .fail error

def reads (f : σ → Except ε α) : Prog σ ε γ ω α :=
  .get fun storage => ofExcept (f storage)

def updates (f : σ → Except ε σ) : Prog σ ε γ ω Unit :=
  .get fun storage =>
    match f storage with
    | .ok storage' => .put storage' (.pure ())
    | .error error => .fail error

def record (event : ω) : Prog σ ε γ ω Unit :=
  .emit event (.pure ())

def request (c : γ) : Prog σ ε γ ω Unit :=
  .call c (.pure ())

/-! ## Meaning relative to a response relation -/

section Runs

variable {E : Type}
variable (respond : γ → World σ E ω → World σ E ω → Prop)

/-- `Runs respond p w a w'`: the program can take `w` to `w'` and return `a`
when every outside request is answered according to `respond`. -/
def Runs : Prog σ ε γ ω α → World σ E ω → α → World σ E ω → Prop
  | .pure value, w, a, w' => value = a ∧ w = w'
  | .fail _, _, _, _ => False
  | .get next, w, a, w' => (next w.storage).Runs w a w'
  | .put storage next, w, a, w' => next.Runs { w with storage } a w'
  | .emit event next, w, a, w' => next.Runs { w with log := w.log ++ [event] } a w'
  | .call c next, w, a, w' => ∃ u, respond c w u ∧ next.Runs u a w'

variable {respond}

@[simp] theorem runs_pure {value a : α} {w w' : World σ E ω} :
    Runs respond (Pure.pure value : Prog σ ε γ ω α) w a w' ↔ value = a ∧ w = w' :=
  Iff.rfl

@[simp] theorem runs_bind {p : Prog σ ε γ ω α} {f : α → Prog σ ε γ ω β}
    {w w' : World σ E ω} {b : β} :
    Runs respond (p >>= f) w b w' ↔
      ∃ a u, Runs respond p w a u ∧ Runs respond (f a) u b w' := by
  change Runs respond (p.bind f) w b w' ↔ _
  induction p generalizing w with
  | pure value =>
      constructor
      · intro run
        exact ⟨value, w, ⟨rfl, rfl⟩, run⟩
      · intro given
        obtain ⟨a, u, ⟨rfl, rfl⟩, run⟩ := given
        exact run
  | fail error => simp [Prog.bind, Runs]
  | get next ih => simpa [Prog.bind, Runs] using ih w.storage
  | put storage next ih => simpa [Prog.bind, Runs] using ih
  | emit event next ih => simpa [Prog.bind, Runs] using ih
  | call c next ih =>
      simp only [Prog.bind, Runs, ih]
      constructor
      · intro given
        obtain ⟨u, answered, a, v, first, second⟩ := given
        exact ⟨a, v, ⟨u, answered, first⟩, second⟩
      · intro given
        obtain ⟨a, v, ⟨u, answered, first⟩, second⟩ := given
        exact ⟨u, answered, a, v, first, second⟩

@[simp] theorem runs_ofExcept {result : Except ε α} {w w' : World σ E ω} {a : α} :
    Runs respond (ofExcept result : Prog σ ε γ ω α) w a w' ↔
      result = .ok a ∧ w = w' := by
  cases result with
  | ok value => simp [ofExcept, Runs]
  | error error => simp [ofExcept, Runs]

@[simp] theorem runs_reads {f : σ → Except ε α} {w w' : World σ E ω} {a : α} :
    Runs respond (reads f : Prog σ ε γ ω α) w a w' ↔
      f w.storage = .ok a ∧ w = w' := by
  simp [reads, Runs]

@[simp] theorem runs_updates {f : σ → Except ε σ} {w w' : World σ E ω} {a : Unit} :
    Runs respond (updates f : Prog σ ε γ ω Unit) w a w' ↔
      ∃ storage, f w.storage = .ok storage ∧ w' = { w with storage } := by
  simp only [updates, Runs]
  cases f w.storage with
  | ok storage => simp [Runs, eq_comm]
  | error error => simp [Runs]

@[simp] theorem runs_record {event : ω} {w w' : World σ E ω} {a : Unit} :
    Runs respond (record event : Prog σ ε γ ω Unit) w a w' ↔
      w' = { w with log := w.log ++ [event] } := by
  simp [record, Runs, eq_comm]

@[simp] theorem runs_request {c : γ} {w w' : World σ E ω} {a : Unit} :
    Runs respond (request c : Prog σ ε γ ω Unit) w a w' ↔ respond c w w' := by
  simp [request, Runs]

/-! The sequencing rules, one for each primitive step. -/

theorem runs_reads_bind {g : σ → Except ε α} {f : α → Prog σ ε γ ω β}
    {w w' : World σ E ω} {b : β} :
    Runs respond (reads g >>= f) w b w' ↔
      ∃ a, g w.storage = .ok a ∧ Runs respond (f a) w b w' := by
  simp [and_assoc]

theorem runs_unit_bind {p : Prog σ ε γ ω Unit} {f : Unit → Prog σ ε γ ω β}
    {w w' : World σ E ω} {b : β} :
    Runs respond (p >>= f) w b w' ↔
      ∃ u, Runs respond p w () u ∧ Runs respond (f ()) u b w' := by
  rw [runs_bind]
  constructor
  · intro given
    obtain ⟨_, u, first, second⟩ := given
    exact ⟨u, first, second⟩
  · intro given
    obtain ⟨u, first, second⟩ := given
    exact ⟨(), u, first, second⟩

theorem runs_updates_bind {g : σ → Except ε σ} {f : Unit → Prog σ ε γ ω β}
    {w w' : World σ E ω} {b : β} :
    Runs respond (updates g >>= f) w b w' ↔
      ∃ storage, g w.storage = .ok storage ∧
        Runs respond (f ()) { w with storage } b w' := by
  simp only [runs_unit_bind, runs_updates]
  constructor
  · intro given
    obtain ⟨_, ⟨storage, written, rfl⟩, rest⟩ := given
    exact ⟨storage, written, rest⟩
  · intro given
    obtain ⟨storage, written, rest⟩ := given
    exact ⟨_, ⟨storage, written, rfl⟩, rest⟩

theorem runs_record_bind {event : ω} {f : Unit → Prog σ ε γ ω β}
    {w w' : World σ E ω} {b : β} :
    Runs respond (record event >>= f) w b w' ↔
      Runs respond (f ()) { w with log := w.log ++ [event] } b w' := by
  simp only [runs_unit_bind, runs_record, exists_eq_left]

theorem runs_request_bind {c : γ} {f : Unit → Prog σ ε γ ω β}
    {w w' : World σ E ω} {b : β} :
    Runs respond (request c >>= f) w b w' ↔
      ∃ u, respond c w u ∧ Runs respond (f ()) u b w' := by
  simp only [runs_unit_bind, runs_request]

@[simp] theorem runs_fail {error : ε} {w w' : World σ E ω} {a : α} :
    ¬ Runs respond (fail error : Prog σ ε γ ω α) w a w' :=
  id

end Runs

/-! ## Failures -/

section Fails

variable {E : Type} {respond : γ → World σ E ω → World σ E ω → Prop}

/-- `Fails respond p w error`: started in `w`, the program can end in `error`. -/
def Fails (respond : γ → World σ E ω → World σ E ω → Prop) :
    Prog σ ε γ ω α → World σ E ω → ε → Prop
  | .pure _, _, _ => False
  | .fail error, _, error' => error = error'
  | .get next, w, error' => (next w.storage).Fails respond w error'
  | .put storage next, w, error' => next.Fails respond { w with storage } error'
  | .emit event next, w, error' =>
      next.Fails respond { w with log := w.log ++ [event] } error'
  | .call c next, w, error' => ∃ u, respond c w u ∧ next.Fails respond u error'

theorem fails_pure {value : α} {w : World σ E ω} {error : ε} :
    ¬ Fails respond (Pure.pure value : Prog σ ε γ ω α) w error :=
  id

theorem fails_ofExcept {result : Except ε α} {w : World σ E ω} {error : ε} :
    Fails respond (ofExcept result : Prog σ ε γ ω α) w error ↔
      result = .error error := by
  cases result with
  | ok value => simp [ofExcept, Fails]
  | error error => simp [ofExcept, Fails]

theorem fails_bind {p : Prog σ ε γ ω α} {f : α → Prog σ ε γ ω β}
    {w : World σ E ω} {error : ε} :
    Fails respond (p >>= f) w error ↔
      Fails respond p w error ∨
        ∃ a u, Runs respond p w a u ∧ Fails respond (f a) u error := by
  change Fails respond (p.bind f) w error ↔ _
  induction p generalizing w with
  | pure value =>
      constructor
      · intro fails
        exact .inr ⟨value, w, ⟨rfl, rfl⟩, fails⟩
      · intro given
        rcases given with impossible | ⟨a, u, ⟨rfl, rfl⟩, fails⟩
        · exact impossible.elim
        · exact fails
  | fail error => simp [Prog.bind, Fails, Runs]
  | get next ih => simpa [Prog.bind, Fails, Runs] using ih w.storage
  | put storage next ih => simpa [Prog.bind, Fails, Runs] using ih
  | emit event next ih => simpa [Prog.bind, Fails, Runs] using ih
  | call c next ih =>
      simp only [Prog.bind, Fails, Runs, ih]
      constructor
      · intro given
        obtain ⟨u, answered, first | ⟨a, v, run, second⟩⟩ := given
        · exact .inl ⟨u, answered, first⟩
        · exact .inr ⟨a, v, ⟨u, answered, run⟩, second⟩
      · intro given
        rcases given with ⟨u, answered, first⟩ | ⟨a, v, ⟨u, answered, run⟩, second⟩
        · exact ⟨u, answered, .inl first⟩
        · exact ⟨u, answered, .inr ⟨a, v, run, second⟩⟩

theorem fails_unit_bind {p : Prog σ ε γ ω Unit} {f : Unit → Prog σ ε γ ω β}
    {w : World σ E ω} {error : ε} :
    Fails respond (p >>= f) w error ↔
      Fails respond p w error ∨
        ∃ u, Runs respond p w () u ∧ Fails respond (f ()) u error := by
  rw [fails_bind]
  constructor
  · intro given
    rcases given with first | ⟨⟨⟩, u, run, second⟩
    · exact .inl first
    · exact .inr ⟨u, run, second⟩
  · intro given
    rcases given with first | ⟨u, run, second⟩
    · exact .inl first
    · exact .inr ⟨(), u, run, second⟩

/-! What a step contributes to the failures of a sequence. -/

theorem fails_ofExcept_bind {result : Except ε α} {f : α → Prog σ ε γ ω β}
    {w : World σ E ω} {error : ε} :
    Fails respond (ofExcept result >>= f) w error ↔
      result = .error error ∨
        ∃ a, result = .ok a ∧ Fails respond (f a) w error := by
  simp only [fails_bind, fails_ofExcept, runs_ofExcept, and_assoc, exists_and_left,
    exists_eq_left']

theorem fails_reads_bind {g : σ → Except ε α} {f : α → Prog σ ε γ ω β}
    {w : World σ E ω} {error : ε} :
    Fails respond (reads g >>= f) w error ↔
      g w.storage = .error error ∨
        ∃ a, g w.storage = .ok a ∧ Fails respond (f a) w error :=
  fails_ofExcept_bind

theorem fails_updates_bind {g : σ → Except ε σ} {f : Unit → Prog σ ε γ ω β}
    {w : World σ E ω} {error : ε} :
    Fails respond (updates g >>= f) w error ↔
      g w.storage = .error error ∨
        ∃ storage, g w.storage = .ok storage ∧
          Fails respond (f ()) { w with storage } error := by
  have first : Fails respond (updates g : Prog σ ε γ ω Unit) w error ↔
      g w.storage = .error error := by
    simp only [updates, Fails]
    cases g w.storage with
    | ok storage => simp [Fails]
    | error error => simp [Fails]
  simp only [fails_unit_bind, first, runs_updates]
  constructor
  · intro given
    rcases given with now | ⟨_, ⟨storage, written, rfl⟩, later⟩
    · exact .inl now
    · exact .inr ⟨storage, written, later⟩
  · intro given
    rcases given with now | ⟨storage, written, later⟩
    · exact .inl now
    · exact .inr ⟨_, ⟨storage, written, rfl⟩, later⟩

theorem fails_request_bind {c : γ} {f : Unit → Prog σ ε γ ω β} {w : World σ E ω}
    {error : ε} :
    Fails respond (request c >>= f) w error ↔
      ∃ u, respond c w u ∧ Fails respond (f ()) u error :=
  Iff.rfl

theorem fails_record_bind {event : ω} {f : Unit → Prog σ ε γ ω β} {w : World σ E ω}
    {error : ε} :
    Fails respond (record event >>= f) w error ↔
      Fails respond (f ()) { w with log := w.log ++ [event] } error :=
  Iff.rfl

theorem fails_record {event : ω} {w : World σ E ω} {error : ε} :
    ¬ Fails respond (record event : Prog σ ε γ ω Unit) w error :=
  id

theorem fails_request {c : γ} {w : World σ E ω} {error : ε} :
    ¬ Fails respond (request c : Prog σ ε γ ω Unit) w error := by
  intro fails
  obtain ⟨u, -, impossible⟩ := fails
  exact impossible

/-- A failure can be computed when the callees can; `none` when the program
succeeds or a callee refuses. -/
def failure (respond : γ → World σ E ω → Option (World σ E ω)) :
    Prog σ ε γ ω α → World σ E ω → Option ε
  | .pure _, _ => none
  | .fail error, _ => some error
  | .get next, w => (next w.storage).failure respond w
  | .put storage next, w => next.failure respond { w with storage }
  | .emit event next, w => next.failure respond { w with log := w.log ++ [event] }
  | .call c next, w => (respond c w).bind fun u => next.failure respond u

theorem fails_of_failure {computed : γ → World σ E ω → Option (World σ E ω)}
    (sound : ∀ c w w', computed c w = some w' → respond c w w')
    {p : Prog σ ε γ ω α} {w : World σ E ω} {error : ε}
    (found : p.failure computed w = some error) : Fails respond p w error := by
  induction p generalizing w with
  | pure value => simp [failure] at found
  | fail error =>
      simp only [failure, Option.some.injEq] at found
      exact found
  | get next ih => exact ih w.storage found
  | put storage next ih => exact ih found
  | emit event next ih => exact ih found
  | call c next ih =>
      simp only [failure, Option.bind_eq_some_iff] at found
      obtain ⟨u, answered, later⟩ := found
      exact ⟨u, sound c w u answered, ih later⟩

end Fails

/-! ## Sequences of requests -/

/-- The requests are answered one after the other. -/
inductive Chain {E : Type} (respond : γ → World σ E ω → World σ E ω → Prop) :
    List γ → World σ E ω → World σ E ω → Prop where
  | nil (w : World σ E ω) : Chain respond [] w w
  | cons {c : γ} {cs : List γ} {u v w : World σ E ω}
      (head : respond c u v) (tail : Chain respond cs v w) :
      Chain respond (c :: cs) u w

theorem Chain.single {E : Type} {respond : γ → World σ E ω → World σ E ω → Prop}
    {c : γ} {w w' : World σ E ω} (answered : respond c w w') :
    Chain respond [c] w w' :=
  .cons answered (.nil w')

/-- A reflexive and transitive relation that every answer establishes holds
across a sequence of requests. -/
theorem Chain.rel {E : Type} {respond : γ → World σ E ω → World σ E ω → Prop}
    {rel : World σ E ω → World σ E ω → Prop} (refl : ∀ w, rel w w)
    (trans : ∀ u v w, rel u v → rel v w → rel u w)
    (answers : ∀ c w w', respond c w w' → rel w w')
    {cs : List γ} {w w' : World σ E ω} (chain : Chain respond cs w w') : rel w w' := by
  induction chain with
  | nil w => exact refl w
  | cons head tail ih => exact trans _ _ _ (answers _ _ _ head) ih

/-! ## Callees that keep to their own side -/

section Quiet

variable {E : Type}

/-- The callee changes only the outside of the world. -/
def Quiet (answer : γ → E → E → Prop) (c : γ) (w w' : World σ E ω) : Prop :=
  ∃ e, answer c w.outside e ∧ w' = { w with outside := e }

/-- The answers to a sequence of requests, as the outside sees them. -/
inductive Answers (answer : γ → E → E → Prop) : List γ → E → E → Prop where
  | nil (e : E) : Answers answer [] e e
  | cons {c : γ} {cs : List γ} {e e' e'' : E}
      (head : answer c e e') (tail : Answers answer cs e' e'') :
      Answers answer (c :: cs) e e''

theorem answers_nil {answer : γ → E → E → Prop} {e e' : E} :
    Answers answer [] e e' ↔ e' = e := by
  constructor
  · intro answered
    cases answered
    rfl
  · intro same
    rw [same]
    exact .nil e

theorem answers_singleton {answer : γ → E → E → Prop} {c : γ} {e e' : E} :
    Answers answer [c] e e' ↔ answer c e e' := by
  constructor
  · intro answered
    cases answered with
    | cons head tail =>
        cases tail
        exact head
  · intro answered
    exact .cons answered (.nil e')

theorem Chain.quiet {answer : γ → E → E → Prop} {cs : List γ}
    {w w' : World σ E ω} (chain : Chain (Quiet answer) cs w w') :
    ∃ e, Answers answer cs w.outside e ∧ w' = { w with outside := e } := by
  induction chain with
  | nil w => exact ⟨w.outside, .nil _, rfl⟩
  | cons head tail ih =>
      obtain ⟨e, answered, rfl⟩ := head
      obtain ⟨e', rest, rfl⟩ := ih
      exact ⟨e', .cons answered rest, rfl⟩

theorem Runs.log_extends {answer : γ → E → E → Prop} {p : Prog σ ε γ ω α}
    {w w' : World σ E ω} {a : α} (run : Runs (Quiet answer) p w a w') :
    ∃ more, w'.log = w.log ++ more := by
  induction p generalizing w with
  | pure value =>
      obtain ⟨-, rfl⟩ := run
      exact ⟨[], by simp⟩
  | fail error => exact run.elim
  | get next ih => exact ih w.storage run
  | put storage next ih =>
      have rest : ∃ more, w'.log = _ ++ more := ih run
      exact rest
  | emit event next ih =>
      obtain ⟨more, log⟩ := ih run
      exact ⟨event :: more, by simpa using log⟩
  | call c next ih =>
      obtain ⟨_, ⟨e, -, rfl⟩, rest⟩ := run
      have later : ∃ more, w'.log = _ ++ more := ih rest
      exact later

/-- Evaluation against callees that are computed; `none` when the program or a
callee fails. -/
def exec (respond : γ → World σ E ω → Option (World σ E ω)) :
    Prog σ ε γ ω α → World σ E ω → Option (α × World σ E ω)
  | .pure value, w => some (value, w)
  | .fail _, _ => none
  | .get next, w => (next w.storage).exec respond w
  | .put storage next, w => next.exec respond { w with storage }
  | .emit event next, w => next.exec respond { w with log := w.log ++ [event] }
  | .call c next, w => (respond c w).bind fun u => next.exec respond u

/-- The response of a callee that computes its answer on its own side. -/
def quietly (answer : γ → E → Except ε E) (c : γ) (w : World σ E ω) :
    Option (World σ E ω) :=
  match answer c w.outside with
  | .ok e => some { w with outside := e }
  | .error _ => none

theorem quiet_of_quietly {answer : γ → E → Except ε E} {c : γ} {w w' : World σ E ω}
    (success : quietly answer c w = some w') :
    Quiet (fun c e e' => answer c e = .ok e') c w w' := by
  unfold quietly at success
  split at success
  · rename_i e answered
    simp only [Option.some.injEq] at success
    exact ⟨e, answered, success.symm⟩
  · cases success

theorem runs_of_exec {respond : γ → World σ E ω → Option (World σ E ω)}
    {allows : γ → World σ E ω → World σ E ω → Prop}
    (sound : ∀ c w w', respond c w = some w' → allows c w w')
    {p : Prog σ ε γ ω α} {w w' : World σ E ω} {a : α}
    (success : p.exec respond w = some (a, w')) : Runs allows p w a w' := by
  induction p generalizing w with
  | pure value =>
      simp only [exec, Option.some.injEq, Prod.mk.injEq] at success
      exact success
  | fail error => simp [exec] at success
  | get next ih => exact ih w.storage success
  | put storage next ih => exact ih success
  | emit event next ih => exact ih success
  | call c next ih =>
      simp only [exec, Option.bind_eq_some_iff] at success
      obtain ⟨u, answered, rest⟩ := success
      exact ⟨u, sound c w u answered, ih rest⟩

end Quiet

/-! ## Callees that call back -/

section Nested

variable {E κ : Type}
variable (program : κ → Prog σ ε γ ω Unit)
variable (answer : γ → E → E → Prop) (hostile : γ → Prop)
variable (allowed : List κ → World σ E ω → κ → Prop)

/-- One move of a callee that may call back: change the outside, or run one
of the program's entry points to its end. -/
inductive Move (respond : List κ → γ → World σ E ω → World σ E ω → Prop)
    (stack : List κ) : World σ E ω → World σ E ω → Prop where
  | outside (w : World σ E ω) (e : E) : Move respond stack w { w with outside := e }
  | entry {w w' : World σ E ω} (k : κ) (permitted : allowed stack w k)
      (run : Runs (respond (k :: stack)) (program k) w () w') :
      Move respond stack w w'

/-- Responses nested to depth `n` below the open entry points `stack`.  A
request to a hostile callee is answered by finitely many moves. -/
def Nested : Nat → List κ → γ → World σ E ω → World σ E ω → Prop
  | 0, _ => Quiet answer
  | n + 1, stack => fun c w w' =>
      Quiet answer c w w' ∨
        hostile c ∧
          Relation.ReflTransGen (Move program allowed (Nested n) stack) w w'

variable {program answer hostile allowed}

/-- The assume-guarantee rule for call-backs.  A reflexive and transitive
relation between the worlds before and after a request holds of every nested
response as soon as each entry point establishes it under the assumption that
the requests it issues itself do. -/
theorem nested_rule (rel : List κ → World σ E ω → World σ E ω → Prop)
    (refl : ∀ stack w, rel stack w w)
    (trans : ∀ stack u v w, rel stack u v → rel stack v w → rel stack u w)
    (outside : ∀ stack w e, rel stack w { w with outside := e })
    (entry : ∀ stack k u v (respond : γ → World σ E ω → World σ E ω → Prop),
      allowed stack u k → (∀ c w w', respond c w w' → rel (k :: stack) w w') →
      Runs respond (program k) u () v → rel stack u v)
    (n : Nat) (stack : List κ) {c : γ} {w w' : World σ E ω}
    (response : Nested program answer hostile allowed n stack c w w') :
    rel stack w w' := by
  have quiet_rel : ∀ stack c (w w' : World σ E ω), Quiet answer c w w' →
      rel stack w w' := by
    intro stack c w w' quiet
    obtain ⟨e, -, rfl⟩ := quiet
    exact outside stack w e
  induction n generalizing stack c w w' with
  | zero => exact quiet_rel stack c w w' response
  | succ n ih =>
      rcases response with quiet | ⟨-, moves⟩
      · exact quiet_rel stack c w w' quiet
      · induction moves with
        | refl => exact refl stack w
        | tail _ move soFar =>
            apply trans stack _ _ _ soFar
            cases move with
            | outside e => exact outside stack _ e
            | entry k permitted run =>
                exact entry stack k _ _ _ permitted
                  (fun c u v answered => ih (k :: stack) answered) run

/-! Nested responses can be computed when the call-backs are scripted. -/

section Scripted

variable (program : κ → Prog σ ε γ ω Unit) (answer : γ → E → Except ε E)
variable (allowed : List κ → World σ E ω → κ → Prop)
variable [∀ stack w k, Decidable (allowed stack w k)]

/-- Run a list of entry points one after the other below `stack`. -/
def execEntries (respond : List κ → γ → World σ E ω → Option (World σ E ω))
    (stack : List κ) : List κ → World σ E ω → Option (World σ E ω)
  | [], w => some w
  | k :: ks, w =>
      if allowed stack w k then
        ((program k).exec (respond (k :: stack)) w).bind fun result =>
          execEntries respond stack ks result.2
      else
        none

/-- The response of callees that run the entry points `script` asks for before
they answer, down to depth `n`. -/
def execNested (script : List κ → γ → List κ) :
    Nat → List κ → γ → World σ E ω → Option (World σ E ω)
  | 0, _, c, w => quietly answer c w
  | n + 1, stack, c, w =>
      (execEntries program allowed (execNested script n) stack (script stack c) w).bind
        fun u => quietly answer c u

variable {program answer allowed}

theorem moves_of_execEntries
    {respond : List κ → γ → World σ E ω → Option (World σ E ω)}
    {allows : List κ → γ → World σ E ω → World σ E ω → Prop}
    (sound : ∀ stack c w w', respond stack c w = some w' → allows stack c w w')
    {stack ks : List κ} {w w' : World σ E ω}
    (success : execEntries program allowed respond stack ks w = some w') :
    Relation.ReflTransGen (Move program allowed allows stack) w w' := by
  induction ks generalizing w with
  | nil =>
      simp only [execEntries, Option.some.injEq] at success
      exact success ▸ .refl
  | cons k ks ih =>
      simp only [execEntries] at success
      split at success
      · rename_i permitted
        obtain ⟨⟨⟨⟩, u⟩, entered, rest⟩ := Option.bind_eq_some_iff.mp success
        exact .head (.entry k permitted (runs_of_exec (sound (k :: stack)) entered))
          (ih rest)
      · cases success

/-- Scripted call-backs of hostile callees are nested responses. -/
theorem nested_of_execNested {script : List κ → γ → List κ}
    (scripted : ∀ stack c, script stack c ≠ [] → hostile c)
    {n : Nat} {stack : List κ} {c : γ} {w w' : World σ E ω}
    (success : execNested program answer allowed script n stack c w = some w') :
    Nested program (fun c e e' => answer c e = .ok e') hostile allowed n stack c w w' := by
  induction n generalizing stack c w w' with
  | zero => exact quiet_of_quietly success
  | succ n ih =>
      simp only [execNested] at success
      obtain ⟨u, entered, answered⟩ := Option.bind_eq_some_iff.mp success
      obtain ⟨e, isAnswer, rfl⟩ := quiet_of_quietly answered
      by_cases silent : script stack c = []
      · rw [silent] at entered
        simp only [execEntries, Option.some.injEq] at entered
        subst entered
        exact .inl ⟨e, isAnswer, rfl⟩
      · have sound : ∀ stack c w w',
            execNested program answer allowed script n stack c w = some w' →
            Nested program (fun c e e' => answer c e = .ok e') hostile allowed n stack c
              w w' :=
          fun _ _ _ _ => ih
        have moves := moves_of_execEntries sound entered
        exact .inr ⟨scripted stack c silent, moves.tail (.outside u e)⟩

end Scripted

end Nested

end Prog

end CasperContracts.Basis
