import CasperContracts.Basis.Resumption

/-!
# Entry points in progress

`Runs` relates the worlds before and after an entry point.  Here the same runs
are taken in small steps: a configuration holds the entry points that have been
entered and have not finished, innermost first.  While the innermost one waits
for an answer, control is outside and may enter the program again.  An entry
point that fails is stuck, and nothing of it takes effect.

`Discipline` is a rely-guarantee argument for such runs and `Meets` its rule of
preconditions: what each entry point establishes on its own, under what the
others do while it waits, holds in every configuration.
-/

namespace CasperContracts.Basis

open Prog

/-- An entry point in progress and what is left of its program. -/
structure Frame (σ ε γ ω κ : Type) where
  entry : κ
  rest : Prog σ ε γ ω Unit

structure Config (σ ε γ ω κ E : Type) where
  frames : List (Frame σ ε γ ω κ)
  world : World σ E ω

structure Inside (σ ω : Type) where
  storage : σ
  log : List ω

def World.inside {σ E ω : Type} (w : World σ E ω) : Inside σ ω :=
  ⟨w.storage, w.log⟩

section Steps

variable {σ ε γ ω κ E : Type}

def entries (frames : List (Frame σ ε γ ω κ)) : List κ :=
  frames.map Frame.entry

/-- Control is outside. -/
def Waits : List (Frame σ ε γ ω κ) → Prop
  | [] => True
  | ⟨_, .call _ _⟩ :: _ => True
  | _ => False

theorem waits_nil : Waits ([] : List (Frame σ ε γ ω κ)) :=
  trivial

theorem waits_call {k : κ} {c : γ} {next : Prog σ ε γ ω Unit}
    {frames : List (Frame σ ε γ ω κ)} : Waits (⟨k, .call c next⟩ :: frames) :=
  trivial

variable (program : κ → Prog σ ε γ ω Unit) (allowed : List κ → World σ E ω → κ → Prop)

inductive SmallStep : Config σ ε γ ω κ E → Config σ ε γ ω κ E → Prop where
  | outside {frames : List (Frame σ ε γ ω κ)} {w : World σ E ω} (waits : Waits frames)
      (e : E) : SmallStep ⟨frames, w⟩ ⟨frames, { w with outside := e }⟩
  | enter {frames : List (Frame σ ε γ ω κ)} {w : World σ E ω} {k : κ}
      (waits : Waits frames) (permitted : allowed (entries frames) w k) :
      SmallStep ⟨frames, w⟩ ⟨⟨k, program k⟩ :: frames, w⟩
  | get {frames : List (Frame σ ε γ ω κ)} {w : World σ E ω} {k : κ}
      {next : σ → Prog σ ε γ ω Unit} :
      SmallStep ⟨⟨k, .get next⟩ :: frames, w⟩ ⟨⟨k, next w.storage⟩ :: frames, w⟩
  | put {frames : List (Frame σ ε γ ω κ)} {w : World σ E ω} {k : κ} {storage : σ}
      {next : Prog σ ε γ ω Unit} :
      SmallStep ⟨⟨k, .put storage next⟩ :: frames, w⟩
        ⟨⟨k, next⟩ :: frames, { w with storage }⟩
  | emit {frames : List (Frame σ ε γ ω κ)} {w : World σ E ω} {k : κ} {event : ω}
      {next : Prog σ ε γ ω Unit} :
      SmallStep ⟨⟨k, .emit event next⟩ :: frames, w⟩
        ⟨⟨k, next⟩ :: frames, { w with log := w.log ++ [event] }⟩
  | answer {frames : List (Frame σ ε γ ω κ)} {w : World σ E ω} {k : κ} {c : γ}
      {next : Prog σ ε γ ω Unit} :
      SmallStep ⟨⟨k, .call c next⟩ :: frames, w⟩ ⟨⟨k, next⟩ :: frames, w⟩
  | finish {frames : List (Frame σ ε γ ω κ)} {w : World σ E ω} {k : κ} :
      SmallStep ⟨⟨k, .pure ()⟩ :: frames, w⟩ ⟨frames, w⟩

abbrev SmallSteps : Config σ ε γ ω κ E → Config σ ε γ ω κ E → Prop :=
  Relation.ReflTransGen (SmallStep program allowed)

variable {program allowed}

/-! ## Nested runs in small steps -/

/-- A run whose requests can be answered step by step can be taken step by step. -/
theorem steps_of_runs {respond : γ → World σ E ω → World σ E ω → Prop} {k : κ}
    {frames : List (Frame σ ε γ ω κ)}
    (answers : ∀ c u v next, respond c u v →
      SmallSteps program allowed ⟨⟨k, .call c next⟩ :: frames, u⟩
        ⟨⟨k, .call c next⟩ :: frames, v⟩)
    {p : Prog σ ε γ ω Unit} {w w' : World σ E ω} (run : Runs respond p w () w') :
    SmallSteps program allowed ⟨⟨k, p⟩ :: frames, w⟩ ⟨frames, w'⟩ := by
  induction p generalizing w with
  | pure value =>
      obtain ⟨-, rfl⟩ := run
      exact .single .finish
  | fail error => exact run.elim
  | get next ih => exact .head .get (ih w.storage run)
  | put storage next ih => exact .head .put (ih run)
  | emit event next ih => exact .head .emit (ih run)
  | call c next ih =>
      obtain ⟨u, answered, rest⟩ := run
      exact (answers c w u next answered).trans (.head .answer (ih rest))

/-! The entry points of a nested run may be named in another way. -/

section Nested

variable {κ₀ : Type} {program₀ : κ₀ → Prog σ ε γ ω Unit}
variable {allowed₀ : List κ₀ → World σ E ω → κ₀ → Prop}
variable {answer : γ → E → E → Prop} {hostile : γ → Prop} {name : κ₀ → κ}
variable {frames : List (Frame σ ε γ ω κ)} {stack : List κ₀}

private theorem steps_of_moves_of_answers (same : ∀ k, program (name k) = program₀ k)
    (permits : ∀ stack w k, allowed₀ stack w k → allowed (stack.map name) w (name k))
    (waits : Waits frames) (stacked : entries frames = stack.map name)
    {respond : List κ₀ → γ → World σ E ω → World σ E ω → Prop}
    (answers : ∀ k c u v next, respond (k :: stack) c u v →
      SmallSteps program allowed ⟨⟨name k, .call c next⟩ :: frames, u⟩
        ⟨⟨name k, .call c next⟩ :: frames, v⟩)
    {w w' : World σ E ω}
    (moves : Relation.ReflTransGen (Move program₀ allowed₀ respond stack) w w') :
    SmallSteps program allowed ⟨frames, w⟩ ⟨frames, w'⟩ := by
  induction moves with
  | refl => exact .refl
  | @tail w w' _ move soFar =>
      apply soFar.trans
      cases move with
      | outside e => exact .single (.outside waits e)
      | entry k permitted run =>
          have entered : SmallStep program allowed ⟨frames, w⟩
              ⟨⟨name k, program (name k)⟩ :: frames, w⟩ :=
            .enter waits (stacked ▸ permits stack w k permitted)
          rw [same] at entered
          exact .head entered (steps_of_runs (answers k) run)

private theorem steps_of_nested (same : ∀ k, program (name k) = program₀ k)
    (permits : ∀ stack w k, allowed₀ stack w k → allowed (stack.map name) w (name k))
    {depth : Nat} (waits : Waits frames) (stacked : entries frames = stack.map name)
    {c : γ} {u v : World σ E ω}
    (response : Nested program₀ answer hostile allowed₀ depth stack c u v) :
    SmallSteps program allowed ⟨frames, u⟩ ⟨frames, v⟩ := by
  induction depth generalizing frames stack c u v with
  | zero =>
      obtain ⟨e, -, rfl⟩ := response
      exact .single (.outside waits e)
  | succ depth ih =>
      rcases response with quiet | ⟨-, moves⟩
      · obtain ⟨e, -, rfl⟩ := quiet
        exact .single (.outside waits e)
      · refine steps_of_moves_of_answers same permits waits stacked
          (fun k c u v next answered => ?_) moves
        exact ih waits_call (by simp [entries, ← stacked]) answered

theorem steps_of_moves (same : ∀ k, program (name k) = program₀ k)
    (permits : ∀ stack w k, allowed₀ stack w k → allowed (stack.map name) w (name k))
    {depth : Nat} (waits : Waits frames) (stacked : entries frames = stack.map name)
    {w w' : World σ E ω}
    (moves : Relation.ReflTransGen
      (Move program₀ allowed₀ (Nested program₀ answer hostile allowed₀ depth) stack) w w') :
    SmallSteps program allowed ⟨frames, w⟩ ⟨frames, w'⟩ := by
  refine steps_of_moves_of_answers same permits waits stacked
    (fun k c u v next answered => ?_) moves
  exact steps_of_nested same permits waits_call (by simp [entries, ← stacked]) answered

theorem steps_of_execEntries {answer : γ → E → Except ε E}
    [∀ stack w k, Decidable (allowed stack w k)] {script : List κ → γ → List κ}
    {depth : Nat} {ks : List κ} {w w' : World σ E ω}
    (success : execEntries program allowed (execNested program answer allowed script depth)
      [] ks w = some w') :
    SmallSteps program allowed ⟨[], w⟩ ⟨[], w'⟩ := by
  have nested : ∀ stack c u v,
      execNested program answer allowed script depth stack c u = some v →
      Nested program (fun c e e' => answer c e = .ok e') (fun _ => True) allowed depth
        stack c u v :=
    fun _ _ _ _ => nested_of_execNested fun _ _ _ => trivial
  have permits : ∀ stack w k, allowed stack w k → allowed (stack.map id) w (id k) := by
    simp
  exact steps_of_moves (fun _ => rfl) permits waits_nil rfl
    (moves_of_execEntries nested success)

end Nested

end Steps

/-! ## Rely and guarantee -/

/-- `inv` holds while control is outside below the open entry points, `rely` is
what an open entry point may rely on while it waits, and `own` is what the steps
of an entry point do besides. -/
structure Discipline (σ ω κ : Type) where
  inv : List κ → Inside σ ω → Prop
  rely : List κ → Inside σ ω → Inside σ ω → Prop
  own : κ → Inside σ ω → Inside σ ω → Prop
  refl : ∀ {stack v}, rely stack v v
  trans : ∀ {stack u v w}, rely stack u v → rely stack v w → rely stack u w
  pop : ∀ {k stack v v'}, rely (k :: stack) v v' → rely stack v v'
  own_refl : ∀ {k v}, own k v v

namespace Discipline

variable {σ ε γ ω κ α β : Type} (D : Discipline σ ω κ)

/-- Every step of the program keeps to the discipline below `stack`, and it ends
as `post` says. -/
def Meets (stack : List κ) (k : κ) :
    Prog σ ε γ ω α → (α → Inside σ ω → Prop) → Inside σ ω → Prop
  | .pure value, post, v => post value v
  | .fail _, _, _ => True
  | .get next, post, v => Meets stack k (next v.storage) post v
  | .put storage next, post, v =>
      D.rely stack v { v with storage } ∧ D.own k v { v with storage } ∧
        Meets stack k next post { v with storage }
  | .emit event next, post, v =>
      D.rely stack v { v with log := v.log ++ [event] } ∧
        D.own k v { v with log := v.log ++ [event] } ∧
        Meets stack k next post { v with log := v.log ++ [event] }
  | .call _ next, post, v =>
      D.inv (k :: stack) v ∧
        ∀ v', D.inv (k :: stack) v' → D.rely (k :: stack) v v' → Meets stack k next post v'

section Rules

variable {D} {stack : List κ} {k : κ} {v : Inside σ ω}
variable {post : α → Inside σ ω → Prop}

@[simp] theorem meets_pure {value : α} :
    D.Meets stack k (Pure.pure value : Prog σ ε γ ω α) post v ↔ post value v :=
  Iff.rfl

@[simp] theorem meets_fail {error : ε} :
    D.Meets stack k (fail error : Prog σ ε γ ω α) post v :=
  trivial

theorem meets_ite_fail {condition : Prop} [Decidable condition] {error : ε}
    {post : Unit → Inside σ ω → Prop} :
    D.Meets stack k
        (if condition then fail error else Pure.pure () : Prog σ ε γ ω Unit) post v ↔
      (¬ condition → post () v) := by
  split
  · rename_i holds
    simp [holds]
  · rename_i fails
    simp [fails]

@[simp] theorem meets_bind {p : Prog σ ε γ ω α} {f : α → Prog σ ε γ ω β}
    {post : β → Inside σ ω → Prop} :
    D.Meets stack k (p >>= f) post v ↔
      D.Meets stack k p (fun a v => D.Meets stack k (f a) post v) v := by
  change D.Meets stack k (p.bind f) post v ↔ _
  induction p generalizing v with
  | pure value => rfl
  | fail error => rfl
  | get next ih => exact ih v.storage
  | put storage next ih => simp only [Prog.bind, Meets, ih]
  | emit event next ih => simp only [Prog.bind, Meets, ih]
  | call c next ih => simp only [Prog.bind, Meets, ih]

@[simp] theorem meets_ofExcept {result : Except ε α} :
    D.Meets stack k (ofExcept result : Prog σ ε γ ω α) post v ↔
      ∀ a, result = .ok a → post a v := by
  cases result with
  | ok value => simp [Prog.ofExcept, Meets]
  | error error => simp [Prog.ofExcept]

@[simp] theorem meets_reads {g : σ → Except ε α} :
    D.Meets stack k (reads g : Prog σ ε γ ω α) post v ↔
      ∀ a, g v.storage = .ok a → post a v :=
  meets_ofExcept

@[simp] theorem meets_updates {g : σ → Except ε σ} {post : Unit → Inside σ ω → Prop} :
    D.Meets stack k (updates g : Prog σ ε γ ω Unit) post v ↔
      ∀ storage, g v.storage = .ok storage →
        D.rely stack v { v with storage } ∧ D.own k v { v with storage } ∧
          post () { v with storage } := by
  simp only [updates, Meets]
  cases g v.storage with
  | ok storage => simp [Meets]
  | error error => simp [Meets]

@[simp] theorem meets_record {event : ω} {post : Unit → Inside σ ω → Prop} :
    D.Meets stack k (record event : Prog σ ε γ ω Unit) post v ↔
      D.rely stack v { v with log := v.log ++ [event] } ∧
        D.own k v { v with log := v.log ++ [event] } ∧
        post () { v with log := v.log ++ [event] } :=
  Iff.rfl

@[simp] theorem meets_request {c : γ} {post : Unit → Inside σ ω → Prop} :
    D.Meets stack k (request c : Prog σ ε γ ω Unit) post v ↔
      D.inv (k :: stack) v ∧
        ∀ v', D.inv (k :: stack) v' → D.rely (k :: stack) v v' → post () v' :=
  Iff.rfl

theorem Meets.mono {p : Prog σ ε γ ω α} {post' : α → Inside σ ω → Prop}
    (implied : ∀ a v, post a v → post' a v) (meets : D.Meets stack k p post v) :
    D.Meets stack k p post' v := by
  induction p generalizing v with
  | pure value => exact implied value v meets
  | fail error => trivial
  | get next ih => exact ih v.storage meets
  | put storage next ih => exact ⟨meets.1, meets.2.1, ih meets.2.2⟩
  | emit event next ih => exact ⟨meets.1, meets.2.1, ih meets.2.2⟩
  | call c next ih => exact ⟨meets.1, fun v' inv rely => ih (meets.2 v' inv rely)⟩

end Rules

/-! ## Configurations that keep to a discipline -/

section Safe

variable {E : Type}

/-- The waiting entry points can go on after whatever they rely on. -/
def Pending : List (Frame σ ε γ ω κ) → Inside σ ω → Prop
  | [], _ => True
  | frame :: frames, v =>
      (∀ v', D.inv (frame.entry :: entries frames) v' →
        D.rely (frame.entry :: entries frames) v v' →
        D.Meets (entries frames) frame.entry frame.rest
          (fun _ => D.inv (entries frames)) v') ∧
      Pending frames v

/-- The innermost entry point can go on, and the others can when it has ended. -/
def Safe : List (Frame σ ε γ ω κ) → Inside σ ω → Prop
  | [], v => D.inv [] v
  | frame :: frames, v =>
      D.Meets (entries frames) frame.entry frame.rest (fun _ => D.inv (entries frames)) v ∧
      D.Pending frames v

/-- What every entry point has to establish. -/
def Guards (program : κ → Prog σ ε γ ω Unit)
    (allowed : List κ → World σ E ω → κ → Prop) : Prop :=
  ∀ stack w k, allowed stack w k → D.inv stack w.inside →
    D.Meets stack k (program k) (fun _ => D.inv stack) w.inside

variable {D} {program : κ → Prog σ ε γ ω Unit}
variable {allowed : List κ → World σ E ω → κ → Prop}
variable {frames : List (Frame σ ε γ ω κ)} {v v' : Inside σ ω} {c c' : Config σ ε γ ω κ E}

theorem rely_nil {stack : List κ} (rely : D.rely stack v v') : D.rely [] v v' := by
  induction stack with
  | nil => exact rely
  | cons k stack ih => exact ih (D.pop rely)

theorem Pending.rely (pending : D.Pending frames v) (rely : D.rely (entries frames) v v') :
    D.Pending frames v' := by
  induction frames with
  | nil => trivial
  | cons frame frames ih =>
      obtain ⟨goesOn, rest⟩ := pending
      exact ⟨fun u inv later => goesOn u inv (D.trans rely later), ih rest (D.pop rely)⟩

/-- While control is outside, every entry point in progress waits. -/
theorem Safe.waits (safe : D.Safe frames v) (waits : Waits frames) :
    D.inv (entries frames) v ∧ D.Pending frames v := by
  match frames, waits with
  | [], _ => exact ⟨safe, trivial⟩
  | ⟨k, .call c next⟩ :: frames, _ =>
      obtain ⟨⟨inv, goesOn⟩, pending⟩ := safe
      exact ⟨inv, fun v' inv' rely => ⟨inv', fun u invU later =>
        goesOn u invU (D.trans rely later)⟩, pending⟩

theorem Safe.of_pending (inv : D.inv (entries frames) v) (pending : D.Pending frames v) :
    D.Safe frames v := by
  cases frames with
  | nil => exact inv
  | cons frame frames => exact ⟨pending.1 v inv D.refl, pending.2⟩

theorem Safe.step (guards : D.Guards program allowed) (step : SmallStep program allowed c c')
    (safe : D.Safe c.frames c.world.inside) :
    D.Safe c'.frames c'.world.inside ∧ D.rely [] c.world.inside c'.world.inside := by
  cases step with
  | outside waits e => exact ⟨safe, D.refl⟩
  | enter waits permitted =>
      obtain ⟨inv, pending⟩ := safe.waits waits
      exact ⟨⟨guards _ _ _ permitted inv, pending⟩, D.refl⟩
  | get => exact ⟨safe, D.refl⟩
  | put =>
      obtain ⟨⟨rely, -, goesOn⟩, pending⟩ := safe
      exact ⟨⟨goesOn, pending.rely rely⟩, rely_nil rely⟩
  | emit =>
      obtain ⟨⟨rely, -, goesOn⟩, pending⟩ := safe
      exact ⟨⟨goesOn, pending.rely rely⟩, rely_nil rely⟩
  | answer =>
      obtain ⟨⟨inv, goesOn⟩, pending⟩ := safe
      exact ⟨⟨goesOn _ inv D.refl, pending⟩, D.refl⟩
  | finish =>
      obtain ⟨inv, pending⟩ := safe
      exact ⟨.of_pending inv pending, D.refl⟩

theorem Safe.steps (guards : D.Guards program allowed) (steps : SmallSteps program allowed c c')
    (safe : D.Safe c.frames c.world.inside) :
    D.Safe c'.frames c'.world.inside ∧ D.rely [] c.world.inside c'.world.inside := by
  induction steps with
  | refl => exact ⟨safe, D.refl⟩
  | tail _ step ih =>
      obtain ⟨safeNow, rely⟩ := ih.1.step guards step
      exact ⟨safeNow, D.trans ih.2 rely⟩

/-- A step that is taken while an entry point is innermost. -/
theorem Safe.own {frame : Frame σ ε γ ω κ} (step : SmallStep program allowed c c')
    (innermost : c.frames.head? = some frame) (safe : D.Safe c.frames c.world.inside) :
    D.own frame.entry c.world.inside c'.world.inside := by
  cases step with
  | outside waits e => exact D.own_refl
  | enter waits permitted => exact D.own_refl
  | put =>
      cases innermost
      exact safe.1.2.1
  | emit =>
      cases innermost
      exact safe.1.2.1
  | get | answer | finish => exact D.own_refl

end Safe

end Discipline

end CasperContracts.Basis
