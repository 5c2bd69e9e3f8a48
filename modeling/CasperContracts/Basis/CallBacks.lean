import CasperContracts.Basis.Resumption

/-!
# Invariants among callees that call back

A storage stands for an abstract state once it has been set up.  `Kept` says
what becomes of that state, and of a property of it, between two worlds, and
`Guarantee` what every entry point has to establish for it under the
assumption that the requests it issues do.  The rule of `Nested` then gives it
of every response and of every entry point, to any depth.
-/

namespace CasperContracts.Basis

open Prog

section Rule

variable {σ ε γ ω E κ β : Type}
variable (fresh : σ → Prop) (represents : σ → β → Prop)
variable (Good : β → List ω → Prop)
variable (Between : List κ → β → List ω → β → List ω → Prop)

/-- Below the open entry points `stack`, a good state stays good and develops as
`Between` says. -/
def Kept (stack : List κ) (w w' : World σ E ω) : Prop :=
  ∀ b, represents w.storage b → Good b w.log →
    ∃ b', represents w'.storage b' ∧ Good b' w'.log ∧ Between stack b w.log b' w'.log

/-- The storage is not set up and nothing has happened, or its state is good. -/
def Sane (w : World σ E ω) : Prop :=
  (fresh w.storage ∧ w.log = []) ∨ ∃ b, represents w.storage b ∧ Good b w.log

/-- What the entry points have to establish. -/
structure Guarantee (E : Type) (program : κ → Prog σ ε γ ω Unit)
    (allowed : List κ → World σ E ω → κ → Prop) : Prop where
  refl : ∀ {stack b log}, Between stack b log b log
  trans : ∀ {stack b log b' log' b'' log''}, Between stack b log b' log' →
    Between stack b' log' b'' log'' → Between stack b log b'' log''
  setUp : ∀ {k : κ} {u v : World σ E ω} {respond}, fresh u.storage → u.log = [] →
    (∀ c w w', respond c w w' → Sane fresh represents Good w →
      Sane fresh represents Good w') →
    Runs respond (program k) u () v → Sane fresh represents Good v
  entry : ∀ {stack : List κ} {k : κ} {u v : World σ E ω} {respond}, allowed stack u k →
    (∀ c w w', respond c w w' → Kept represents Good Between (k :: stack) w w') →
    Runs respond (program k) u () v → Kept represents Good Between stack u v

variable {fresh represents Good Between}
variable {program : κ → Prog σ ε γ ω Unit} {answer : γ → E → E → Prop}
variable {hostile : γ → Prop} {allowed : List κ → World σ E ω → κ → Prop}
variable {stack : List κ} {u w w' : World σ E ω}

theorem Kept.trans
    (trans : ∀ {stack b log b' log' b'' log''}, Between stack b log b' log' →
      Between stack b' log' b'' log'' → Between stack b log b'' log'')
    (first : Kept represents Good Between stack u w)
    (second : Kept represents Good Between stack w w') :
    Kept represents Good Between stack u w' := by
  intro b stands good
  obtain ⟨b', stands', good', between⟩ := first b stands good
  obtain ⟨b'', stands'', good'', between'⟩ := second b' stands' good'
  exact ⟨b'', stands'', good'', trans between between'⟩

theorem Kept.refl (refl : ∀ {stack b log}, Between stack b log b log) :
    Kept represents Good Between stack w w :=
  fun b stands good => ⟨b, stands, good, refl⟩

theorem Kept.of_chain {respond : γ → World σ E ω → World σ E ω → Prop}
    (refl : ∀ {stack b log}, Between stack b log b log)
    (trans : ∀ {stack b log b' log' b'' log''}, Between stack b log b' log' →
      Between stack b' log' b'' log'' → Between stack b log b'' log'')
    (answers : ∀ c v v', respond c v v' → Kept represents Good Between stack v v')
    {cs : List γ} (chain : Chain respond cs w w') :
    Kept represents Good Between stack w w' :=
  chain.rel (fun _ => .refl refl) (fun _ _ _ => .trans trans) answers

/-- An entry point whose requests keep a sane storage sane keeps it, too. -/
theorem Guarantee.sane
    (guarantee : Guarantee fresh represents Good Between E program allowed) {k : κ}
    {respond : γ → World σ E ω → World σ E ω → Prop}
    (answers : ∀ c v v', respond c v v' → Sane fresh represents Good v →
      Sane fresh represents Good v')
    (kept : Kept represents Good Between stack w w')
    (run : Runs respond (program k) w () w') (sane : Sane fresh represents Good w) :
    Sane fresh represents Good w' := by
  rcases sane with ⟨isFresh, empty⟩ | ⟨b, stands, good⟩
  · exact guarantee.setUp isFresh empty answers run
  · obtain ⟨b', stands', good', -⟩ := kept b stands good
    exact .inr ⟨b', stands', good'⟩

theorem Guarantee.response
    (guarantee : Guarantee fresh represents Good Between E program allowed) {depth : Nat}
    {c : γ} (response : Nested program answer hostile allowed depth stack c w w') :
    Kept represents Good Between stack w w' ∧
      (Sane fresh represents Good w → Sane fresh represents Good w') := by
  refine nested_rule (fun stack w w' => Kept represents Good Between stack w w' ∧
    (Sane fresh represents Good w → Sane fresh represents Good w')) ?_ ?_ ?_ ?_ depth
    stack response
  · exact fun stack w => ⟨.refl guarantee.refl, id⟩
  · exact fun stack u v w first second =>
      ⟨.trans guarantee.trans first.1 second.1, second.2 ∘ first.2⟩
  · exact fun stack w e => ⟨fun b stands good => ⟨b, stands, good, guarantee.refl⟩, id⟩
  · intro stack k u v respond permitted answers run
    have kept : Kept represents Good Between stack u v :=
      guarantee.entry permitted (fun c v v' answered => (answers c v v' answered).1) run
    exact ⟨kept,
      guarantee.sane (fun c v v' answered => (answers c v v' answered).2) kept run⟩

theorem Guarantee.call
    (guarantee : Guarantee fresh represents Good Between E program allowed) {depth : Nat}
    {k : κ} (permitted : allowed stack w k)
    (run : Runs (Nested program answer hostile allowed depth (k :: stack)) (program k)
      w () w') :
    Kept represents Good Between stack w w' ∧
      (Sane fresh represents Good w → Sane fresh represents Good w') := by
  have kept : Kept represents Good Between stack w w' :=
    guarantee.entry permitted (fun _ _ _ answered => (guarantee.response answered).1) run
  exact ⟨kept,
    guarantee.sane (fun _ _ _ answered => (guarantee.response answered).2) kept run⟩

end Rule

end CasperContracts.Basis
