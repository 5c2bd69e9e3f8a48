import CasperContracts.Basis.Resumption

/-!
# Call-backs against a ledger

In `Nested` a callee that calls back may leave the outside in any state.  Here
the outside is a ledger with laws of its own: it drifts and it answers
requests, and a hostile callee may besides run entry points before and after it
answers, to any depth.  `Custody` is what the entry points have to establish
for a property of state, ledger and log to hold after every deploy.
-/

namespace CasperContracts.Basis

open Prog

/-! ## Responses -/

section Responses

variable {σ ε γ ω κ E : Type}
variable (program : κ → Prog σ ε γ ω Unit)
variable (answer : γ → E → E → Prop) (drift : E → E → Prop) (hostile : γ → Prop)
variable (allowed : List κ → World σ E ω → κ → Prop)

/-- One turn of a callee that has control: the ledger drifts, or an entry point
runs to its end. -/
inductive Turn (respond : List κ → γ → World σ E ω → World σ E ω → Prop)
    (stack : List κ) : World σ E ω → World σ E ω → Prop where
  | drift {w : World σ E ω} {e : E} (drifts : drift w.outside e) :
      Turn respond stack w { w with outside := e }
  | entry {w w' : World σ E ω} (k : κ) (permitted : allowed stack w k)
      (run : Runs (respond (k :: stack)) (program k) w () w') :
      Turn respond stack w w'

/-- Responses nested to depth `n` below the open entry points `stack`.  Only a
hostile callee has turns, before and after the ledger's answer. -/
def Embedded : Nat → List κ → γ → World σ E ω → World σ E ω → Prop
  | 0, _ => Quiet answer
  | n + 1, stack => fun c w w' =>
      Quiet answer c w w' ∨
        hostile c ∧ ∃ u v,
          Relation.ReflTransGen (Turn program drift allowed (Embedded n) stack) w u ∧
          Quiet answer c u v ∧
          Relation.ReflTransGen (Turn program drift allowed (Embedded n) stack) v w'

variable {program answer drift hostile allowed}

private theorem turns_of_execEntries
    [∀ stack w k, Decidable (allowed stack w k)]
    {respond : List κ → γ → World σ E ω → Option (World σ E ω)}
    {allows : List κ → γ → World σ E ω → World σ E ω → Prop}
    (sound : ∀ stack c w w', respond stack c w = some w' → allows stack c w w')
    {stack ks : List κ} {w w' : World σ E ω}
    (success : execEntries program allowed respond stack ks w = some w') :
    Relation.ReflTransGen (Turn program drift allowed allows stack) w w' := by
  induction ks generalizing w with
  | nil =>
      simp only [execEntries, Option.some.injEq] at success
      exact success ▸ .refl
  | cons k ks ih =>
      simp only [execEntries] at success
      split at success
      · rename_i permitted
        obtain ⟨⟨⟨⟩, u⟩, entered, rest⟩ := Option.bind_eq_some_iff.mp success
        exact .head (.entry k permitted (runs_of_exec (sound (k :: stack)) entered)) (ih rest)
      · cases success

/-- Callees that run scripted entry points before they answer are embedded. -/
theorem embedded_of_execNested {answer : γ → E → Except ε E}
    [∀ stack w k, Decidable (allowed stack w k)] {script : List κ → γ → List κ}
    (scripted : ∀ stack c, script stack c ≠ [] → hostile c)
    {n : Nat} {stack : List κ} {c : γ} {w w' : World σ E ω}
    (success : execNested program answer allowed script n stack c w = some w') :
    Embedded program (fun c e e' => answer c e = .ok e') drift hostile allowed n stack c
      w w' := by
  induction n generalizing stack c w w' with
  | zero => exact quiet_of_quietly success
  | succ n ih =>
      simp only [execNested] at success
      obtain ⟨u, entered, answered⟩ := Option.bind_eq_some_iff.mp success
      have isAnswer := quiet_of_quietly answered
      by_cases silent : script stack c = []
      · rw [silent] at entered
        simp only [execEntries, Option.some.injEq] at entered
        subst entered
        exact .inl isAnswer
      · have sound : ∀ stack c w w',
            execNested program answer allowed script n stack c w = some w' →
            Embedded program (fun c e e' => answer c e = .ok e') drift hostile allowed n stack
              c w w' :=
          fun _ _ _ _ => ih
        exact .inr ⟨scripted stack c silent, u, w', turns_of_execEntries sound entered,
          isAnswer, .refl⟩

end Responses

/-! ## The rule -/

section Rule

variable {σ ε γ ω κ E β : Type}
variable (represents : σ → β → Prop)
variable (Good : β → E → List ω → Prop)
variable (Between : List κ → β → List ω → β → List ω → Prop)

/-- Below the open entry points `stack`, a good state stays good and develops as
`Between` says. -/
def Held (stack : List κ) (w w' : World σ E ω) : Prop :=
  ∀ b, represents w.storage b → Good b w.outside w.log →
    ∃ b', represents w'.storage b' ∧ Good b' w'.outside w'.log ∧
      Between stack b w.log b' w'.log

/-- What an entry point can rely on when a request returns: nothing but the
answer has happened, or the callee is hostile and the state is still good. -/
def Reliable (answer : γ → E → E → Prop) (hostile : γ → Prop) (stack : List κ) (c : γ)
    (w w' : World σ E ω) : Prop :=
  Quiet answer c w w' ∨ hostile c ∧ Held represents Good Between stack w w'

/-- What the ledger has to keep while the state stays as it is. -/
structure Tolerates (answer : γ → E → E → Prop) (drift : E → E → Prop)
    (hostile : γ → Prop) : Prop where
  drifting : ∀ {b e e' log}, Good b e log → drift e e' → Good b e' log
  answered : ∀ {c b e e' log}, hostile c → Good b e log → answer c e e' → Good b e' log

structure Custody (program : κ → Prog σ ε γ ω Unit) (answer : γ → E → E → Prop)
    (drift : E → E → Prop) (hostile : γ → Prop)
    (allowed : List κ → World σ E ω → κ → Prop) : Prop where
  ledger : Tolerates Good answer drift hostile
  refl : ∀ {stack b log}, Between stack b log b log
  trans : ∀ {stack b log b' log' b'' log''}, Between stack b log b' log' →
    Between stack b' log' b'' log'' → Between stack b log b'' log''
  entry : ∀ {stack : List κ} {k : κ} {u v : World σ E ω} {respond}, allowed stack u k →
    (∀ c w w', respond c w w' →
      Reliable represents Good Between answer hostile (k :: stack) c w w') →
    Runs respond (program k) u () v → Held represents Good Between stack u v

variable {represents Good Between}
variable {program : κ → Prog σ ε γ ω Unit} {answer : γ → E → E → Prop}
variable {drift : E → E → Prop} {hostile : γ → Prop}
variable {allowed : List κ → World σ E ω → κ → Prop}
variable {stack : List κ} {u w w' : World σ E ω} {c : γ} {depth : Nat}

private theorem Custody.held_refl
    (custody : Custody represents Good Between program answer drift hostile allowed) :
    Held represents Good Between stack w w :=
  fun b stands good => ⟨b, stands, good, custody.refl⟩

private theorem Custody.held_trans
    (custody : Custody represents Good Between program answer drift hostile allowed)
    (first : Held represents Good Between stack u w)
    (second : Held represents Good Between stack w w') :
    Held represents Good Between stack u w' := by
  intro b stands good
  obtain ⟨b', stands', good', between⟩ := first b stands good
  obtain ⟨b'', stands'', good'', between'⟩ := second b' stands' good'
  exact ⟨b'', stands'', good'', custody.trans between between'⟩

/-- The turns of a callee, when the requests they lead to can be relied on. -/
private theorem Custody.turns
    (custody : Custody represents Good Between program answer drift hostile allowed)
    {respond : List κ → γ → World σ E ω → World σ E ω → Prop}
    (answers : ∀ k c w w', respond (k :: stack) c w w' →
      Reliable represents Good Between answer hostile (k :: stack) c w w')
    (turns : Relation.ReflTransGen (Turn program drift allowed respond stack) w w') :
    Held represents Good Between stack w w' := by
  induction turns with
  | refl => exact custody.held_refl
  | tail _ turn soFar =>
      apply custody.held_trans soFar
      cases turn with
      | drift drifts =>
          exact fun b stands good => ⟨b, stands, custody.ledger.drifting good drifts, custody.refl⟩
      | entry k permitted run => exact custody.entry permitted (answers k) run

theorem Custody.response
    (custody : Custody represents Good Between program answer drift hostile allowed)
    (response : Embedded program answer drift hostile allowed depth stack c w w') :
    Reliable represents Good Between answer hostile stack c w w' := by
  induction depth generalizing stack c w w' with
  | zero => exact .inl response
  | succ depth ih =>
      rcases response with quiet | ⟨isHostile, u, v, before, answered, after⟩
      · exact .inl quiet
      · have answers : ∀ k c w w',
            Embedded program answer drift hostile allowed depth (k :: stack) c w w' →
            Reliable represents Good Between answer hostile (k :: stack) c w w' :=
          fun _ _ _ _ => ih
        have settled : Held represents Good Between stack u v := by
          obtain ⟨e, isAnswer, rfl⟩ := answered
          exact fun b stands good =>
            ⟨b, stands, custody.ledger.answered isHostile good isAnswer, custody.refl⟩
        have answeredThen := custody.held_trans (custody.turns answers before) settled
        exact .inr ⟨isHostile, custody.held_trans answeredThen (custody.turns answers after)⟩

theorem Custody.call
    (custody : Custody represents Good Between program answer drift hostile allowed) {k : κ}
    (permitted : allowed stack w k)
    (run : Runs (Embedded program answer drift hostile allowed depth (k :: stack))
      (program k) w () w') :
    Held represents Good Between stack w w' :=
  custody.entry permitted (fun _ _ _ => custody.response) run

end Rule

/-! ## Deploys -/

section Deploys

variable {χ κ τ σ ε γ ω E β : Type} [LE τ]
variable (program : χ → κ → Prog σ ε γ ω Unit) (time : χ → τ)
variable (answer : γ → E → E → Prop) (drift : E → E → Prop) (hostile : γ → Prop)
variable (allowed : χ → List κ → World σ E ω → κ → Prop)

/-- The histories in which every call of a deploy runs among callees that may call
back within the same deploy. -/
inductive Deploys (start : τ) (first : World σ E ω) : τ → World σ E ω → Prop where
  | start : Deploys start first start first
  | wait {now later : τ} {w : World σ E ω} (deploys : Deploys start first now w)
      (le : now ≤ later) : Deploys start first later w
  | drift {now : τ} {w : World σ E ω} {e : E} (deploys : Deploys start first now w)
      (drifts : drift w.outside e) : Deploys start first now { w with outside := e }
  | call {now : τ} {w w' : World σ E ω} {depth : Nat} (context : χ) (entry : κ)
      (deploys : Deploys start first now w) (le : now ≤ time context)
      (permitted : allowed context [] w entry)
      (success : Runs (Embedded (program context) answer drift hostile (allowed context)
        depth [entry]) (program context entry) w () w') :
      Deploys start first (time context) w'

variable {program time answer drift hostile allowed}
variable {represents : σ → β → Prop} {Good : β → E → List ω → Prop}
variable {Between : χ → List κ → β → List ω → β → List ω → Prop}
variable {start now : τ} {first w : World σ E ω}

theorem Deploys.held (ledger : Tolerates Good answer drift hostile)
    (custody : ∀ context, Custody represents Good (Between context) (program context) answer
      drift hostile (allowed context)) {b : β}
    (stands : represents first.storage b) (good : Good b first.outside first.log)
    (deploys : Deploys program time answer drift hostile allowed start first now w) :
    ∃ b', represents w.storage b' ∧ Good b' w.outside w.log := by
  induction deploys with
  | start => exact ⟨b, stands, good⟩
  | wait _ _ ih => exact ih
  | drift _ drifts ih =>
      obtain ⟨b', stands', good'⟩ := ih
      exact ⟨b', stands', ledger.drifting good' drifts⟩
  | call context entry _ _ permitted success ih =>
      obtain ⟨b', stands', good'⟩ := ih
      obtain ⟨b'', stands'', good'', -⟩ :=
        (custody context).call permitted success b' stands' good'
      exact ⟨b'', stands'', good''⟩

/-! ## Computed deploys -/

section Replay

variable (program time)
variable (allowed) (compute : γ → E → Except ε E)
variable [∀ a b : τ, Decidable (a ≤ b)]
variable [∀ context stack w k, Decidable (allowed context stack w k)]
variable (script : List κ → γ → List κ)

/-- Run calls one after the other while the callees call back as scripted; `none` when
a call comes too early, is not allowed or fails. -/
def replayDeploys : List (χ × κ) → τ → World σ E ω → Option (World σ E ω)
  | [], _, w => some w
  | (context, entry) :: rest, now, w =>
      if now ≤ time context ∧ allowed context [] w entry then
        ((program context entry).exec
          (execNested (program context) compute (allowed context) script 2 [entry])
          w).bind fun result => replayDeploys rest (time context) result.2
      else
        none

variable {program time allowed compute script}

theorem Deploys.replayed (scripted : ∀ stack c, script stack c ≠ [] → hostile c)
    {calls : List (χ × κ)} {w' : World σ E ω}
    (deploys : Deploys program time (fun c e e' => compute c e = .ok e') drift hostile allowed
      start first now w)
    (success : replayDeploys program time allowed compute script calls now w = some w') :
    ∃ later, Deploys program time (fun c e e' => compute c e = .ok e') drift hostile allowed
      start first later w' := by
  induction calls generalizing now w with
  | nil =>
      simp only [replayDeploys, Option.some.injEq] at success
      exact ⟨now, success ▸ deploys⟩
  | cons head rest ih =>
      obtain ⟨context, entry⟩ := head
      simp only [replayDeploys] at success
      split at success
      · rename_i possible
        obtain ⟨⟨⟨⟩, u⟩, evaluated, later⟩ := Option.bind_eq_some_iff.mp success
        have called : Runs (Embedded (program context) (fun c e e' => compute c e = .ok e')
            drift hostile (allowed context) 2 [entry]) (program context entry) w () u :=
          runs_of_exec (fun _ _ _ => embedded_of_execNested scripted) evaluated
        exact ih (deploys.call context entry possible.1 possible.2 called) later
      · cases success

end Replay

end Deploys

end CasperContracts.Basis
