import CasperContracts.Basis.Resumption

/-!
# Histories of a program with entry points

A `Setting` says how entry points are run, when, and among which callees.  Its
histories let time pass, the outside drift and entry points run to their end,
and keep the list of what was run.  A `Model` is an abstract state that every
entry point is known to change in one of a few ways; an invariant of these
changes holds at the end of every history.
-/

namespace CasperContracts.Basis

open Prog

/-- How entry points `κ` are run in a context `χ`, which has a time, and what
surrounds them. -/
structure Setting (χ κ τ σ ε γ ω E : Type) where
  program : χ → κ → Prog σ ε γ ω Unit
  time : χ → τ
  answer : γ → E → E → Prop
  drift : E → E → Prop
  permitted : χ → κ → σ → Prop

/-- An entry point that was run, with the worlds before and after it. -/
structure Step (χ κ σ E ω : Type) where
  context : χ
  entry : κ
  before : World σ E ω
  after : World σ E ω

section Histories

variable {χ κ τ σ ε γ ω E : Type} [LE τ]

/-- The histories from a time and a world to others, with what was run. -/
inductive History (setting : Setting χ κ τ σ ε γ ω E) (start : τ) (first : World σ E ω) :
    List (Step χ κ σ E ω) → τ → World σ E ω → Prop where
  | start : History setting start first [] start first
  | wait {steps : List (Step χ κ σ E ω)} {now later : τ} {w : World σ E ω}
      (history : History setting start first steps now w) (le : now ≤ later) :
      History setting start first steps later w
  | drift {steps : List (Step χ κ σ E ω)} {now : τ} {w : World σ E ω} {e : E}
      (history : History setting start first steps now w)
      (drifts : setting.drift w.outside e) :
      History setting start first steps now { w with outside := e }
  | call {steps : List (Step χ κ σ E ω)} {now : τ} {w w' : World σ E ω}
      (context : χ) (entry : κ)
      (history : History setting start first steps now w)
      (le : now ≤ setting.time context)
      (allowed : setting.permitted context entry w.storage)
      (success : Runs (Quiet setting.answer) (setting.program context entry) w () w') :
      History setting start first (steps ++ [{ context, entry, before := w, after := w' }])
        (setting.time context) w'

variable {setting : Setting χ κ τ σ ε γ ω E} {start now later : τ}
  {first w w' : World σ E ω} {steps more : List (Step χ κ σ E ω)}

theorem History.trans (history : History setting start first steps now w)
    (onward : History setting now w more later w') :
    History setting start first (steps ++ more) later w' := by
  induction onward with
  | start => simpa using history
  | wait _ le ih => exact ih.wait le
  | drift _ drifts ih => exact ih.drift drifts
  | call context entry _ le allowed success ih =>
      rw [← List.append_assoc]
      exact ih.call context entry le allowed success

/-! ## Models -/

/-- An abstract state `β` of the storage once it has been set up, and the ways in
which an entry point changes it. -/
structure Model (setting : Setting χ κ τ σ ε γ ω E) (β : Type) where
  fresh : σ → Prop
  initial : β → Prop
  represents : σ → β → Prop
  Change : χ → β → κ → List γ → List ω → β → Prop
  setUp : ∀ {context entry} {w w' : World σ E ω}, fresh w.storage →
    Runs (Quiet setting.answer) (setting.program context entry) w () w' →
    w'.log = w.log ∧ (fresh w'.storage ∨ ∃ b, initial b ∧ represents w'.storage b)
  change : ∀ {context entry b} {w w' : World σ E ω}, represents w.storage b →
    Runs (Quiet setting.answer) (setting.program context entry) w () w' →
    ∃ b' requests events, Change context b entry requests events b' ∧
      represents w'.storage b' ∧ w'.log = w.log ++ events ∧
      Answers setting.answer requests w.outside w'.outside

variable {β : Type} (model : Model setting β)

/-- A property of time, abstract state, outside and log that a history keeps. -/
structure Model.Invariant (Inv : τ → β → E → List ω → Prop) : Prop where
  wait : ∀ {now later b e log}, Inv now b e log → now ≤ later → Inv later b e log
  drift : ∀ {now b e e' log}, Inv now b e log → setting.drift e e' → Inv now b e' log
  change : ∀ {now context entry requests events b b' e e' log storage},
    Inv now b e log → now ≤ setting.time context → model.represents storage b →
    setting.permitted context entry storage →
    model.Change context b entry requests events b' →
    Answers setting.answer requests e e' →
    Inv (setting.time context) b' e' (log ++ events)

/-- A property that also speaks of the steps so far. -/
structure Model.Traced
    (Inv : List (Step χ κ σ E ω) → τ → β → E → List ω → Prop) : Prop where
  wait : ∀ {steps now later b e log}, Inv steps now b e log → now ≤ later →
    Inv steps later b e log
  drift : ∀ {steps now b e e' log}, Inv steps now b e log → setting.drift e e' →
    Inv steps now b e' log
  change : ∀ {steps now context entry requests events b b'} {w w' : World σ E ω},
    Inv steps now b w.outside w.log → now ≤ setting.time context →
    model.represents w.storage b → setting.permitted context entry w.storage →
    Runs (Quiet setting.answer) (setting.program context entry) w () w' →
    model.Change context b entry requests events b' →
    model.represents w'.storage b' → w'.log = w.log ++ events →
    Answers setting.answer requests w.outside w'.outside →
    Inv (steps ++ [{ context, entry, before := w, after := w' }]) (setting.time context) b'
      w'.outside w'.log

variable {model}

theorem Model.Invariant.traced {Inv : τ → β → E → List ω → Prop}
    (invariant : model.Invariant Inv) : model.Traced fun _ => Inv where
  wait := invariant.wait
  drift := invariant.drift
  change := by
    intro steps now context entry requests events b b' w w' holds le stands allowed _ change
      stands' log answered
    rw [log]
    exact invariant.change holds le stands allowed change answered

/-- The induction rule for histories from a storage that has been set up. -/
theorem History.represented {Inv : List (Step χ κ σ E ω) → τ → β → E → List ω → Prop}
    (invariant : model.Traced Inv) {b : β} (stands : model.represents first.storage b)
    (initially : Inv [] start b first.outside first.log)
    (history : History setting start first steps now w) :
    ∃ b', model.represents w.storage b' ∧ Inv steps now b' w.outside w.log := by
  induction history with
  | start => exact ⟨b, stands, initially⟩
  | wait _ le ih =>
      obtain ⟨b', stands', holds⟩ := ih
      exact ⟨b', stands', invariant.wait holds le⟩
  | drift _ drifts ih =>
      obtain ⟨b', stands', holds⟩ := ih
      exact ⟨b', stands', invariant.drift holds drifts⟩
  | call context entry _ le allowed success ih =>
      obtain ⟨b', stands', holds⟩ := ih
      obtain ⟨b'', requests, events, change, stands'', log, answered⟩ :=
        model.change stands' success
      exact ⟨b'', stands'',
        invariant.change holds le stands' allowed success change stands'' log answered⟩

/-- The induction rule for histories from a fresh storage and an empty log: it is
still fresh, or the invariant holds. -/
theorem History.invariant {Inv : τ → β → E → List ω → Prop}
    (invariant : model.Invariant Inv)
    (isFresh : model.fresh first.storage) (empty : first.log = [])
    (initially : ∀ now b e, model.initial b → Inv now b e [])
    (history : History setting start first steps now w) :
    (model.fresh w.storage ∧ w.log = []) ∨
      ∃ b, model.represents w.storage b ∧ Inv now b w.outside w.log := by
  induction history with
  | start => exact .inl ⟨isFresh, empty⟩
  | wait _ le ih =>
      rcases ih with still | ⟨b, stands, holds⟩
      · exact .inl still
      · exact .inr ⟨b, stands, invariant.wait holds le⟩
  | drift _ drifts ih =>
      rcases ih with still | ⟨b, stands, holds⟩
      · exact .inl still
      · exact .inr ⟨b, stands, invariant.drift holds drifts⟩
  | call context entry _ le allowed success ih =>
      rcases ih with ⟨still, noLog⟩ | ⟨b, stands, holds⟩
      · obtain ⟨sameLog, stillFresh | ⟨b, isInitial, stands⟩⟩ := model.setUp still success
        · exact .inl ⟨stillFresh, sameLog.trans noLog⟩
        · refine .inr ⟨b, stands, ?_⟩
          rw [sameLog, noLog]
          exact initially _ _ _ isInitial
      · obtain ⟨b', requests, events, change, stands', log, answered⟩ :=
          model.change stands success
        refine .inr ⟨b', stands', ?_⟩
        rw [log]
        exact invariant.change holds le stands allowed change answered

/-! ## Computed histories -/

section Replay

variable (setting : Setting χ κ τ σ ε γ ω E) (answer : γ → E → Except ε E)
variable [∀ a b : τ, Decidable (a ≤ b)]
variable [∀ context entry storage, Decidable (setting.permitted context entry storage)]

/-- Run entry points one after the other among callees that compute their answers;
`none` when one comes too early, is not permitted or fails. -/
def replaySteps :
    List (χ × κ) → τ → World σ E ω → Option (List (Step χ κ σ E ω) × World σ E ω)
  | [], _, w => some ([], w)
  | (context, entry) :: rest, now, w =>
      if now ≤ setting.time context ∧ setting.permitted context entry w.storage then
        ((setting.program context entry).exec (quietly answer) w).bind fun result =>
          (replaySteps rest (setting.time context) result.2).map fun (steps, last) =>
            ({ context, entry, before := w, after := result.2 } :: steps, last)
      else
        none

variable {setting answer}

theorem History.replayed
    (sound : ∀ c e e', answer c e = .ok e' → setting.answer c e e')
    {calls : List (χ × κ)} (history : History setting start first steps now w)
    (success : replaySteps setting answer calls now w = some (more, w')) :
    ∃ later, History setting start first (steps ++ more) later w' := by
  induction calls generalizing steps now w more with
  | nil =>
      simp only [replaySteps, Option.some.injEq, Prod.mk.injEq] at success
      obtain ⟨rfl, rfl⟩ := success
      exact ⟨now, by simpa using history⟩
  | cons head rest ih =>
      obtain ⟨context, entry⟩ := head
      simp only [replaySteps] at success
      split at success
      · rename_i possible
        obtain ⟨⟨⟨⟩, u⟩, evaluated, later⟩ := Option.bind_eq_some_iff.mp success
        obtain ⟨⟨steps', last⟩, replays, same⟩ := Option.map_eq_some_iff.mp later
        obtain ⟨rfl, rfl⟩ := Prod.mk.inj same
        have quiet : ∀ (c : γ) (v v' : World σ E ω), quietly answer c v = some v' →
            Quiet setting.answer c v v' := by
          intro c v v' computed
          obtain ⟨e, answered, isNext⟩ := quiet_of_quietly computed
          exact ⟨e, sound c v.outside e answered, isNext⟩
        have called := history.call context entry possible.1 possible.2
          (runs_of_exec quiet evaluated)
        obtain ⟨time, onward⟩ := ih called replays
        refine ⟨time, ?_⟩
        rw [List.append_assoc] at onward
        exact onward
      · cases success

end Replay

end Histories

end CasperContracts.Basis
