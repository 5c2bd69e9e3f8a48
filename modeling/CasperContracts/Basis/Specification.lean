import CasperContracts.Basis.History

/-!
# Contracts against a specification

Among callees that keep to their own side a program is a function of its storage:
`outcome` lists what it asks for and what it records, and how it ends.

A specification is an executable step on an abstract state that fails or says what
is asked for, what is recorded and what comes next.  A contract that `Meets` it in
every related state does in a whole history what the specification does, and in the
state reached it fails exactly when and how the specification does.
-/

namespace CasperContracts.Basis

open Prog

variable {χ κ ι σ ε γ ω E α β δ : Type}

/-! ## Outcomes -/

/-- What a program asks for and records, and how it ends. -/
structure Outcome (σ ε γ ω α : Type) where
  requests : List γ
  events : List ω
  result : Except ε (α × σ)

namespace Prog

/-- What a program does from a storage that no callee changes. -/
def outcome : Prog σ ε γ ω α → σ → Outcome σ ε γ ω α
  | .pure value, s => ⟨[], [], .ok (value, s)⟩
  | .fail error, _ => ⟨[], [], .error error⟩
  | .get next, s => (next s).outcome s
  | .put storage next, _ => next.outcome storage
  | .emit event next, s =>
      let rest := next.outcome s
      { rest with events := event :: rest.events }
  | .call c next, s =>
      let rest := next.outcome s
      { rest with requests := c :: rest.requests }

section Steps

variable {s s' : σ} {f : α → Prog σ ε γ ω β} {rest : Unit → Prog σ ε γ ω β}
  {g : σ → Except ε σ} {ends : Outcome σ ε γ ω β}

theorem outcome_reads_bind (g : σ → Except ε α) :
    (Prog.reads g >>= f).outcome s = (Prog.ofExcept (g s) >>= f).outcome s := rfl

theorem outcome_updates (written : g s = .ok s') :
    (Prog.updates g : Prog σ ε γ ω Unit).outcome s = ⟨[], [], .ok ((), s')⟩ := by
  simp only [Prog.updates, outcome, written]

theorem outcome_updates_bind (written : g s = .ok s')
    (later : (rest ()).outcome s' = ends) : (Prog.updates g >>= rest).outcome s = ends := by
  change (Prog.bind (Prog.updates g) rest).outcome s = _
  simp only [Prog.updates, Prog.bind, outcome, written]
  exact later

theorem outcome_request_bind {c : γ} {requests : List γ} {events : List ω}
    {result : Except ε (β × σ)} (later : (rest ()).outcome s = ⟨requests, events, result⟩) :
    (Prog.request c >>= rest).outcome s = ⟨c :: requests, events, result⟩ := by
  change Outcome.mk (c :: ((rest ()).outcome s).requests) ((rest ()).outcome s).events
    ((rest ()).outcome s).result = _
  rw [later]

end Steps

theorem bind_bind (p : Prog σ ε γ ω α) (f : α → Prog σ ε γ ω β) (g : β → Prog σ ε γ ω δ) :
    p >>= f >>= g = p >>= fun a => f a >>= g := by
  change (p.bind f).bind g = p.bind fun a => (f a).bind g
  induction p with
  | pure value => rfl
  | fail error => rfl
  | get next ih => exact congrArg Prog.get (funext ih)
  | put storage next ih => exact congrArg (Prog.put storage) ih
  | emit event next ih => exact congrArg (Prog.emit event) ih
  | call c next ih => exact congrArg (Prog.call c) ih

section Adequacy

variable {answer : γ → E → E → Prop} {p : Prog σ ε γ ω α}

theorem runs_iff_outcome {w w' : World σ E ω} {a : α} :
    Runs (Quiet answer) p w a w' ↔
      (p.outcome w.storage).result = .ok (a, w'.storage) ∧
        Answers answer (p.outcome w.storage).requests w.outside w'.outside ∧
        w'.log = w.log ++ (p.outcome w.storage).events := by
  induction p generalizing w with
  | pure value =>
      obtain ⟨s, e, log⟩ := w
      obtain ⟨s', e', log'⟩ := w'
      simp only [Runs, outcome, Except.ok.injEq, Prod.mk.injEq, World.mk.injEq, answers_nil,
        List.append_nil]
      constructor
      · intro given
        obtain ⟨rfl, rfl, rfl, rfl⟩ := given
        exact ⟨⟨rfl, rfl⟩, rfl, rfl⟩
      · intro given
        obtain ⟨⟨rfl, rfl⟩, rfl, rfl⟩ := given
        exact ⟨rfl, rfl, rfl, rfl⟩
  | fail error => simp [Runs, outcome]
  | get next ih => exact ih w.storage
  | put storage next ih => exact ih
  | emit event next ih =>
      simp only [Runs, outcome, ih, List.append_assoc, List.singleton_append]
  | call c next ih =>
      simp only [Runs, outcome, ih]
      constructor
      · intro given
        obtain ⟨_, ⟨e, answered, rfl⟩, result, rest, log⟩ := given
        exact ⟨result, .cons answered rest, log⟩
      · intro given
        obtain ⟨result, answers, log⟩ := given
        cases answers with
        | @cons _ _ _ e _ answered rest =>
            exact ⟨{ w with outside := e }, ⟨e, answered, rfl⟩, result, rest, log⟩

theorem fails_iff_outcome {w : World σ E ω} {error : ε} :
    Fails (Quiet answer) p w error ↔
      (p.outcome w.storage).result = .error error ∧
        ∃ e, Answers answer (p.outcome w.storage).requests w.outside e := by
  induction p generalizing w with
  | pure value => simp [Fails, outcome]
  | fail error' =>
      simp only [Fails, outcome, Except.error.injEq, answers_nil, exists_eq, and_true]
  | get next ih => exact ih w.storage
  | put storage next ih => exact ih
  | emit event next ih => exact ih
  | call c next ih =>
      simp only [Fails, outcome, ih]
      constructor
      · intro given
        obtain ⟨_, ⟨e, answered, rfl⟩, result, e', rest⟩ := given
        exact ⟨result, e', .cons answered rest⟩
      · intro given
        obtain ⟨result, e', answers⟩ := given
        cases answers with
        | @cons _ _ _ e _ answered rest =>
            exact ⟨{ w with outside := e }, ⟨e, answered, rfl⟩, result, e', rest⟩

end Adequacy

end Prog

/-! ## Specifications -/

/-- What a specified step asks for and records, and the state it leads to. -/
structure Effect (γ ω β : Type) where
  requests : List γ
  events : List ω
  next : β

/-- A step that records some events before its own. -/
def recording (events : List ω) : Except ε (Effect γ ω β) → Except ε (Effect γ ω β)
  | .error error => .error error
  | .ok effect => .ok { effect with events := events ++ effect.events }

/-- An abstract contract: one executable step for each entry point. -/
abbrev Specification (χ κ β ε γ ω : Type) := χ → κ → β → Except ε (Effect γ ω β)

namespace Specification

def replay (spec : Specification χ κ β ε γ ω) :
    List (χ × κ) → β → Except ε (List ω × β)
  | [], b => .ok ([], b)
  | (context, entry) :: rest, b =>
      match spec context entry b with
      | .error error => .error error
      | .ok effect =>
          match replay spec rest effect.next with
          | .error error => .error error
          | .ok (events, last) => .ok (effect.events ++ events, last)

variable {spec : Specification χ κ β ε γ ω} {context : χ} {entry : κ}
  {calls : List (χ × κ)} {b last : β} {events : List ω} {effect : Effect γ ω β}

theorem replay_cons_eq_ok :
    spec.replay ((context, entry) :: calls) b = .ok (events, last) ↔
      ∃ effect later, spec context entry b = .ok effect ∧
        spec.replay calls effect.next = .ok (later, last) ∧ events = effect.events ++ later := by
  simp only [replay]
  cases spec context entry b with
  | error error => simp
  | ok effect =>
      cases replayed : spec.replay calls effect.next with
      | error error => simp [replayed]
      | ok result =>
          obtain ⟨later, last'⟩ := result
          simp only [replayed, Except.ok.injEq, Prod.mk.injEq]
          constructor
          · intro given
            obtain ⟨rfl, rfl⟩ := given
            exact ⟨effect, later, rfl, replayed, rfl⟩
          · intro given
            obtain ⟨_, _, rfl, same, rfl⟩ := given
            cases replayed.symm.trans same
            exact ⟨rfl, rfl⟩

theorem replay_append_eq_ok {more : List (χ × κ)} :
    spec.replay (calls ++ more) b = .ok (events, last) ↔
      ∃ earlier mid later, spec.replay calls b = .ok (earlier, mid) ∧
        spec.replay more mid = .ok (later, last) ∧ events = earlier ++ later := by
  induction calls generalizing b events with
  | nil =>
      constructor
      · intro replayed
        exact ⟨[], b, events, rfl, replayed, rfl⟩
      · intro given
        obtain ⟨_, _, _, ⟨⟩, replayed, rfl⟩ := given
        exact replayed
  | cons head rest ih =>
      obtain ⟨context, entry⟩ := head
      simp only [List.cons_append, replay_cons_eq_ok, ih]
      constructor
      · intro given
        obtain ⟨effect, _, isStep, ⟨earlier, mid, later, replayed, onward, rfl⟩, rfl⟩ := given
        exact ⟨_, mid, later, ⟨effect, earlier, isStep, replayed, rfl⟩, onward,
          (List.append_assoc _ _ _).symm⟩
      · intro given
        obtain ⟨_, mid, later, ⟨effect, earlier, isStep, replayed, rfl⟩, onward, rfl⟩ := given
        exact ⟨effect, _, isStep, ⟨earlier, mid, later, replayed, onward, rfl⟩,
          List.append_assoc _ _ _⟩

theorem replay_concat (replayed : spec.replay calls b = .ok (events, last))
    (next : spec context entry last = .ok effect) :
    spec.replay (calls ++ [(context, entry)]) b = .ok (events ++ effect.events, effect.next) :=
  replay_append_eq_ok.mpr ⟨events, last, effect.events, replayed,
    replay_cons_eq_ok.mpr ⟨effect, [], next, rfl, by simp⟩, rfl⟩

/-- Calls that can be made in the other order to the same effect. -/
def Commute (spec : Specification χ κ β ε γ ω) (one other : χ × κ) : Prop :=
  ∀ b first second, spec one.1 one.2 b = .ok first →
    spec other.1 other.2 first.next = .ok second →
    ∃ second' first', spec other.1 other.2 b = .ok second' ∧
      spec one.1 one.2 second'.next = .ok first' ∧ second'.events = second.events ∧
      first'.events = first.events ∧ first'.next = second.next

/-- Where calls commute pairwise their order does not matter. -/
theorem replay_perm {calls' : List (χ × κ)} (perm : calls.Perm calls')
    (commute : calls.Pairwise fun one other => spec.Commute one other ∧ spec.Commute other one)
    (replayed : spec.replay calls b = .ok (events, last)) :
    ∃ events', spec.replay calls' b = .ok (events', last) ∧ events.Perm events' := by
  induction perm generalizing b events with
  | nil => exact ⟨events, replayed, .refl events⟩
  | cons head _ ih =>
      obtain ⟨effect, later, first, rest, rfl⟩ := replay_cons_eq_ok.mp replayed
      obtain ⟨later', restToo, perm⟩ := ih (List.pairwise_cons.mp commute).2 rest
      exact ⟨_, replay_cons_eq_ok.mpr ⟨effect, later', first, restToo, rfl⟩,
        perm.append_left effect.events⟩
  | swap other one calls =>
      obtain ⟨first, later, isFirst, replayedLater, rfl⟩ := replay_cons_eq_ok.mp replayed
      obtain ⟨second, rest, isSecond, replayedRest, rfl⟩ := replay_cons_eq_ok.mp replayedLater
      have pair := (List.pairwise_cons.mp commute).1 other List.mem_cons_self
      obtain ⟨second', first', isSecond', isFirst', sameSecond, sameFirst, same⟩ :=
        pair.1 b first second isFirst isSecond
      refine ⟨_, replay_cons_eq_ok.mpr ⟨second', _, isSecond',
        replay_cons_eq_ok.mpr ⟨first', rest, isFirst', same ▸ replayedRest, rfl⟩, rfl⟩, ?_⟩
      rw [sameSecond, sameFirst, ← List.append_assoc, ← List.append_assoc]
      exact List.perm_append_comm.append_right rest
  | trans one _ ih ih' =>
      obtain ⟨events', replayed', perm⟩ := ih commute replayed
      obtain ⟨events'', replayed'', perm'⟩ :=
        ih' (one.pairwise commute fun both => both.symm) replayed'
      exact ⟨events'', replayed'', perm.trans perm'⟩

end Specification

/-! ## Meeting a specification -/

section Meets

variable (R : σ → β → List ω → Prop) (Few : List ω → Prop)

/-- The program does from a storage and a log what the step says: the same error before
any request, or the requests, the events and a storage that stands for the next state,
as long as the log stays within its bound. -/
inductive Meets (p : Prog σ ε γ ω Unit) (s : σ) (log : List ω) :
    Except ε (Effect γ ω β) → Prop where
  | error {error : ε} {events : List ω} (outcome : p.outcome s = ⟨[], events, .error error⟩) :
      Meets p s log (.error error)
  | ok {effect : Effect γ ω β} {s' : σ}
      (outcome : p.outcome s = ⟨effect.requests, effect.events, .ok ((), s')⟩)
      (related : Few (log ++ effect.events) → R s' effect.next (log ++ effect.events)) :
      Meets p s log (.ok effect)

variable {R Few}
variable {p : Prog σ ε γ ω Unit} {w w' : World σ E ω}

/-- Where the specification fails, the program fails in the same way and in no other. -/
theorem Meets.of_error {error : ε}
    (meets : Meets R Few p w.storage w.log (.error error : Except ε (Effect γ ω β)))
    (answer : γ → E → E → Prop) :
    (∀ w', ¬ Runs (Quiet answer) p w () w') ∧
      ∀ error', Fails (Quiet answer) p w error' ↔ error' = error := by
  cases meets with
  | error outcome =>
      constructor
      · intro w' run
        rw [runs_iff_outcome, outcome] at run
        cases run.1
      · intro error'
        rw [fails_iff_outcome, outcome]
        simp only [Except.error.injEq, answers_nil, exists_eq, and_true]
        exact eq_comm

/-- Where it succeeds, the program does not fail, and runs when the requests are
answered. -/
theorem Meets.of_ok {effect : Effect γ ω β}
    (meets : Meets R Few p w.storage w.log (.ok effect)) (answer : γ → E → E → Prop) :
    (∀ error, ¬ Fails (Quiet answer) p w error) ∧
      ∃ s', (Few (w.log ++ effect.events) → R s' effect.next (w.log ++ effect.events)) ∧
        ∀ w', Runs (Quiet answer) p w () w' ↔
          ∃ e, Answers answer effect.requests w.outside e ∧
            w' = ⟨s', e, w.log ++ effect.events⟩ := by
  cases meets with
  | @ok _ s' outcome related =>
      constructor
      · intro error fails
        rw [fails_iff_outcome, outcome] at fails
        cases fails.1
      · refine ⟨s', related, fun w' => ?_⟩
        rw [runs_iff_outcome, outcome]
        simp only [Except.ok.injEq, Prod.mk.injEq, true_and]
        constructor
        · intro given
          obtain ⟨same, answers, log⟩ := given
          exact ⟨w'.outside, answers, by rw [same, ← log]⟩
        · intro given
          obtain ⟨e, answers, rfl⟩ := given
          exact ⟨rfl, answers, rfl⟩

/-! Steps before the first request are taken on both sides. -/

section Steps

variable {s : σ} {log : List ω} {next : α → Prog σ ε γ ω Unit}
  {rest : δ → Except ε (Effect γ ω β)} {r : Except ε δ}

theorem Meets.congr {p q : Prog σ ε γ ω Unit} {step : Except ε (Effect γ ω β)}
    (same : p.outcome s = q.outcome s) (meets : Meets R Few q s log step) :
    Meets R Few p s log step := by
  cases meets with
  | error outcome => exact .error (same.trans outcome)
  | ok outcome related => exact .ok (same.trans outcome) related

theorem Meets.ofExcept_bind {first : Except ε α} (f : δ → α) (same : first = r.map f)
    (onward : ∀ d, r = .ok d → Meets R Few (next (f d)) s log (rest d)) :
    Meets R Few (Prog.ofExcept first >>= next) s log (r >>= rest) := by
  subst same
  cases r with
  | error error => exact .error rfl
  | ok d => exact onward d rfl

theorem Meets.reads_bind {g : σ → Except ε α} (f : δ → α) (same : g s = r.map f)
    (onward : ∀ d, r = .ok d → Meets R Few (next (f d)) s log (rest d)) :
    Meets R Few (Prog.reads g >>= next) s log (r >>= rest) :=
  Meets.congr (outcome_reads_bind g) (Meets.ofExcept_bind f same onward)

theorem Meets.ofExcept_bind_ok {first : Except ε α} {a : α}
    {step : Except ε (Effect γ ω β)} (same : first = .ok a)
    (onward : Meets R Few (next a) s log step) :
    Meets R Few (Prog.ofExcept first >>= next) s log step := by
  subst same
  exact onward

/-- Where the step fails the program may fail later. -/
theorem Meets.ofExcept_bind_error {first : Except ε α} {error : ε}
    (either : first = .error error ∨
      ∃ a, first = .ok a ∧ Meets R Few (next a) s log (.error error)) :
    Meets R Few (Prog.ofExcept first >>= next) s log (.error error) := by
  rcases either with rfl | ⟨a, rfl, onward⟩
  · exact .error rfl
  · exact onward

theorem Meets.guard_bind {condition condition' : Prop} [Decidable condition]
    [Decidable condition'] {error : ε} {f : Unit → Prog σ ε γ ω Unit}
    {g : Unit → Except ε (Effect γ ω β)} (same : condition ↔ condition')
    (onward : ¬ condition' → Meets R Few (f ()) s log (g ())) :
    Meets R Few ((if condition then .fail error else .pure ()) >>= f) s log
      ((if condition' then .error error else .ok ()) >>= g) := by
  by_cases holds : condition'
  · rw [if_pos holds, if_pos (same.mpr holds)]
    exact .error rfl
  · rw [if_neg holds, if_neg (mt same.mp holds)]
    exact onward holds

theorem Meets.recorded {p q : Prog σ ε γ ω Unit} {events : List ω}
    {step : Except ε (Effect γ ω β)}
    (same : p.outcome s = { q.outcome s with events := events ++ (q.outcome s).events })
    (meets : Meets R Few q s (log ++ events) step) :
    Meets R Few p s log (recording events step) := by
  cases meets with
  | error outcome => exact .error (same.trans (by rw [outcome]))
  | @ok effect _ outcome related =>
      refine .ok (same.trans (by rw [outcome])) fun few => ?_
      change R _ effect.next (log ++ (events ++ effect.events))
      rw [← List.append_assoc] at few ⊢
      exact related few

/-- A read that does not fail has no counterpart. -/
theorem Meets.reads_bind_ok {g : σ → Except ε α} {a : α} {step : Except ε (Effect γ ω β)}
    (read : g s = .ok a) (onward : Meets R Few (next a) s log step) :
    Meets R Few (Prog.reads g >>= next) s log step := by
  apply Meets.congr (outcome_reads_bind g)
  rw [read]
  exact onward

end Steps

section Histories

variable [LE ι] {setting : Setting χ κ ι σ ε γ ω E} {spec : Specification χ κ β ε γ ω}
variable {start now : ι} {first : World σ E ω} {steps : List (Step χ κ σ E ω)} {b : β}

def calls (steps : List (Step χ κ σ E ω)) : List (χ × κ) :=
  steps.map fun step => (step.context, step.entry)

@[simp] theorem calls_append (steps more : List (Step χ κ σ E ω)) :
    calls (steps ++ more) = calls steps ++ calls more :=
  List.map_append

theorem calls_of_replaySteps [∀ a b : ι, Decidable (a ≤ b)]
    [∀ context entry storage, Decidable (setting.permitted context entry storage)]
    {answer : γ → E → Except ε E} {given : List (χ × κ)} {now : ι} {w w' : World σ E ω}
    (success : replaySteps setting answer given now w = some (steps, w')) :
    calls steps = given := by
  induction given generalizing steps now w with
  | nil =>
      simp only [replaySteps, Option.some.injEq, Prod.mk.injEq] at success
      obtain ⟨rfl, -⟩ := success
      rfl
  | cons head rest ih =>
      obtain ⟨context, entry⟩ := head
      simp only [replaySteps] at success
      split at success
      · obtain ⟨⟨⟨⟩, u⟩, -, later⟩ := Option.bind_eq_some_iff.mp success
        obtain ⟨⟨steps', last⟩, replays, same⟩ := Option.map_eq_some_iff.mp later
        obtain ⟨rfl, rfl⟩ := Prod.mk.inj same
        rw [calls, List.map_cons, ← calls, ih replays]
      · cases success

theorem History.specified (earlier : ∀ log more, Few (log ++ more) → Few log)
    (meets : ∀ context entry s b log, R s b log →
      Meets R Few (setting.program context entry) s log (spec context entry b))
    (related : R first.storage b first.log)
    (history : History setting start first steps now w) (few : Few w.log) :
    ∃ events last, spec.replay (calls steps) b = .ok (events, last) ∧
      w.log = first.log ++ events ∧ R w.storage last w.log := by
  induction history with
  | start => exact ⟨[], b, rfl, by simp, related⟩
  | wait _ _ ih => exact ih few
  | drift _ _ ih => exact ih few
  | @call steps now w w' context entry _ _ _ success ih =>
      obtain ⟨more, extended⟩ := success.log_extends
      have fewBefore : Few w.log := earlier w.log more (extended ▸ few)
      obtain ⟨events, last, replayed, log, relatedW⟩ := ih fewBefore
      have met := meets context entry w.storage last w.log relatedW
      cases isStep : spec context entry last with
      | error error =>
          rw [isStep] at met
          exact absurd success ((met.of_error setting.answer).1 w')
      | ok effect =>
          rw [isStep] at met
          obtain ⟨-, s', relatedThen, runs⟩ := met.of_ok setting.answer
          obtain ⟨e, -, rfl⟩ := (runs w').mp success
          refine ⟨events ++ effect.events, effect.next, ?_, ?_, relatedThen few⟩
          · rw [calls_append]
            exact spec.replay_concat replayed isStep
          · rw [log, List.append_assoc]

end Histories

end Meets

end CasperContracts.Basis
