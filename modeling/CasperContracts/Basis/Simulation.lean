import Mathlib.Data.List.Forall2
import CasperContracts.Basis.Custody

/-!
# Two programs side by side

`Simulates` relates a program over one storage to a program over another that
issues the same requests, records the same events and ends in the same way,
while each reads and writes its own storage in steps of its own.  There is one
rule for each construct.  At a request a program relies on what its callees leave
as it was; the same is asked of whole entry points, so that callees may call back.
A simulation then carries over to runs, to failures and to deploys.
-/

namespace CasperContracts.Basis

open Prog

section Simulation

variable {σ τ ε ε' γ ω α β α' β' : Type}
variable (R : σ → τ → Prop) (K : σ → τ → σ → τ → Prop) (F : ε → ε' → Prop)

/-- What a callee may be relied on to do with two storages can be done in any number
of steps. -/
structure Rely (K : σ → τ → σ → τ → Prop) : Prop where
  refl : ∀ s t, K s t s t
  trans : ∀ {s t s' t' s'' t''}, K s t s' t' → K s' t' s'' t'' → K s t s'' t''

/-- The programs can be run side by side from the two storages: related storages are
handed out and found again, changed only as `K` says, at every request, and `post` holds
of results and storages in the end. -/
inductive Simulates (post : α → σ → β → τ → Prop) :
    Prog σ ε γ ω α → σ → Prog τ ε' γ ω β → τ → Prop where
  | pure {a : α} {b : β} {s : σ} {t : τ} (ends : post a s b t) :
      Simulates post (.pure a) s (.pure b) t
  | fail {e : ε} {e' : ε'} {s : σ} {t : τ} (alike : F e e') :
      Simulates post (.fail e) s (.fail e') t
  | getLeft {next : σ → Prog σ ε γ ω α} {q : Prog τ ε' γ ω β} {s : σ} {t : τ}
      (rest : Simulates post (next s) s q t) : Simulates post (.get next) s q t
  | getRight {p : Prog σ ε γ ω α} {next : τ → Prog τ ε' γ ω β} {s : σ} {t : τ}
      (rest : Simulates post p s (next t) t) : Simulates post p s (.get next) t
  | putLeft {s' : σ} {p : Prog σ ε γ ω α} {q : Prog τ ε' γ ω β} {s : σ} {t : τ}
      (rest : Simulates post p s' q t) : Simulates post (.put s' p) s q t
  | putRight {t' : τ} {p : Prog σ ε γ ω α} {q : Prog τ ε' γ ω β} {s : σ} {t : τ}
      (rest : Simulates post p s q t') : Simulates post p s (.put t' q) t
  | emit {event : ω} {p : Prog σ ε γ ω α} {q : Prog τ ε' γ ω β} {s : σ} {t : τ}
      (rest : Simulates post p s q t) :
      Simulates post (.emit event p) s (.emit event q) t
  | call {c : γ} {p : Prog σ ε γ ω α} {q : Prog τ ε' γ ω β} {s : σ} {t : τ}
      (related : R s t) (rest : ∀ s' t', R s' t' → K s t s' t' → Simulates post p s' q t') :
      Simulates post (.call c p) s (.call c q) t

/-- Two fallible computations succeed or fail alike. -/
inductive Agree (P : α → β → Prop) : Except ε α → Except ε' β → Prop where
  | ok {a : α} {b : β} (alike : P a b) : Agree P (.ok a) (.ok b)
  | error {e : ε} {e' : ε'} (alike : F e e') : Agree P (.error e) (.error e')

variable {R K F}
variable {post : α → σ → β → τ → Prop} {post' : α' → σ → β' → τ → Prop}
variable {p : Prog σ ε γ ω α} {q : Prog τ ε' γ ω β} {s : σ} {t : τ}

/-! ## The rules -/

namespace Agree

theorem bind {P : α → β → Prop} {Q : α' → β' → Prop} {r : Except ε α} {r' : Except ε' β}
    {f : α → Except ε α'} {g : β → Except ε' β'} (first : Agree F P r r')
    (next : ∀ a b, P a b → Agree F Q (f a) (g b)) : Agree F Q (r >>= f) (r' >>= g) := by
  cases first with
  | ok alike => exact next _ _ alike
  | error alike => exact .error alike

theorem mono {P Q : α → β → Prop} {r : Except ε α} {r' : Except ε' β}
    (agree : Agree F P r r') (weaker : ∀ a b, P a b → Q a b) : Agree F Q r r' := by
  cases agree with
  | ok alike => exact .ok (weaker _ _ alike)
  | error alike => exact .error alike

end Agree

namespace Simulates

theorem symm (sim : Simulates R K F post p s q t) :
    Simulates (fun t s => R s t) (fun t s t' s' => K s t s' t') (fun e' e => F e e')
      (fun b t a s => post a s b t) q t p s := by
  induction sim with
  | pure ends => exact .pure ends
  | fail alike => exact .fail alike
  | getLeft _ ih => exact .getRight ih
  | getRight _ ih => exact .getLeft ih
  | putLeft _ ih => exact .putRight ih
  | putRight _ ih => exact .putLeft ih
  | emit _ ih => exact .emit ih
  | call related _ ih =>
      exact .call related fun t' s' related' kept => ih s' t' related' kept

theorem mono {weaker : α → σ → β → τ → Prop} (sim : Simulates R K F post p s q t)
    (weakens : ∀ a s b t, post a s b t → weaker a s b t) :
    Simulates R K F weaker p s q t := by
  induction sim with
  | pure ends => exact .pure (weakens _ _ _ _ ends)
  | fail alike => exact .fail alike
  | getLeft _ ih => exact .getLeft ih
  | getRight _ ih => exact .getRight ih
  | putLeft _ ih => exact .putLeft ih
  | putRight _ ih => exact .putRight ih
  | emit _ ih => exact .emit ih
  | call related _ ih => exact .call related ih

theorem bind {f : α → Prog σ ε γ ω α'} {g : β → Prog τ ε' γ ω β'}
    (first : Simulates R K F post p s q t)
    (next : ∀ a s b t, post a s b t → Simulates R K F post' (f a) s (g b) t) :
    Simulates R K F post' (p >>= f) s (q >>= g) t := by
  change Simulates R K F post' (p.bind f) s (q.bind g) t
  induction first with
  | pure ends => exact next _ _ _ _ ends
  | fail alike => exact .fail alike
  | getLeft _ ih => exact .getLeft ih
  | getRight _ ih => exact .getRight ih
  | putLeft _ ih => exact .putLeft ih
  | putRight _ ih => exact .putRight ih
  | emit _ ih => exact .emit ih
  | call related _ ih => exact .call related ih

theorem updates {f : σ → Except ε σ} {g : τ → Except ε' τ} {after : Unit → σ → Unit → τ → Prop}
    (agree : Agree F (fun s' t' => after () s' () t') (f s) (g t)) :
    Simulates R K F after (Prog.updates f : Prog σ ε γ ω Unit) s
      (Prog.updates g : Prog τ ε' γ ω Unit) t := by
  apply getLeft
  apply getRight
  cases written : f s with
  | error e =>
      cases writtenToo : g t with
      | error e' =>
          rw [written, writtenToo] at agree
          cases agree with
          | error alike => exact .fail alike
      | ok t' =>
          rw [written, writtenToo] at agree
          cases agree
  | ok s' =>
      cases writtenToo : g t with
      | error e' =>
          rw [written, writtenToo] at agree
          cases agree
      | ok t' =>
          rw [written, writtenToo] at agree
          cases agree with
          | ok ends => exact .putLeft (.putRight (.pure ends))

theorem record {event : ω} {after : Unit → σ → Unit → τ → Prop} (ends : after () s () t) :
    Simulates R K F after (Prog.record event : Prog σ ε γ ω Unit) s
      (Prog.record event : Prog τ ε' γ ω Unit) t :=
  .emit (.pure ends)

theorem request {c : γ} {after : Unit → σ → Unit → τ → Prop} (related : R s t)
    (ends : ∀ s' t', R s' t' → K s t s' t' → after () s' () t') :
    Simulates R K F after (Prog.request c : Prog σ ε γ ω Unit) s
      (Prog.request c : Prog τ ε' γ ω Unit) t :=
  .call related fun s' t' related' kept => .pure (ends s' t' related' kept)

/-! The same in front of another program. -/

section Sequencing

variable {P : α → β → Prop}
variable {next : α → Prog σ ε γ ω α'} {next' : β → Prog τ ε' γ ω β'}
variable {rest : Unit → Prog σ ε γ ω α'} {rest' : Unit → Prog τ ε' γ ω β'}

theorem ofExcept_bind {r : Except ε α} {r' : Except ε' β} (agree : Agree F P r r')
    (onward : ∀ a b, P a b → Simulates R K F post' (next a) s (next' b) t) :
    Simulates R K F post' (Prog.ofExcept r >>= next) s (Prog.ofExcept r' >>= next') t := by
  cases agree with
  | ok alike => exact onward _ _ alike
  | error alike => exact .fail alike

theorem reads_bind {f : σ → Except ε α} {g : τ → Except ε' β} (agree : Agree F P (f s) (g t))
    (onward : ∀ a b, P a b → Simulates R K F post' (next a) s (next' b) t) :
    Simulates R K F post' (Prog.reads f >>= next) s (Prog.reads g >>= next') t :=
  .getLeft (.getRight (ofExcept_bind agree onward))

/-- The first program may look at its storage when the second one does not. -/
theorem readsLeft_bind {δ : Type} {f : σ → Except ε δ} {a : δ} {next : δ → Prog σ ε γ ω α'}
    {q : Prog τ ε' γ ω β'} (read : f s = .ok a)
    (onward : Simulates R K F post' (next a) s q t) :
    Simulates R K F post' (Prog.reads f >>= next) s q t := by
  apply getLeft
  change Simulates R K F post' (Prog.ofExcept (f s) >>= next) s q t
  rw [read]
  exact onward

theorem updates_bind {f : σ → Except ε σ} {g : τ → Except ε' τ} {S : σ → τ → Prop}
    (agree : Agree F S (f s) (g t))
    (onward : ∀ s' t', S s' t' → Simulates R K F post' (rest ()) s' (rest' ()) t') :
    Simulates R K F post' (Prog.updates f >>= rest) s (Prog.updates g >>= rest') t := by
  have first : Simulates R K F (fun _ s' _ t' => S s' t')
      (Prog.updates f : Prog σ ε γ ω Unit) s (Prog.updates g : Prog τ ε' γ ω Unit) t :=
    updates agree
  exact first.bind fun _ s' _ t' related => onward s' t' related

theorem request_bind {c : γ} (related : R s t)
    (onward : ∀ s' t', R s' t' → K s t s' t' →
      Simulates R K F post' (rest ()) s' (rest' ()) t') :
    Simulates R K F post' (Prog.request c >>= rest) s (Prog.request c >>= rest') t :=
  .call related onward

end Sequencing

end Simulates

/-! ## What a simulation is good for -/

/-- Worlds with related storages and otherwise the same. -/
structure Alike {E : Type} (R : σ → τ → Prop) (w : World σ E ω) (v : World τ E ω) : Prop where
  storage : R w.storage v.storage
  outside : w.outside = v.outside
  log : w.log = v.log

theorem Alike.symm {E : Type} {w : World σ E ω} {v : World τ E ω} (alike : Alike R w v) :
    Alike (fun t s => R s t) v w :=
  ⟨alike.storage, alike.outside.symm, alike.log.symm⟩

/-- Whatever a callee does to one world it can do to the other, and it can be relied on. -/
def Mirrors {E : Type} (R : σ → τ → Prop) (K : σ → τ → σ → τ → Prop)
    (respond : γ → World σ E ω → World σ E ω → Prop)
    (respond' : γ → World τ E ω → World τ E ω → Prop) : Prop :=
  ∀ c w v w', Alike R w v → respond c w w' →
    ∃ v', respond' c v v' ∧ Alike R w' v' ∧ K w.storage v.storage w'.storage v'.storage

section Adequacy

variable {E : Type} {respond : γ → World σ E ω → World σ E ω → Prop}
variable {respond' : γ → World τ E ω → World τ E ω → Prop}
variable {e : E} {log : List ω}

theorem Simulates.runs (sim : Simulates R K F post p s q t) (mirrors : Mirrors R K respond respond')
    {a : α} {w' : World σ E ω} (run : Runs respond p ⟨s, e, log⟩ a w') :
    ∃ b v', Runs respond' q ⟨t, e, log⟩ b v' ∧ post a w'.storage b v'.storage ∧
      w'.outside = v'.outside ∧ w'.log = v'.log := by
  induction sim generalizing e log with
  | @pure a b s t ends =>
      obtain ⟨rfl, rfl⟩ := run
      exact ⟨b, ⟨t, e, log⟩, ⟨rfl, rfl⟩, ends, rfl, rfl⟩
  | fail alike => exact run.elim
  | getLeft _ ih => exact ih run
  | getRight _ ih => exact ih run
  | putLeft _ ih => exact ih run
  | putRight _ ih => exact ih run
  | emit _ ih => exact ih run
  | @call c p q s t related _ ih =>
      obtain ⟨u, answered, rest⟩ := run
      obtain ⟨v, answeredToo, alike, kept⟩ :=
        mirrors c ⟨s, e, log⟩ ⟨t, e, log⟩ u ⟨related, rfl, rfl⟩ answered
      obtain ⟨b, v', onward, ends⟩ := ih u.storage v.storage alike.storage kept rest
      rw [alike.outside, alike.log] at onward
      exact ⟨b, v', ⟨v, answeredToo, onward⟩, ends⟩

theorem Simulates.fails (sim : Simulates R K F post p s q t)
    (mirrors : Mirrors R K respond respond') {error : ε}
    (fails : Fails respond p ⟨s, e, log⟩ error) :
    ∃ error', Fails respond' q ⟨t, e, log⟩ error' ∧ F error error' := by
  induction sim generalizing e log with
  | pure ends => exact fails.elim
  | @fail error e' s t alike =>
      cases fails
      exact ⟨e', rfl, alike⟩
  | getLeft _ ih => exact ih fails
  | getRight _ ih => exact ih fails
  | putLeft _ ih => exact ih fails
  | putRight _ ih => exact ih fails
  | emit _ ih => exact ih fails
  | @call c p q s t related _ ih =>
      obtain ⟨u, answered, rest⟩ := fails
      obtain ⟨v, answeredToo, alike, kept⟩ :=
        mirrors c ⟨s, e, log⟩ ⟨t, e, log⟩ u ⟨related, rfl, rfl⟩ answered
      obtain ⟨error', onward, same⟩ := ih u.storage v.storage alike.storage kept rest
      rw [alike.outside, alike.log] at onward
      exact ⟨error', ⟨v, answeredToo, onward⟩, same⟩

/-- Callees that keep to their own side do not see the storage. -/
theorem mirrors_quiet (rely : Rely K) {answer : γ → E → E → Prop} :
    Mirrors (ω := ω) R K (Quiet answer) (Quiet answer) := by
  intro c w v w' alike quiet
  obtain ⟨e, answered, rfl⟩ := quiet
  refine ⟨{ v with outside := e }, ⟨e, alike.outside ▸ answered, rfl⟩, ?_, rely.refl _ _⟩
  exact ⟨alike.storage, rfl, alike.log⟩

end Adequacy

end Simulation

/-! ## Whole contracts -/

section Contracts

variable {χ κ ι σ τ ε ε' γ ω E : Type}
variable {R : σ → τ → Prop} {K : σ → τ → σ → τ → Prop} {F : ε → ε' → Prop}

/-- Every entry point simulates its namesake, and does to the storages no more than what
its own requests are relied on to do. -/
def SimulatesAll (R : σ → τ → Prop) (K : σ → τ → σ → τ → Prop) (F : ε → ε' → Prop)
    (program : κ → Prog σ ε γ ω Unit) (program' : κ → Prog τ ε' γ ω Unit) : Prop :=
  ∀ k s t, R s t →
    Simulates R K F (fun _ s' _ t' => R s' t' ∧ K s t s' t') (program k) s (program' k) t

theorem Rely.symm (rely : Rely K) : Rely fun t s t' s' => K s t s' t' :=
  ⟨fun t s => rely.refl s t, fun first second => rely.trans first second⟩

theorem SimulatesAll.symm {program : κ → Prog σ ε γ ω Unit} {program' : κ → Prog τ ε' γ ω Unit}
    (sim : SimulatesAll R K F program program') :
    SimulatesAll (fun t s => R s t) (fun t s t' s' => K s t s' t') (fun e' e => F e e')
      program' program :=
  fun k t s related => (sim k s t related).symm

variable {program : κ → Prog σ ε γ ω Unit} {program' : κ → Prog τ ε' γ ω Unit}
variable {k : κ} {w w' : World σ E ω} {v : World τ E ω}

theorem SimulatesAll.runs (sim : SimulatesAll R K F program program')
    {respond : γ → World σ E ω → World σ E ω → Prop}
    {respond' : γ → World τ E ω → World τ E ω → Prop}
    (mirrors : Mirrors R K respond respond') (alike : Alike R w v)
    (run : Runs respond (program k) w () w') :
    ∃ v', Runs respond' (program' k) v () v' ∧ Alike R w' v' ∧
      K w.storage v.storage w'.storage v'.storage := by
  obtain ⟨s, e, log⟩ := w
  obtain ⟨t, e', log'⟩ := v
  obtain ⟨related, rfl, rfl⟩ := alike
  obtain ⟨⟨⟩, v', onward, ⟨related', kept⟩, outside, same⟩ :=
    (sim k s t related).runs mirrors run
  exact ⟨v', onward, ⟨related', outside, same⟩, kept⟩

theorem SimulatesAll.fails (sim : SimulatesAll R K F program program')
    {respond : γ → World σ E ω → World σ E ω → Prop}
    {respond' : γ → World τ E ω → World τ E ω → Prop}
    (mirrors : Mirrors R K respond respond') (alike : Alike R w v) {error : ε}
    (fails : Fails respond (program k) w error) :
    ∃ error', Fails respond' (program' k) v error' ∧ F error error' := by
  obtain ⟨s, e, log⟩ := w
  obtain ⟨t, e', log'⟩ := v
  obtain ⟨related, rfl, rfl⟩ := alike
  exact (sim k s t related).fails mirrors fails

/-! ## Callees that call back -/

section Embedded

variable {answer : γ → E → E → Prop} {drift : E → E → Prop} {hostile : γ → Prop}
variable {allowed : List κ → World σ E ω → κ → Prop}
variable {allowed' : List κ → World τ E ω → κ → Prop}

private theorem mirrors_turns (rely : Rely K) (sim : SimulatesAll R K F program program')
    (permits : ∀ stack w v k, Alike R w v → allowed stack w k → allowed' stack v k)
    {respond : List κ → γ → World σ E ω → World σ E ω → Prop}
    {respond' : List κ → γ → World τ E ω → World τ E ω → Prop}
    (mirrors : ∀ stack, Mirrors R K (respond stack) (respond' stack)) {stack : List κ}
    (alike : Alike R w v)
    (turns : Relation.ReflTransGen (Turn program drift allowed respond stack) w w') :
    ∃ v', Relation.ReflTransGen (Turn program' drift allowed' respond' stack) v v' ∧
      Alike R w' v' ∧ K w.storage v.storage w'.storage v'.storage := by
  induction turns with
  | refl => exact ⟨v, .refl, alike, rely.refl _ _⟩
  | tail _ turn ih =>
      obtain ⟨u, soFar, alikeU, kept⟩ := ih
      cases turn with
      | @drift e drifts =>
          exact ⟨{ u with outside := e }, soFar.tail (.drift (alikeU.outside ▸ drifts)),
            ⟨alikeU.storage, rfl, alikeU.log⟩, kept⟩
      | entry k permitted run =>
          obtain ⟨u', onward, alike', keptToo⟩ := sim.runs (mirrors (k :: stack)) alikeU run
          exact ⟨u', soFar.tail (.entry k (permits stack _ _ k alikeU permitted) onward),
            alike', rely.trans kept keptToo⟩

theorem mirrors_embedded (rely : Rely K) (sim : SimulatesAll R K F program program')
    (permits : ∀ stack w v k, Alike R w v → allowed stack w k → allowed' stack v k)
    (depth : Nat) (stack : List κ) :
    Mirrors R K (Embedded program answer drift hostile allowed depth stack)
      (Embedded program' answer drift hostile allowed' depth stack) := by
  induction depth generalizing stack with
  | zero => exact mirrors_quiet rely
  | succ depth ih =>
      intro c w v w' alike response
      rcases response with quiet | ⟨isHostile, u, u', before, answered, after⟩
      · obtain ⟨v', quietToo, alike'⟩ := mirrors_quiet rely c w v w' alike quiet
        exact ⟨v', .inl quietToo, alike'⟩
      · obtain ⟨x, beforeToo, alikeU, kept⟩ := mirrors_turns rely sim permits ih alike before
        obtain ⟨x', answeredToo, alikeU', keptThen⟩ :=
          mirrors_quiet rely c u x u' alikeU answered
        obtain ⟨v', afterToo, alike', keptAfter⟩ :=
          mirrors_turns rely sim permits ih alikeU' after
        exact ⟨v', .inr ⟨isHostile, x, x', beforeToo, answeredToo, afterToo⟩, alike',
          rely.trans kept (rely.trans keptThen keptAfter)⟩

/-- Among such callees a call fails on one side exactly when it fails on the other, in the
same way. -/
theorem SimulatesAll.fails_iff (sim : SimulatesAll R K F program program') (rely : Rely K)
    (functional : ∀ error left right, F error left → F error right → left = right)
    (permits : ∀ stack w v k, Alike R w v → (allowed stack w k ↔ allowed' stack v k))
    (alike : Alike R w v) {depth : Nat} {stack : List κ} {error' : ε'} :
    Fails (Embedded program' answer drift hostile allowed' depth stack) (program' k) v error' ↔
      ∃ error, F error error' ∧
        Fails (Embedded program answer drift hostile allowed depth stack) (program k) w
          error := by
  constructor
  · intro fails
    have mirrors : Mirrors (fun t s => R s t) (fun t s t' s' => K s t s' t')
        (Embedded program' answer drift hostile allowed' depth stack)
        (Embedded program answer drift hostile allowed depth stack) :=
      mirrors_embedded rely.symm sim.symm
        (fun stack v w k alike => (permits stack w v k alike.symm).mpr) depth stack
    obtain ⟨error, failsToo, same⟩ := sim.symm.fails mirrors alike.symm fails
    exact ⟨error, same, failsToo⟩
  · intro given
    obtain ⟨error, same, fails⟩ := given
    have mirrors : Mirrors R K
        (Embedded program answer drift hostile allowed depth stack)
        (Embedded program' answer drift hostile allowed' depth stack) :=
      mirrors_embedded rely sim (fun stack w v k alike => (permits stack w v k alike).mp)
        depth stack
    obtain ⟨error'', failsToo, sameToo⟩ := sim.fails mirrors alike fails
    rw [functional error error' error'' same sameToo]
    exact failsToo

end Embedded

/-! ## Deploys -/

section Deploys

variable [LE ι] {program : χ → κ → Prog σ ε γ ω Unit} {program' : χ → κ → Prog τ ε' γ ω Unit}
variable {time : χ → ι} {answer : γ → E → E → Prop} {drift : E → E → Prop}
variable {hostile : γ → Prop} {allowed : χ → List κ → World σ E ω → κ → Prop}
variable {allowed' : χ → List κ → World τ E ω → κ → Prop}
variable {start now : ι} {first : World σ E ω} {first' : World τ E ω}

theorem Deploys.simulated (rely : Rely K)
    (sim : ∀ context, SimulatesAll R K F (program context) (program' context))
    (permits : ∀ context stack w v k, Alike R w v → allowed context stack w k →
      allowed' context stack v k)
    (alike : Alike R first first')
    (deploys : Deploys program time answer drift hostile allowed start first now w) :
    ∃ v, Deploys program' time answer drift hostile allowed' start first' now v ∧
      Alike R w v := by
  induction deploys with
  | start => exact ⟨first', .start, alike⟩
  | wait _ le ih =>
      obtain ⟨v, deploysToo, alikeNow⟩ := ih
      exact ⟨v, deploysToo.wait le, alikeNow⟩
  | @drift now w e _ drifts ih =>
      obtain ⟨v, deploysToo, alikeNow⟩ := ih
      refine ⟨{ v with outside := e }, deploysToo.drift (alikeNow.outside ▸ drifts), ?_⟩
      exact ⟨alikeNow.storage, rfl, alikeNow.log⟩
  | @call now w w' depth context entry _ le permitted success ih =>
      obtain ⟨v, deploysToo, alikeNow⟩ := ih
      have mirrors : Mirrors R K
          (Embedded (program context) answer drift hostile (allowed context) depth [entry])
          (Embedded (program' context) answer drift hostile (allowed' context) depth
            [entry]) :=
        mirrors_embedded rely (sim context) (permits context) depth [entry]
      obtain ⟨v', onward, alike', -⟩ := (sim context).runs mirrors alikeNow success
      exact ⟨v', deploysToo.call context entry le
        (permits context [] _ _ entry alikeNow permitted) onward, alike'⟩

/-- Contracts that simulate one another, among callees that may call back into anything:
each reaches what the other reaches, and a call fails on one side exactly when it fails on
the other. -/
theorem Deploys.refined (rely : Rely K)
    (sim : ∀ context, SimulatesAll R K F (program context) (program' context))
    (functional : ∀ error left right, F error left → F error right → left = right)
    (alike : Alike R first first') :
    (∀ now v, Deploys program' time answer drift hostile (fun _ _ _ _ => True) start first'
        now v →
      ∃ w, Deploys program time answer drift hostile (fun _ _ _ _ => True) start first now w ∧
        Alike R w v) ∧
    (∀ now w, Deploys program time answer drift hostile (fun _ _ _ _ => True) start first
        now w →
      ∃ v, Deploys program' time answer drift hostile (fun _ _ _ _ => True) start first'
        now v ∧ Alike R w v) ∧
    ∀ (w : World σ E ω) v, Alike R w v → ∀ context entry depth error',
      Fails (Embedded (program' context) answer drift hostile (fun _ _ _ => True) depth
          [entry]) (program' context entry) v error' ↔
        ∃ error, F error error' ∧
          Fails (Embedded (program context) answer drift hostile (fun _ _ _ => True) depth
            [entry]) (program context entry) w error := by
  refine ⟨?_, ?_, ?_⟩
  · intro now v reached
    obtain ⟨w, reachedToo, same⟩ := Deploys.simulated rely.symm
      (fun context => (sim context).symm) (fun _ _ _ _ _ _ permitted => permitted)
      alike.symm reached
    exact ⟨w, reachedToo, same.symm⟩
  · intro now w reached
    exact Deploys.simulated rely sim (fun _ _ _ _ _ _ permitted => permitted) alike reached
  · intro w v same context entry depth error'
    exact (sim context).fails_iff rely functional (fun _ _ _ _ _ => Iff.rfl) same

end Deploys

end Contracts

end CasperContracts.Basis
