import CasperContracts.Basis.Resumption

/-!
# Total correctness of programs

`Ensures` says that a program cannot fail, that each of its requests can be answered,
and that it ends as a postcondition says, however the requests are answered.  Like
`Runs` it is computed step by step, with one rule for each step.
-/

namespace CasperContracts.Basis.Prog

variable {σ ε γ ω α β E : Type} {respond : γ → World σ E ω → World σ E ω → Prop}

/-- `Ensures respond p w post`: started in `w`, the program ends, and in a world of
which `post` holds. -/
def Ensures (respond : γ → World σ E ω → World σ E ω → Prop) :
    Prog σ ε γ ω α → World σ E ω → (α → World σ E ω → Prop) → Prop
  | .pure value, w, post => post value w
  | .fail _, _, _ => False
  | .get next, w, post => (next w.storage).Ensures respond w post
  | .put storage next, w, post => next.Ensures respond { w with storage } post
  | .emit event next, w, post =>
      next.Ensures respond { w with log := w.log ++ [event] } post
  | .call c next, w, post =>
      (∃ u, respond c w u) ∧ ∀ u, respond c w u → next.Ensures respond u post

variable {p : Prog σ ε γ ω α} {w : World σ E ω} {post : α → World σ E ω → Prop}

/-! ## What it means -/

namespace Ensures

theorem not_fails (ensures : Ensures respond p w post) (error : ε) :
    ¬ Fails respond p w error := by
  induction p generalizing w with
  | pure value => exact id
  | fail error => exact ensures.elim
  | get next ih => exact ih w.storage ensures
  | put storage next ih => exact ih ensures
  | emit event next ih => exact ih ensures
  | call c next ih =>
      intro fails
      obtain ⟨u, answered, later⟩ := fails
      exact ih (ensures.2 u answered) later

theorem exists_runs (ensures : Ensures respond p w post) :
    ∃ a w', Runs respond p w a w' := by
  induction p generalizing w with
  | pure value => exact ⟨value, w, rfl, rfl⟩
  | fail error => exact ensures.elim
  | get next ih => exact ih w.storage ensures
  | put storage next ih => exact ih ensures
  | emit event next ih => exact ih ensures
  | call c next ih =>
      obtain ⟨⟨u, answered⟩, later⟩ := ensures
      obtain ⟨a, w', run⟩ := ih (later u answered)
      exact ⟨a, w', u, answered, run⟩

theorem of_runs (ensures : Ensures respond p w post) {a : α} {w' : World σ E ω}
    (run : Runs respond p w a w') : post a w' := by
  induction p generalizing w with
  | pure value =>
      obtain ⟨rfl, rfl⟩ := run
      exact ensures
  | fail error => exact ensures.elim
  | get next ih => exact ih w.storage ensures run
  | put storage next ih => exact ih ensures run
  | emit event next ih => exact ih ensures run
  | call c next ih =>
      obtain ⟨u, answered, rest⟩ := run
      exact ih (ensures.2 u answered) rest

theorem mono {post' : α → World σ E ω → Prop} (weaker : ∀ a u, post a u → post' a u)
    (ensures : Ensures respond p w post) : Ensures respond p w post' := by
  induction p generalizing w with
  | pure value => exact weaker value w ensures
  | fail error => exact ensures
  | get next ih => exact ih w.storage ensures
  | put storage next ih => exact ih ensures
  | emit event next ih => exact ih ensures
  | call c next ih => exact ⟨ensures.1, fun u answered => ih (ensures.2 u answered)⟩

end Ensures

/-! ## The rules -/

variable {f : α → Prog σ ε γ ω β} {after : β → World σ E ω → Prop}

theorem ensures_bind :
    Ensures respond (p >>= f) w after ↔
      Ensures respond p w fun a u => Ensures respond (f a) u after := by
  change Ensures respond (p.bind f) w after ↔ _
  induction p generalizing w with
  | pure value => exact Iff.rfl
  | fail error => exact Iff.rfl
  | get next ih => exact ih w.storage
  | put storage next ih => exact ih
  | emit event next ih => exact ih
  | call c next ih =>
      apply and_congr_right
      intro _
      exact forall_congr' fun u => forall_congr' fun _ => ih

theorem ensures_pure {value : α} :
    Ensures respond (Pure.pure value : Prog σ ε γ ω α) w post ↔ post value w :=
  Iff.rfl

theorem ensures_ofExcept {result : Except ε α} :
    Ensures respond (ofExcept result : Prog σ ε γ ω α) w post ↔
      ∃ a, result = .ok a ∧ post a w := by
  cases result with
  | ok value => simp [ofExcept, Ensures]
  | error error => simp [ofExcept, Ensures]

theorem ensures_ofExcept_bind {result : Except ε α} :
    Ensures respond (ofExcept result >>= f) w after ↔
      ∃ a, result = .ok a ∧ Ensures respond (f a) w after :=
  ensures_bind.trans ensures_ofExcept

theorem ensures_reads_bind {g : σ → Except ε α} :
    Ensures respond (reads g >>= f) w after ↔
      ∃ a, g w.storage = .ok a ∧ Ensures respond (f a) w after :=
  ensures_ofExcept_bind

theorem ensures_updates_bind {g : σ → Except ε σ} {f : Unit → Prog σ ε γ ω β} :
    Ensures respond (updates g >>= f) w after ↔
      ∃ storage, g w.storage = .ok storage ∧
        Ensures respond (f ()) { w with storage } after := by
  rw [ensures_bind]
  simp only [updates, Ensures]
  cases g w.storage with
  | ok storage => simp [Ensures]
  | error error => simp [Ensures]

theorem ensures_request_bind {c : γ} {f : Unit → Prog σ ε γ ω β} :
    Ensures respond (request c >>= f) w after ↔
      (∃ u, respond c w u) ∧ ∀ u, respond c w u → Ensures respond (f ()) u after :=
  Iff.rfl

theorem ensures_record {event : ω} {post : Unit → World σ E ω → Prop} :
    Ensures respond (record event : Prog σ ε γ ω Unit) w post ↔
      post () { w with log := w.log ++ [event] } :=
  Iff.rfl

theorem ensures_record_bind {event : ω} {f : Unit → Prog σ ε γ ω β} :
    Ensures respond (record event >>= f) w after ↔
      Ensures respond (f ()) { w with log := w.log ++ [event] } after :=
  Iff.rfl

/-! ## Callees that keep to their own side -/

section Quiet

variable {answer : γ → E → E → Prop}

/-- The requests can be answered one after the other, and `post` holds however they
are answered. -/
def Answerable (answer : γ → E → E → Prop) : List γ → E → (E → Prop) → Prop
  | [], e, post => post e
  | c :: cs, e, post =>
      (∃ e', answer c e e') ∧ ∀ e', answer c e e' → Answerable answer cs e' post

theorem ensures_quiet_bind {c : γ} {f : Unit → Prog σ ε γ ω β} :
    Ensures (Quiet answer) (request c >>= f) w after ↔
      (∃ e, answer c w.outside e) ∧ ∀ e, answer c w.outside e →
        Ensures (Quiet answer) (f ()) { w with outside := e } after := by
  rw [ensures_request_bind]
  constructor
  · intro given
    obtain ⟨⟨_, e, answered, -⟩, later⟩ := given
    exact ⟨⟨e, answered⟩, fun e' answered' => later _ ⟨e', answered', rfl⟩⟩
  · intro given
    obtain ⟨⟨e, answered⟩, later⟩ := given
    refine ⟨⟨_, e, answered, rfl⟩, fun u quiet => ?_⟩
    obtain ⟨e', answered', rfl⟩ := quiet
    exact later e' answered'

theorem ensures_quiet {c : γ} {post : Unit → World σ E ω → Prop} :
    Ensures (Quiet answer) (request c : Prog σ ε γ ω Unit) w post ↔
      (∃ e, answer c w.outside e) ∧ ∀ e, answer c w.outside e →
        post () { w with outside := e } :=
  ensures_quiet_bind (f := fun _ => Pure.pure ())

end Quiet

end CasperContracts.Basis.Prog
