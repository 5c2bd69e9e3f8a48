import CasperContracts.Host.Types

/-!
# Steps that refuse

The two ways in which a step of an abstract contract has no result: it refuses with an
error, or a number does not fit in a word.
-/

namespace CasperContracts.Host

open CasperContracts.Basis

def refuse (condition : Prop) [Decidable condition] (error : ApiError) : Except Failure Unit :=
  if condition then .error (.revert error) else .ok ()

theorem refuse_bind {condition : Prop} [Decidable condition] {error : ApiError} {α : Type}
    (next : Unit → Except Failure α) :
    (refuse condition error >>= next) =
      if condition then .error (.revert error) else next () := by
  unfold refuse
  split <;> rfl

theorem refuse_eq_ok {condition : Prop} [Decidable condition] {error : ApiError} {done : Unit} :
    refuse condition error = .ok done ↔ ¬ condition := by
  unfold refuse
  split
  · rename_i holds
    simp [holds]
  · rename_i fails
    simp [fails]

theorem ok_bind {α β : Type} (value : α) (next : α → Except Failure β) :
    ((.ok value : Except Failure α) >>= next) = next value := rfl

theorem error_bind {α β : Type} (failure : Failure) (next : α → Except Failure β) :
    ((.error failure : Except Failure α) >>= next) = .error failure := rfl

theorem map_bind {α β γ : Type} (first : Except Failure α) (next : α → Except Failure β)
    (f : β → γ) : (first >>= next).map f = first >>= fun value => (next value).map f := by
  cases first <;> rfl

theorem bind_congr_right {α β : Type} {first : Except Failure α}
    {next next' : α → Except Failure β} (same : ∀ value, next value = next' value) :
    (first >>= next) = first >>= next' := by
  rw [funext same]

/-- A number as a word; a step panics when it does not fit. -/
def word (value : Nat) : Except Failure U256 :=
  orPanic (U256.ofNat? value)

theorem word_of_lt {value : Nat} (fits : value < 2 ^ 256) : word value = .ok ⟨value, fits⟩ := by
  rw [word, U256.ofNat?, dif_pos fits]
  rfl

theorem word_of_le {value : Nat} (exceeds : 2 ^ 256 ≤ value) : word value = .error .panic := by
  rw [word, U256.ofNat?, dif_neg (Nat.not_lt.mpr exceeds)]
  rfl

end CasperContracts.Host
