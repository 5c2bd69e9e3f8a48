import Mathlib.Algebra.BigOperators.Intervals
import Mathlib.Algebra.Order.Floor.Semifield
import Mathlib.Data.Nat.Cast.Order.Field
import Mathlib.Data.Rat.Floor
import Mathlib.Tactic.FieldSimp
import Mathlib.Tactic.Linarith
import Mathlib.Tactic.Ring

/-!
# Sharing second by second

The plain way to share a reward that comes in at a constant rate is to split the rate of
every second in proportion to the stakes of that second.  An accumulator does not look at
the seconds: it grows when it is touched, and a member is paid for the growth since it was
last settled.  `Tracks` says that what a member of an accumulator has got and is owed is
its plain share, up to the rounding of its settlements and of the touches.
-/

namespace CasperContracts.Basis

/-- What a stake gets of a rate in the seconds from `start` to `stop` when every second is
split in proportion to the stakes it finds. -/
def plainShare (rate : ℚ) (stake total : ℕ → ℕ) (start stop : ℕ) : ℚ :=
  ∑ second ∈ Finset.Ico start stop, rate * (stake second / total second)

section Plain

variable {rate : ℚ} {stake total stake' total' : ℕ → ℕ} {start middle stop : ℕ}

theorem plainShare_of_le (none : stop ≤ start) :
    plainShare rate stake total start stop = 0 := by
  rw [plainShare, Finset.Ico_eq_empty (Nat.not_lt.mpr none), Finset.sum_empty]

theorem plainShare_add (early : start ≤ middle) (late : middle ≤ stop) :
    plainShare rate stake total start middle + plainShare rate stake total middle stop =
      plainShare rate stake total start stop :=
  Finset.sum_Ico_consecutive _ early late

theorem plainShare_congr
    (same : ∀ second, start ≤ second → second < stop →
      stake second = stake' second ∧ total second = total' second) :
    plainShare rate stake total start stop = plainShare rate stake' total' start stop := by
  apply Finset.sum_congr rfl
  intro second member
  obtain ⟨begun, notOver⟩ := Finset.mem_Ico.mp member
  obtain ⟨sameStake, sameTotal⟩ := same second begun notOver
  rw [sameStake, sameTotal]

/-- While nobody comes or goes, all seconds are split alike. -/
theorem plainShare_const {amount whole : ℕ}
    (same : ∀ second, start ≤ second → second < stop →
      stake second = amount ∧ total second = whole) :
    plainShare rate stake total start stop =
      (stop - start : ℕ) * (rate * (amount / whole)) := by
  rw [plainShare_congr same, plainShare, Finset.sum_const, Nat.card_Ico, nsmul_eq_mul]

end Plain

/-! ## One member of an accumulator -/

/-- What concerns one member: the accumulator, its stake and its debt, what it has been
paid, and counts of its settlements and of the times the accumulator was touched. -/
structure Member where
  acc : ℕ
  stake : ℕ
  debt : ℕ
  paid : ℕ
  settlements : ℕ
  touches : ℕ

namespace Member

/-- What the member has got, with what its stake has earned since, before rounding. -/
def value (scale : ℕ) (member : Member) : ℚ :=
  member.paid + member.stake * member.acc / scale - member.debt

/-- The member has its plain share, up to one unit for each settlement and, where it falls
short, up to one unit and the rounding of its stake for each touch. -/
structure Tracks (scale most : ℕ) (member : Member) (plain : ℚ) : Prop where
  above : member.value scale ≤ plain + (member.settlements + 1)
  below : plain ≤ member.value scale + member.settlements +
    member.touches * (1 + most / scale)

variable {scale most : ℕ} {member : Member} {plain : ℚ}

theorem quotient_bounds {value scale quotient : ℕ} (rounded : value / scale = quotient) :
    (quotient : ℚ) ≤ value / scale ∧ (value / scale : ℚ) < quotient + 1 := by
  rw [← rounded]
  refine ⟨Nat.cast_div_le, ?_⟩
  rw [← Nat.floor_div_eq_div (K := ℚ)]
  exact Nat.lt_floor_add_one _

theorem Tracks.start {acc stake debt due : ℕ} (owed : stake * acc / scale = due + debt) :
    Tracks scale most
      { acc, stake, debt, paid := 0, settlements := 0, touches := 0 } due := by
  obtain ⟨lower, upper⟩ := quotient_bounds owed
  push_cast at lower upper
  constructor
  · simp only [value, Nat.cast_zero]
    linarith
  · simp only [value, Nat.cast_zero]
    linarith

theorem Tracks.credit {growth : ℕ} {gain : ℚ} (tracks : Tracks scale most member plain)
    (lower : member.stake * growth / scale ≤ gain)
    (upper : gain ≤ member.stake * growth / scale + 1 + most / scale) :
    Tracks scale most
      { member with acc := member.acc + growth, touches := member.touches + 1 }
      (plain + gain) := by
  have above := tracks.above
  have below := tracks.below
  have grown : (member.stake * ((member.acc + growth : ℕ) : ℚ) / scale) =
      member.stake * member.acc / scale + member.stake * growth / scale := by
    push_cast
    ring
  simp only [value] at above below
  constructor
  · simp only [value, grown]
    linarith
  · simp only [value, grown]
    push_cast
    linarith

/-- A touch without effect. -/
theorem Tracks.more {touches : ℕ} (tracks : Tracks scale most member plain)
    (le : member.touches ≤ touches) : Tracks scale most { member with touches } plain where
  above := tracks.above
  below := by
    have below := tracks.below
    have dust : (0 : ℚ) ≤ 1 + most / scale := by positivity
    have counted : (member.touches * (1 + most / scale) : ℚ) ≤
        touches * (1 + most / scale) :=
      mul_le_mul_of_nonneg_right (by exact_mod_cast le) dust
    simp only [value] at below ⊢
    linarith

theorem Tracks.settle {pay : ℕ} (tracks : Tracks scale most member plain) (stake' : ℕ)
    (owed : member.stake * member.acc / scale = pay + member.debt) :
    Tracks scale most
      { member with
        stake := stake'
        debt := stake' * member.acc / scale
        paid := member.paid + pay
        settlements := member.settlements + 1 } plain := by
  have above := tracks.above
  have below := tracks.below
  obtain ⟨oldLower, oldUpper⟩ := quotient_bounds owed
  obtain ⟨newLower, newUpper⟩ := quotient_bounds (Eq.refl (stake' * member.acc / scale))
  simp only [value] at above below
  push_cast at oldLower oldUpper newLower newUpper
  constructor
  · simp only [value]
    push_cast
    linarith
  · simp only [value]
    push_cast
    linarith

theorem Tracks.pending {due : ℕ} (tracks : Tracks scale most member plain)
    (owed : member.stake * member.acc / scale = due + member.debt) :
    (member.paid + due : ℚ) ≤ plain + (member.settlements + 1) ∧
      plain ≤ member.paid + due + (member.settlements + 1) +
        member.touches * (1 + most / scale) := by
  have above := tracks.above
  have below := tracks.below
  obtain ⟨lower, upper⟩ := quotient_bounds owed
  simp only [value] at above below
  push_cast at lower upper
  constructor <;> linarith

end Member

/-! ## One touch -/

/-- A reward is rounded down, and so is its quotient by the total stake at the scale of
the accumulator: what a stake earns is short of its plain share by less than a unit and
the rounding of the stake. -/
theorem share_of_rounded {seconds reward window rewards growth scale stake total most : ℕ}
    (positive : 0 < scale) (within : stake ≤ total) (bounded : stake ≤ most)
    (rounded : rewards = seconds * reward / window)
    (shared : growth = rewards * scale / total) :
    (stake * growth / scale : ℚ) ≤ seconds * (reward / window * (stake / total)) ∧
      seconds * (reward / window * (stake / total) : ℚ) ≤
        stake * growth / scale + 1 + most / scale := by
  have unit : (0 : ℚ) < scale := by exact_mod_cast positive
  have part : (stake / total : ℚ) ≤ 1 := by
    rcases Nat.eq_zero_or_pos total with none | some
    · rw [none, Nat.cast_zero, div_zero]
      exact zero_le_one
    · rw [div_le_one (by exact_mod_cast some)]
      exact_mod_cast within
  have notNegative : (0 : ℚ) ≤ stake / total := by positivity
  obtain ⟨rewardsLower, rewardsUpper⟩ := Member.quotient_bounds rounded.symm
  rw [Nat.cast_mul, mul_div_assoc] at rewardsLower rewardsUpper
  obtain ⟨lower, upper⟩ := Member.quotient_bounds shared.symm
  rw [Nat.cast_mul, ← div_mul_eq_mul_div] at lower upper
  -- the growth, counted in units of the reward
  have growthLower : (growth / scale : ℚ) ≤ rewards / total :=
    (div_le_iff₀ unit).mpr lower
  have growthUpper : (rewards / total : ℚ) ≤ (growth + 1) / scale :=
    (le_div_iff₀ unit).mpr upper.le
  have own : (0 : ℚ) ≤ stake := by positivity
  constructor
  · calc (stake * growth / scale : ℚ) = stake * (growth / scale) := mul_div_assoc _ _ _
      _ ≤ stake * (rewards / total) := mul_le_mul_of_nonneg_left growthLower own
      _ = rewards * (stake / total) := by ring
      _ ≤ seconds * (reward / window) * (stake / total) :=
          mul_le_mul_of_nonneg_right rewardsLower notNegative
      _ = _ := by ring
  · have dust : (stake / scale : ℚ) ≤ most / scale := by
      apply div_le_div_of_nonneg_right _ unit.le
      exact_mod_cast bounded
    calc (seconds * (reward / window * (stake / total)) : ℚ)
        = seconds * (reward / window) * (stake / total) := by ring
      _ ≤ (rewards + 1) * (stake / total) :=
          mul_le_mul_of_nonneg_right rewardsUpper.le notNegative
      _ = stake * (rewards / total) + stake / total := by ring
      _ ≤ stake * ((growth + 1) / scale) + 1 :=
          add_le_add (mul_le_mul_of_nonneg_left growthUpper own) part
      _ = stake * growth / scale + stake / scale + 1 := by ring
      _ ≤ _ := by linarith

end CasperContracts.Basis
