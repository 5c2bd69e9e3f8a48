import CasperContracts.Basis.FixedWidth
import CasperContracts.Basis.LittleEndian

/-!
# Checked 256-bit words

Unsigned 256-bit numbers whose arithmetic is partial: a result that does not
fit, a difference below zero and a division by zero have no value.  Every
operation comes with the equation on natural numbers that its success means.
-/

namespace CasperContracts.Basis

/-- A natural number below `2 ^ 256`. -/
@[ext] structure U256 where
  toNat : Nat
  isLt : toNat < 2 ^ 256
  deriving DecidableEq

namespace U256

def ofNat? (value : Nat) : Option U256 :=
  if fits : value < 2 ^ 256 then some ⟨value, fits⟩ else none

def zero : U256 := ⟨0, by decide⟩

def ten : U256 := ⟨10, by decide⟩

def ofUInt64 (value : UInt64) : U256 :=
  ⟨value.toNat, lt_trans value.toNat_lt (by decide)⟩

def isZero (a : U256) : Bool := a.toNat == 0

def checkedAdd (a b : U256) : Option U256 := ofNat? (a.toNat + b.toNat)

def checkedSub (a b : U256) : Option U256 :=
  if b.toNat ≤ a.toNat then ofNat? (a.toNat - b.toNat) else none

def checkedMul (a b : U256) : Option U256 := ofNat? (a.toNat * b.toNat)

def checkedDiv (a b : U256) : Option U256 :=
  if b.toNat = 0 then none else ofNat? (a.toNat / b.toNat)

def checkedPow (a b : U256) : Option U256 := ofNat? (a.toNat ^ b.toNat)

/-- The 32 bytes of a word, least significant first. -/
def toLittleEndian (a : U256) : List UInt8 := leBytes 32 a.toNat

def fromLittleEndian (bytes : List UInt8) : Option U256 :=
  if fits : bytes.length ≤ 32 then
    some ⟨leValue bytes, lt_of_lt_of_le (leValue_lt bytes)
      (le_trans (Nat.pow_le_pow_right (by decide) fits) (by decide))⟩
  else
    none

@[simp] theorem toNat_zero : zero.toNat = 0 := rfl

@[simp] theorem toNat_ten : ten.toNat = 10 := rfl

@[simp] theorem toNat_ofUInt64 (value : UInt64) :
    (ofUInt64 value).toNat = value.toNat := rfl

@[simp] theorem isZero_iff {a : U256} : a.isZero = true ↔ a.toNat = 0 := by
  simp [isZero]

theorem toNat_injective {a b : U256} (same : a.toNat = b.toNat) : a = b :=
  U256.ext same

theorem ofNat?_eq_some {value : Nat} {a : U256} :
    ofNat? value = some a ↔ a.toNat = value := by
  unfold ofNat?
  constructor
  · intro success
    split at success
    · cases success
      rfl
    · cases success
  · intro same
    subst same
    exact dif_pos a.isLt

theorem checkedAdd_eq_some {a b c : U256} :
    a.checkedAdd b = some c ↔ c.toNat = a.toNat + b.toNat :=
  ofNat?_eq_some

theorem checkedSub_eq_some {a b c : U256} :
    a.checkedSub b = some c ↔ a.toNat = c.toNat + b.toNat := by
  unfold checkedSub
  split
  · rw [ofNat?_eq_some]
    omega
  · constructor
    · intro success
      cases success
    · intro equation
      omega

theorem isSome_checkedSub {a b : U256} :
    (a.checkedSub b).isSome ↔ b.toNat ≤ a.toNat := by
  rw [Option.isSome_iff_exists]
  constructor
  · intro given
    obtain ⟨c, difference⟩ := given
    rw [checkedSub_eq_some] at difference
    omega
  · intro le
    exact ⟨⟨a.toNat - b.toNat, lt_of_le_of_lt (Nat.sub_le _ _) a.isLt⟩,
      checkedSub_eq_some.mpr (Nat.sub_add_cancel le).symm⟩

theorem checkedMul_eq_some {a b c : U256} :
    a.checkedMul b = some c ↔ c.toNat = a.toNat * b.toNat :=
  ofNat?_eq_some

theorem checkedDiv_eq_some {a b c : U256} :
    a.checkedDiv b = some c ↔ 0 < b.toNat ∧ c.toNat = a.toNat / b.toNat := by
  unfold checkedDiv
  split
  · rename_i divisorZero
    simp [divisorZero]
  · rename_i divisorNonzero
    rw [ofNat?_eq_some]
    simp [Nat.pos_of_ne_zero divisorNonzero]

theorem checkedPow_eq_some {a b c : U256} :
    a.checkedPow b = some c ↔ c.toNat = a.toNat ^ b.toNat :=
  ofNat?_eq_some

/-! The operations have a value where the number fits. -/

theorem exists_ofNat? {value : Nat} (fits : value < 2 ^ 256) :
    ∃ a, ofNat? value = some a ∧ a.toNat = value :=
  ⟨⟨value, fits⟩, dif_pos fits, rfl⟩

theorem exists_checkedAdd {a b : U256} (fits : a.toNat + b.toNat < 2 ^ 256) :
    ∃ c, a.checkedAdd b = some c ∧ c.toNat = a.toNat + b.toNat :=
  exists_ofNat? fits

theorem exists_checkedSub {a b : U256} (le : b.toNat ≤ a.toNat) :
    ∃ c, a.checkedSub b = some c ∧ c.toNat = a.toNat - b.toNat := by
  obtain ⟨c, difference⟩ := Option.isSome_iff_exists.mp (isSome_checkedSub.mpr le)
  have equation := checkedSub_eq_some.mp difference
  exact ⟨c, difference, by omega⟩

theorem exists_checkedMul {a b : U256} (fits : a.toNat * b.toNat < 2 ^ 256) :
    ∃ c, a.checkedMul b = some c ∧ c.toNat = a.toNat * b.toNat :=
  exists_ofNat? fits

theorem exists_checkedDiv {a b : U256} (nonzero : 0 < b.toNat) :
    ∃ c, a.checkedDiv b = some c ∧ c.toNat = a.toNat / b.toNat := by
  have fits := lt_of_le_of_lt (Nat.div_le_self a.toNat b.toNat) a.isLt
  exact ⟨⟨_, fits⟩, checkedDiv_eq_some.mpr ⟨nonzero, rfl⟩, rfl⟩

theorem exists_checkedPow {a b : U256} (fits : a.toNat ^ b.toNat < 2 ^ 256) :
    ∃ c, a.checkedPow b = some c ∧ c.toNat = a.toNat ^ b.toNat :=
  exists_ofNat? fits

@[simp] theorem length_toLittleEndian (a : U256) :
    a.toLittleEndian.length = 32 :=
  length_leBytes 32 a.toNat

@[simp] theorem fromLittleEndian_toLittleEndian (a : U256) :
    fromLittleEndian a.toLittleEndian = some a := by
  have fits : a.toNat < 256 ^ 32 := lt_of_lt_of_le a.isLt (by decide)
  simp [fromLittleEndian, toLittleEndian, leValue_leBytes fits]

theorem fixedWidth_toLittleEndian : FixedWidth toLittleEndian 32 where
  length := length_toLittleEndian
  covers := by
    intro bytes width
    have fits := leValue_lt bytes
    rw [width] at fits
    refine ⟨⟨leValue bytes, lt_of_lt_of_le fits (by decide)⟩, ?_⟩
    simp only [toLittleEndian]
    rw [← width]
    exact leBytes_leValue bytes

end U256

end CasperContracts.Basis
