import Mathlib.Tactic.Ring

/-!
# Little-endian words

A word of a given width as its bytes, least significant first, and the two
inverse laws: every value below `256 ^ width` survives the round trip, and
every byte string is the encoding of its value.
-/

namespace CasperContracts.Basis

/-- The `width` low-order bytes of a number, least significant first. -/
def leBytes : Nat → Nat → List UInt8
  | 0, _ => []
  | width + 1, value => UInt8.ofNat (value % 256) :: leBytes width (value / 256)

def leValue : List UInt8 → Nat
  | [] => 0
  | byte :: bytes => byte.toNat + 256 * leValue bytes

@[simp] theorem length_leBytes (width value : Nat) :
    (leBytes width value).length = width := by
  induction width generalizing value with
  | zero => rfl
  | succ width ih => simp [leBytes, ih]

theorem leValue_lt (bytes : List UInt8) : leValue bytes < 256 ^ bytes.length := by
  induction bytes with
  | nil => simp [leValue]
  | cons byte bytes ih =>
      have small : byte.toNat < 256 := byte.toNat_lt
      simp only [leValue, List.length_cons, pow_succ]
      omega

theorem leValue_leBytes {width value : Nat} (fits : value < 256 ^ width) :
    leValue (leBytes width value) = value := by
  induction width generalizing value with
  | zero =>
      have zero : value = 0 := by simpa using fits
      simp [leBytes, leValue, zero]
  | succ width ih =>
      have rest : value / 256 < 256 ^ width := by
        rw [pow_succ] at fits
        omega
      have low : (UInt8.ofNat (value % 256)).toNat = value % 256 := by
        simp
      simp only [leBytes, leValue, ih rest, low]
      omega

theorem leBytes_leValue (bytes : List UInt8) :
    leBytes bytes.length (leValue bytes) = bytes := by
  induction bytes with
  | nil => rfl
  | cons byte bytes ih =>
      have small : byte.toNat < 256 := byte.toNat_lt
      have low : (byte.toNat + 256 * leValue bytes) % 256 = byte.toNat := by
        omega
      have high : (byte.toNat + 256 * leValue bytes) / 256 = leValue bytes := by
        omega
      simp only [leValue, List.length_cons, leBytes, low, high, ih, UInt8.ofNat_toNat]

end CasperContracts.Basis
