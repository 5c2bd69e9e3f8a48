import CasperContracts.Host.Types

/-!
# Dictionary item keys

Numbered records live under the first fifteen characters of a printed hash
followed by the number in decimal.  The prefix has a fixed length and decimal
printing is injective, so a key determines both parts.  A whole printed hash
determines the hash.
-/

namespace CasperContracts.Host

/-- The part of a printed hash that goes into a dictionary key. -/
abbrev KeyPrefix := { chars : List Char // chars.length = 15 }

private theorem length_preKey (hash : Bytes32) :
    ((encodeLower hash.val).take 15).length = 15 := by
  simp [hash.property]

def AccountHash.keyPrefix (account : AccountHash) : KeyPrefix :=
  ⟨account.toChars.take 15, length_preKey account.value⟩

def ContractPackageHash.keyPrefix (hash : ContractPackageHash) : KeyPrefix :=
  ⟨hash.toChars.take 15, length_preKey hash.value⟩

/-- What a key stands for: a prefix and a number. -/
abbrev RecordKey := KeyPrefix × UInt64

def RecordKey.encode (key : RecordKey) : DictKey :=
  key.1.val ++ decimal key.2

theorem RecordKey.encode_injective : Function.Injective RecordKey.encode := by
  intro key key' same
  obtain ⟨left, leftId⟩ := key
  obtain ⟨right, rightId⟩ := key'
  have sameLength : left.val.length = right.val.length := by
    rw [left.property, right.property]
  obtain ⟨samePrefix, sameDecimal⟩ := List.append_inj same sameLength
  exact Prod.ext (Subtype.ext samePrefix) (decimal_injective sameDecimal)

/-- The part of an encoded key behind the prefix is the decimal number. -/
theorem RecordKey.drop_encode (key : RecordKey) :
    key.encode.drop 15 = decimal key.2 := by
  rw [encode, List.drop_append, List.drop_of_length_le (by rw [key.1.property]),
    key.1.property]
  rfl

def numberedKey (preKey : KeyPrefix) (number : UInt64) : DictKey :=
  RecordKey.encode (preKey, number)

theorem numberedKey_injective (preKey : KeyPrefix) :
    Function.Injective (numberedKey preKey) :=
  fun _ _ same => congrArg Prod.snd (RecordKey.encode_injective same)

/-! ## Printed hashes -/

private theorem digitChar_injective : ∀ a b : Fin 16,
    Nat.digitChar a.val = Nat.digitChar b.val → a = b := by decide

private theorem encodeByte_injective {a b : UInt8}
    (high : Nat.digitChar (a.toNat / 16) = Nat.digitChar (b.toNat / 16))
    (low : Nat.digitChar (a.toNat % 16) = Nat.digitChar (b.toNat % 16)) : a = b := by
  have digits (byte : UInt8) : byte.toNat / 16 < 16 := by
    have := byte.toNat_lt
    omega
  have sameHigh := digitChar_injective ⟨_, digits a⟩ ⟨_, digits b⟩ high
  have sameLow := digitChar_injective ⟨_, Nat.mod_lt a.toNat (by decide)⟩
    ⟨_, Nat.mod_lt b.toNat (by decide)⟩ low
  rw [Fin.mk.injEq] at sameHigh sameLow
  apply UInt8.toNat_inj.mp
  omega

theorem encodeLower_injective : Function.Injective encodeLower := by
  intro left right same
  induction left generalizing right with
  | nil =>
      have length := congrArg List.length same
      rw [length_encodeLower, length_encodeLower] at length
      exact (List.length_eq_zero_iff.mp (by simpa using length.symm)).symm
  | cons byte left ih =>
      cases right with
      | nil =>
          have length := congrArg List.length same
          rw [length_encodeLower, length_encodeLower] at length
          simp at length
      | cons byte' right =>
          simp only [encodeLower, List.flatMap_cons, List.cons_append, List.nil_append,
            List.cons.injEq] at same
          obtain ⟨high, low, rest⟩ := same
          rw [encodeByte_injective high low, ih rest]

theorem AccountHash.toChars_injective : Function.Injective AccountHash.toChars := by
  intro left right same
  exact congrArg AccountHash.mk (Subtype.ext (encodeLower_injective same))

end CasperContracts.Host
