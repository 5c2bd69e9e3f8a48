import CasperContracts.Vesting.Book

/-!
# Exactly the packed locks

A packed lock is 80 bytes of fields followed by 40 bytes for each schedule, and
every string of such a length is one.  So `unpack` accepts the packed locks and
nothing else: it panics on what is too short and reverts on what is left over.
-/

namespace CasperContracts.Vesting

open CasperContracts.Basis Host
open Staking (slice u64Bytes fixedWidth_u64Bytes fixedWidth_hash)

namespace VestInfo

theorem fixedWidth_packSchedule : FixedWidth packSchedule 40 where
  length := length_packSchedule
  covers := by
    intro bytes width
    obtain ⟨release, rest, rfl, restWidth⟩ :=
      fixedWidth_u64Bytes.cut (show 8 ≤ bytes.length by omega)
    obtain ⟨amount, rfl⟩ := U256.fixedWidth_toLittleEndian.covers rest (by omega)
    exact ⟨⟨release, amount⟩, packSchedule_eq _⟩

def PackedLength (length : Nat) : Prop :=
  80 ≤ length ∧ (length - 80) % 40 = 0

theorem exists_fields {src : List UInt8} (long : 80 ≤ src.length) :
    ∃ (id lockTime : UInt64) (recipient tokenHash : Bytes32) (rest : List UInt8),
      src = u64Bytes id ++
        (u64Bytes lockTime ++ (recipient.val ++ (tokenHash.val ++ rest))) ∧
      rest.length = src.length - 80 := by
  obtain ⟨id, rest, rfl, width⟩ := fixedWidth_u64Bytes.cut (show 8 ≤ src.length by omega)
  obtain ⟨lockTime, rest, rfl, width⟩ :=
    fixedWidth_u64Bytes.cut (show 8 ≤ rest.length by omega)
  obtain ⟨recipient, rest, rfl, width⟩ :=
    fixedWidth_hash.cut (show 32 ≤ rest.length by omega)
  obtain ⟨tokenHash, rest, rfl, width⟩ :=
    fixedWidth_hash.cut (show 32 ≤ rest.length by omega)
  exact ⟨id, lockTime, recipient, tokenHash, rest, rfl, by omega⟩

theorem exists_pack {src : List UInt8} (packed : PackedLength src.length) :
    ∃ info : VestInfo, info.pack = src := by
  obtain ⟨long, whole⟩ := packed
  obtain ⟨id, lockTime, recipient, tokenHash, rest, rfl, width⟩ := exists_fields long
  have count : rest.length = rest.length / 40 * 40 := by
    omega
  obtain ⟨schedules, rfl⟩ := fixedWidth_packSchedule.exists_flatMap count
  exact ⟨⟨id, lockTime, ⟨recipient⟩, ⟨tokenHash⟩, schedules⟩, pack_eq _⟩

theorem orPanic_bind_panic {α β : Type} {option : Option α} {next : α → Except Failure β}
    (panics : ∀ value, next value = .error .panic) :
    (orPanic option >>= next) = .error .panic := by
  cases option with
  | none => rfl
  | some value => exact panics value

theorem unpack_short {src : List UInt8} (short : src.length < 80) :
    unpack src = .error .panic := by
  have noRest : slice src 80 src.length = none := by
    unfold slice
    rw [if_neg]
    omega
  unfold unpack
  refine orPanic_bind_panic fun id => orPanic_bind_panic fun lockTime =>
    orPanic_bind_panic fun recipient => orPanic_bind_panic fun tokenHash => ?_
  rw [noRest]
  rfl

/-- One that is long enough is rejected when it ends inside a schedule. -/
theorem unpack_ragged {src : List UInt8} (long : 80 ≤ src.length)
    (ragged : (src.length - 80) % 40 ≠ 0) : unpack src = .error (.revert .formatting) := by
  obtain ⟨id, lockTime, recipient, tokenHash, rest, rfl, width⟩ := exists_fields long
  rw [← width] at ragged
  rw [unpack_fields, unpackAllSchedules, if_pos ragged]
  rfl

theorem exists_unpack_error {src : List UInt8} (unpacked : ¬ PackedLength src.length) :
    ∃ failure, unpack src = .error failure := by
  by_cases long : 80 ≤ src.length
  · exact ⟨_, unpack_ragged long fun whole => unpacked ⟨long, whole⟩⟩
  · exact ⟨_, unpack_short (Nat.lt_of_not_le long)⟩

theorem unpack_eq_ok {src : List UInt8} {info : VestInfo} :
    unpack src = .ok info ↔ info.pack = src := by
  constructor
  · intro success
    by_cases packed : PackedLength src.length
    · obtain ⟨info', rfl⟩ := exists_pack packed
      rw [unpack_pack, Except.ok.injEq] at success
      rw [success]
    · obtain ⟨failure, failed⟩ := exists_unpack_error packed
      rw [failed] at success
      cases success
  · intro same
    rw [← same, unpack_pack]

end VestInfo

open VestInfo in
/-- Packing and unpacking are inverse to each other between the locks and the
strings of 80 bytes and a multiple of 40; `unpack` fails on every other string,
and the raw reader of the recipient agrees with it, so a packed lock lets exactly
its recipient through. -/
theorem packed_locks_exact :
    (∀ info : VestInfo, unpack info.pack = .ok info) ∧
    (∀ src : List UInt8, 80 ≤ src.length → (src.length - 80) % 40 = 0 →
      ∃ info, unpack src = .ok info ∧ info.pack = src) ∧
    (∀ src : List UInt8, ¬ (80 ≤ src.length ∧ (src.length - 80) % 40 = 0) →
      ∃ failure, unpack src = .error failure) ∧
    (∀ (src : List UInt8) (info : VestInfo), unpack src = .ok info →
      unpackRecipient src = .ok info.recipient.value.val) ∧
    ∀ (context : Context) (info : VestInfo),
      callerIsRecipient context info.pack = .ok () ↔ info.recipient = context.caller := by
  refine ⟨unpack_pack, ?_, fun src => exists_unpack_error, ?_, ?_⟩
  · intro src long whole
    obtain ⟨info, rfl⟩ := exists_pack ⟨long, whole⟩
    exact ⟨info, info.unpack_pack, rfl⟩
  · intro src info success
    obtain rfl := unpack_eq_ok.mp success
    exact info.unpackRecipient_pack
  · intro context info
    exact Represents.callerIsRecipient_eq_ok

open VestInfo in
/-- A string of 120 zeros is a lock with one schedule, one of 119 zeros is none. -/
theorem packed_locks_exact_zeros :
    (∃ info, unpack (List.replicate 120 0) = .ok info ∧
      info.pack = List.replicate 120 0) ∧
    ∃ failure, unpack (List.replicate 119 0) = .error failure :=
  ⟨packed_locks_exact.2.1 _ (by decide) (by decide),
    packed_locks_exact.2.2.1 _ (by decide)⟩

end CasperContracts.Vesting
