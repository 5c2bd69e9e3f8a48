import CasperContracts.Staking.Codec

/-!
# Lock records

The record of a lock, its packed bytes of variable length, and the raw reader
of the recipient, which does not unpack the record.
-/

namespace CasperContracts.Vesting

open CasperContracts.Basis Host
open Staking (pushRange slice wordBuffer u64Bytes u64FromLeBytes)
open Staking (slice_front slice_skip slice_all pushRange_u64 pushRange_hash)

structure LockSchedule where
  release : UInt64
  amount : U256
  deriving DecidableEq

structure VestInfo where
  id : UInt64
  lockTime : UInt64
  recipient : AccountHash
  tokenHash : ContractHash
  schedules : List LockSchedule
  deriving DecidableEq

namespace VestInfo

/-- The first 8 bytes are the release, the other 32 the amount. -/
def packSchedule (src : LockSchedule) : List UInt8 :=
  (u64Bytes src.release).take 8 ++ (wordBuffer src.amount).take 32

def pack (info : VestInfo) : List UInt8 :=
  u64Bytes info.id ++
  pushRange 8 16 (u64Bytes info.lockTime) ++
  pushRange 16 48 info.recipient.value.val ++
  pushRange 48 80 info.tokenHash.value.val ++
  info.schedules.flatMap packSchedule

def unpackSchedule (src : List UInt8) : Option LockSchedule := do
  let release ← u64FromLeBytes (← slice src 0 8)
  let amount ← U256.fromLittleEndian (← slice src 8 40)
  return { release, amount }

/-- The offsets stay below the length of `src`, so their checked arithmetic does
not fail. -/
def unpackAllSchedules (src : List UInt8) : Except Failure (List LockSchedule) :=
  if src.length % 40 ≠ 0 then
    .error (.revert .formatting)
  else
    let totalSchedules := src.length / 40
    (List.range totalSchedules).mapM fun counter =>
      let offset := counter * 40
      orPanic ((slice src offset (offset + 40)).bind unpackSchedule)

def unpack (src : List UInt8) : Except Failure VestInfo := do
  let id ← orPanic ((slice src 0 8).bind u64FromLeBytes)
  let lockTime ← orPanic ((slice src 8 16).bind u64FromLeBytes)
  let recipient ← orPanic ((slice src 16 48).bind bytes32?)
  let tokenHash ← orPanic ((slice src 48 80).bind bytes32?)
  let sliceSchedules ← orPanic (slice src 80 src.length)
  let schedules ← unpackAllSchedules sliceSchedules
  return { id, lockTime, recipient := ⟨recipient⟩, tokenHash := ⟨tokenHash⟩, schedules }

/-- The 32 bytes of the recipient, without unpacking the rest. -/
def unpackRecipient (src : List UInt8) : Except Failure (List UInt8) :=
  orPanic (slice src 16 48)

def clearEntry : List UInt8 := []

/-! ## Round trips -/

section RoundTrip

variable (info : VestInfo) (schedule : LockSchedule) (schedules : List LockSchedule)

theorem packSchedule_eq :
    packSchedule schedule = u64Bytes schedule.release ++ schedule.amount.toLittleEndian := by
  have whole : (u64Bytes schedule.release).take 8 = u64Bytes schedule.release :=
    List.take_of_length_le (by simp)
  simp [packSchedule, whole]

@[simp] theorem length_packSchedule : (packSchedule schedule).length = 40 := by
  simp [packSchedule_eq]

@[simp] theorem unpackSchedule_packSchedule :
    unpackSchedule (packSchedule schedule) = some schedule := by
  simp [unpackSchedule, packSchedule_eq, slice_front, slice_skip, slice_all]

@[simp] theorem length_packSchedules :
    (schedules.flatMap packSchedule).length = 40 * schedules.length := by
  induction schedules with
  | nil => rfl
  | cons schedule schedules ih =>
      rw [List.flatMap_cons, List.length_append, ih, length_packSchedule, List.length_cons]
      omega

variable {schedules} in
theorem slice_packSchedules {counter : Nat} (inside : counter < schedules.length) :
    (slice (schedules.flatMap packSchedule) (counter * 40) (counter * 40 + 40)).bind
      unpackSchedule = some schedules[counter] := by
  induction schedules generalizing counter with
  | nil => simp at inside
  | cons schedule schedules ih =>
      rw [List.flatMap_cons]
      cases counter with
      | zero => simp [slice_front]
      | succ counter =>
          have next : (counter + 1) * 40 - 40 = counter * 40 := by omega
          have nextEnd : (counter + 1) * 40 + 40 - 40 = counter * 40 + 40 := by omega
          have beyond : (packSchedule schedule).length ≤ (counter + 1) * 40 := by
            rw [length_packSchedule]
            omega
          rw [slice_skip beyond (Nat.le_add_right _ _), length_packSchedule, next, nextEnd]
          exact ih (Nat.lt_of_succ_lt_succ inside)

@[simp] theorem unpackAllSchedules_packSchedules :
    unpackAllSchedules (schedules.flatMap packSchedule) = .ok schedules := by
  have whole : 40 * schedules.length / 40 = schedules.length := by omega
  simp only [unpackAllSchedules, length_packSchedules, Nat.mul_mod_right, ne_eq,
    not_true_eq_false, if_false, whole]
  rw [mapM_eq_ok, List.forall₂_iff_get]
  refine ⟨List.length_range, fun counter _ inside => ?_⟩
  simp [slice_packSchedules inside]

theorem pack_eq :
    info.pack = u64Bytes info.id ++ (u64Bytes info.lockTime ++ (info.recipient.value.val ++
      (info.tokenHash.value.val ++ info.schedules.flatMap packSchedule))) := by
  simp only [pack, pushRange_u64, pushRange_hash, List.append_assoc]

@[simp] theorem length_pack : info.pack.length = 80 + 40 * info.schedules.length := by
  have width (hash : Bytes32) : hash.val.length = 32 := hash.property
  simp only [pack_eq, List.length_append, Staking.length_u64Bytes, width,
    length_packSchedules]
  omega

theorem pack_ne_nil : info.pack ≠ clearEntry := by
  intro empty
  have length := congrArg List.length empty
  rw [length_pack] at length
  simp [clearEntry] at length

/-- Behind the fields of fixed length, `unpack` reads the schedules. -/
theorem unpack_fields (id lockTime : UInt64) (recipient tokenHash : Bytes32)
    (rest : List UInt8) :
    unpack (u64Bytes id ++ (u64Bytes lockTime ++ (recipient.val ++ (tokenHash.val ++ rest)))) =
      (unpackAllSchedules rest).map fun schedules =>
        { id, lockTime, recipient := ⟨recipient⟩, tokenHash := ⟨tokenHash⟩, schedules } := by
  have width (hash : Bytes32) : hash.val.length = 32 := hash.property
  have behind : slice (u64Bytes id ++ (u64Bytes lockTime ++ (recipient.val ++
      (tokenHash.val ++ rest)))) 80 (8 + (8 + (32 + (32 + rest.length)))) = some rest := by
    rw [slice_skip (by simp) (by omega), slice_skip (by simp) (by simp; omega),
      slice_skip (by simp [width]) (by simp; omega),
      slice_skip (by simp [width]) (by simp [width])]
    simp only [Staking.length_u64Bytes, width]
    exact slice_all (by omega)
  simp only [unpack, List.length_append, Staking.length_u64Bytes, width, behind]
  simp [slice_skip, slice_front, width, orPanic]
  rfl

@[simp] theorem unpack_pack : unpack info.pack = .ok info := by
  rw [pack_eq, unpack_fields, unpackAllSchedules_packSchedules]
  rfl

/-- The raw reader and the packer agree on where the recipient is. -/
@[simp] theorem unpackRecipient_pack :
    unpackRecipient info.pack = .ok info.recipient.value.val := by
  have width : info.recipient.value.val.length = 32 := info.recipient.value.property
  simp [unpackRecipient, pack_eq, slice_skip, slice_front, width]

end RoundTrip

end VestInfo

end CasperContracts.Vesting
