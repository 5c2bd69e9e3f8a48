import CasperContracts.Staking.Pool

/-!
# Round trips of the packed records

Each loop of `pack` copies the front of its buffer, so a packed record is the
concatenation of its fields, and each slice of `unpack` cuts one of them out.
Every field has a fixed width and takes every value, so the packed records are
exactly the byte strings of their length.
-/

namespace CasperContracts.Staking

open CasperContracts.Basis Host

/-- A copying loop over `high - low` bytes pushes the front of its buffer. -/
theorem pushRange_eq_take {low high : Nat} {buffer : List UInt8}
    (long : high - low ≤ buffer.length) :
    pushRange low high buffer = buffer.take (high - low) := by
  apply List.ext_getElem
  · simp [pushRange, long]
  · intro i left right
    have inRange : i < high - low := by
      simpa [pushRange] using left
    have inBuffer : i < buffer.length := lt_of_lt_of_le inRange long
    simp [pushRange, List.getElem?_eq_getElem inBuffer]

@[simp] theorem length_pushRange (low high : Nat) (buffer : List UInt8) :
    (pushRange low high buffer).length = high - low := by
  simp [pushRange]

theorem slice_skip {field rest : List UInt8} {low high : Nat}
    (beyond : field.length ≤ low) (ordered : low ≤ high) :
    slice (field ++ rest) low high =
      slice rest (low - field.length) (high - field.length) := by
  have cut : (field ++ rest).drop low = rest.drop (low - field.length) := by
    rw [List.drop_append, List.drop_of_length_le beyond, List.nil_append]
  have width : high - field.length - (low - field.length) = high - low := by
    omega
  have bounds : (low ≤ high ∧ high ≤ (field ++ rest).length) ↔
      low - field.length ≤ high - field.length ∧ high - field.length ≤ rest.length := by
    rw [List.length_append]
    omega
  simp only [slice, bounds, cut, width]

theorem slice_front {field rest : List UInt8} {high : Nat}
    (width : field.length = high) :
    slice (field ++ rest) 0 high = some field := by
  subst width
  simp [slice]

theorem slice_all {field : List UInt8} {high : Nat} (width : field.length = high) :
    slice field 0 high = some field := by
  subst width
  simp [slice]

@[simp] theorem length_u64Bytes (value : UInt64) : (u64Bytes value).length = 8 :=
  length_leBytes 8 value.toNat

@[simp] theorem u64FromLeBytes_u64Bytes (value : UInt64) :
    u64FromLeBytes (u64Bytes value) = some value := by
  have fits : value.toNat < 256 ^ 8 := lt_of_lt_of_le value.toNat_lt (by decide)
  simp [u64FromLeBytes, u64Bytes, leValue_leBytes fits]

@[simp] theorem length_wordBuffer (value : U256) : (wordBuffer value).length = 64 := by
  simp [wordBuffer]

@[simp] theorem take_wordBuffer (value : U256) :
    (wordBuffer value).take 32 = value.toLittleEndian := by
  simp [wordBuffer]

theorem pushRange_u64 {low high : Nat} (value : UInt64) (width : high - low = 8) :
    pushRange low high (u64Bytes value) = u64Bytes value := by
  rw [pushRange_eq_take (by simp [width]), width]
  exact List.take_of_length_le (by simp)

theorem pushRange_hash {low high : Nat} (hash : Bytes32) (width : high - low = 32) :
    pushRange low high hash.val = hash.val := by
  rw [pushRange_eq_take (by simp [width, hash.property]), width]
  exact List.take_of_length_le (by simp [hash.property])

theorem pushRange_word {low high : Nat} (value : U256) (width : high - low = 32) :
    pushRange low high (wordBuffer value) = value.toLittleEndian := by
  rw [pushRange_eq_take (by simp [width]), width, take_wordBuffer]

theorem fixedWidth_u64Bytes : FixedWidth u64Bytes 8 where
  length := length_u64Bytes
  covers := by
    intro bytes width
    have fits := leValue_lt bytes
    rw [width] at fits
    refine ⟨UInt64.ofNat (leValue bytes), ?_⟩
    rw [u64Bytes, UInt64.toNat_ofNat_of_lt' (lt_of_lt_of_le fits (by decide)), ← width]
    exact leBytes_leValue bytes

theorem fixedWidth_hash : FixedWidth (fun hash : Bytes32 => hash.val) 32 where
  length := fun hash => hash.property
  covers := fun bytes width => ⟨⟨bytes, width⟩, rfl⟩

namespace UserInfo

theorem pack_eq (user : UserInfo) :
    user.pack = user.amount.toLittleEndian ++ user.rewardDebt.toLittleEndian := by
  simp [pack, pushRange_word]

@[simp] theorem length_pack (user : UserInfo) : user.pack.length = 64 := by
  simp [pack_eq]

@[simp] theorem unpack_pack (user : UserInfo) : unpack user.pack = some user := by
  simp [unpack, pack_eq, slice_skip, slice_front, slice_all]

theorem fixedWidth_pack : FixedWidth pack 64 where
  length := length_pack
  covers := by
    intro bytes width
    obtain ⟨amount, rest, rfl, restWidth⟩ :=
      U256.fixedWidth_toLittleEndian.cut (show 32 ≤ bytes.length by omega)
    obtain ⟨rewardDebt, rfl⟩ := U256.fixedWidth_toLittleEndian.covers rest (by omega)
    exact ⟨⟨amount, rewardDebt⟩, pack_eq _⟩

end UserInfo

namespace StakePool

theorem pack_eq (pool : StakePool) :
    pool.pack =
      u64Bytes pool.id ++
      u64Bytes pool.lastRewardTimestamp ++
      pool.stakingToken.value.val ++
      pool.rewardToken.value.val ++
      u64Bytes pool.startTime ++
      u64Bytes pool.endTime ++
      u64Bytes pool.precision ++
      pool.owner.value.val ++
      pool.totalReward.toLittleEndian ++
      pool.accTokenPerShare.toLittleEndian ++
      pool.totalStaked.toLittleEndian := by
  simp only [pack, pushRange_u64, pushRange_hash, pushRange_word]

@[simp] theorem length_pack (pool : StakePool) : pool.pack.length = 232 := by
  simp [pack]

@[simp] theorem unpack_pack (pool : StakePool) : unpack pool.pack = some pool := by
  have width (hash : Bytes32) : hash.val.length = 32 := hash.property
  simp [unpack, pack_eq, slice_skip, slice_front, slice_all, width]

/-- The raw reader and the packer agree on where the owner is. -/
@[simp] theorem unpackOwner_pack (pool : StakePool) :
    unpackOwner pool.pack = some pool.owner.value.val := by
  have width (hash : Bytes32) : hash.val.length = 32 := hash.property
  simp [unpackOwner, pack_eq, slice_skip, slice_front, width]

theorem fixedWidth_pack : FixedWidth pack 232 where
  length := length_pack
  covers := by
    intro bytes width
    obtain ⟨id, rest, rfl, long⟩ := fixedWidth_u64Bytes.cut (show 8 ≤ bytes.length by omega)
    obtain ⟨lastRewardTimestamp, rest, rfl, long⟩ :=
      fixedWidth_u64Bytes.cut (show 8 ≤ rest.length by omega)
    obtain ⟨stakingToken, rest, rfl, long⟩ :=
      fixedWidth_hash.cut (show 32 ≤ rest.length by omega)
    obtain ⟨rewardToken, rest, rfl, long⟩ :=
      fixedWidth_hash.cut (show 32 ≤ rest.length by omega)
    obtain ⟨startTime, rest, rfl, long⟩ :=
      fixedWidth_u64Bytes.cut (show 8 ≤ rest.length by omega)
    obtain ⟨endTime, rest, rfl, long⟩ :=
      fixedWidth_u64Bytes.cut (show 8 ≤ rest.length by omega)
    obtain ⟨precision, rest, rfl, long⟩ :=
      fixedWidth_u64Bytes.cut (show 8 ≤ rest.length by omega)
    obtain ⟨owner, rest, rfl, long⟩ := fixedWidth_hash.cut (show 32 ≤ rest.length by omega)
    obtain ⟨totalReward, rest, rfl, long⟩ :=
      U256.fixedWidth_toLittleEndian.cut (show 32 ≤ rest.length by omega)
    obtain ⟨accTokenPerShare, rest, rfl, long⟩ :=
      U256.fixedWidth_toLittleEndian.cut (show 32 ≤ rest.length by omega)
    obtain ⟨totalStaked, rfl⟩ := U256.fixedWidth_toLittleEndian.covers rest (by omega)
    refine ⟨{ id, lastRewardTimestamp, stakingToken := ⟨stakingToken⟩,
              rewardToken := ⟨rewardToken⟩, startTime, endTime, precision,
              owner := ⟨owner⟩, totalReward, accTokenPerShare, totalStaked }, ?_⟩
    simp only [pack_eq, List.append_assoc]

end StakePool

/-- The packed pool records are exactly the strings of 232 bytes, the packed user
records those of 64 bytes, packing and unpacking are inverse to each other, and
the raw reader of the owner reads the owner. -/
theorem packed_records_exact :
    (∀ pool : StakePool, pool.pack.length = 232 ∧ StakePool.unpack pool.pack = some pool) ∧
    (∀ bytes : List UInt8, bytes.length = 232 →
      ∃ pool, StakePool.unpack bytes = some pool ∧ pool.pack = bytes ∧
        StakePool.unpackOwner bytes = some pool.owner.value.val) ∧
    (∀ user : UserInfo, user.pack.length = 64 ∧ UserInfo.unpack user.pack = some user) ∧
    (∀ bytes : List UInt8, bytes.length = 64 →
      ∃ user, UserInfo.unpack bytes = some user ∧ user.pack = bytes) := by
  refine ⟨fun pool => ⟨pool.length_pack, pool.unpack_pack⟩, ?_,
    fun user => ⟨user.length_pack, user.unpack_pack⟩, ?_⟩
  · intro bytes width
    obtain ⟨pool, rfl⟩ := StakePool.fixedWidth_pack.covers bytes width
    exact ⟨pool, pool.unpack_pack, rfl, pool.unpackOwner_pack⟩
  · intro bytes width
    obtain ⟨user, rfl⟩ := UserInfo.fixedWidth_pack.covers bytes width
    exact ⟨user, user.unpack_pack, rfl⟩

/-- Strings of zeros are packed records. -/
theorem packed_records_exact_zeros :
    (∃ pool, StakePool.unpack (List.replicate 232 0) = some pool ∧
      pool.pack = List.replicate 232 0 ∧
      StakePool.unpackOwner (List.replicate 232 0) = some pool.owner.value.val) ∧
    ∃ user, UserInfo.unpack (List.replicate 64 0) = some user ∧
      user.pack = List.replicate 64 0 :=
  ⟨packed_records_exact.2.1 _ List.length_replicate,
    packed_records_exact.2.2.2 _ List.length_replicate⟩

end CasperContracts.Staking
