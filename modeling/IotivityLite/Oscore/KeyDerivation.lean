import IotivityLite.Foundation.Hkdf

/-!
# Key derivation

`HKDF_Extract`, `HKDF_Expand` and `HKDF_SHA256` of `oc_oscore_crypto.c`.  The
expansion puts the input of every round together in one buffer and collects
the digests in another.  HMAC-SHA256 is a keyed hash of 32 bytes.

The lengths of keys, of `info` and of the data of a hash are passed as
`uint8_t`, and so is the length of the output to `HKDF_SHA256`; the static
`HKDF_Expand` takes a `size_t`.
-/

namespace IotivityLite

def hmacSha256Hashlen : Nat := 32
def hkdfOutputMaxlen : Nat := 512
def oscoreInfoMaxLen : Nat := 128

abbrev HmacSha256 := KeyedHash hmacSha256Hashlen

section Model

variable (hash : HmacSha256)

/-- `HMAC_SHA256` of the first bytes of a buffer. -/
def hmacSha256 (key : Bytes) (data : Mem) (dataLen : Nat) : Bytes :=
  hash.mac key (data.read 0 (dataLen % 2 ^ 8))

/-- The salt as it is hashed; without a buffer it is empty. -/
def saltBytes (salt : Option Mem) (saltLen : UInt8) : Bytes :=
  match salt with
  | none => []
  | some salt => salt.read 0 saltLen.toNat

def hkdfExtract (salt : Option Mem) (saltLen : UInt8) (ikm : Mem)
    (ikmLen : UInt8) : Bytes :=
  if salt.isNone || saltLen = 0 then
    hash.mac (List.replicate 32 0) (ikm.read 0 ikmLen.toNat)
  else hash.mac (saltBytes salt saltLen) (ikm.read 0 ikmLen.toNat)

/-- The size of `iter_buffer`. -/
def iterBufferSize : Nat := hmacSha256Hashlen + oscoreInfoMaxLen + 1

variable (prk info : Bytes)

/-- The rounds from `i` on.  `none` stands for a write past the end of
`iter_buffer`. -/
def expandRounds : (rounds i : Nat) → (iterBuffer okmBuffer : Mem) →
    Option Mem
  | 0, _, _, okmBuffer => some okmBuffer
  | rounds + 1, i, iterBuffer, okmBuffer =>
      if hmacSha256Hashlen + info.length + 1 > iterBufferSize then none
      else
        let iterBuffer := iterBuffer.write 0
          (okmBuffer.read ((i - 1) * hmacSha256Hashlen) hmacSha256Hashlen)
        let iterBuffer :=
          if info.length > 0 then iterBuffer.write hmacSha256Hashlen info
          else iterBuffer
        let iterBuffer := iterBuffer.store (hmacSha256Hashlen + info.length)
          (UInt8.ofNat (i + 1))
        let digest := hmacSha256 hash prk iterBuffer
          (hmacSha256Hashlen + info.length + 1)
        expandRounds rounds (i + 1) iterBuffer
          (okmBuffer.write (i * hmacSha256Hashlen) digest)

/-- The result and the output buffer.  Both local buffers hold arbitrary bytes
at the beginning. -/
def hkdfExpand (iterBuffer okmBuffer okm : Mem) (okmLen : Nat) :
    Option (Int × Mem) :=
  if okmLen > hkdfOutputMaxlen then some (-1, okm)
  else
    let n := (okmLen + hmacSha256Hashlen - 1) / hmacSha256Hashlen % 2 ^ 8
    if info.length + 1 > iterBufferSize then none
    else
      let iterBuffer :=
        if info.length > 0 then iterBuffer.write 0 info else iterBuffer
      let iterBuffer := iterBuffer.store info.length 1
      let digest := hmacSha256 hash prk iterBuffer (info.length + 1)
      let okmBuffer := okmBuffer.write 0 digest
      (expandRounds hash prk info (n - 1) 1 iterBuffer okmBuffer).map
        fun okmBuffer => (0, okm.write 0 (okmBuffer.read 0 okmLen))

def hkdfSha256 (salt : Option Mem) (saltLen : UInt8) (ikm : Mem)
    (ikmLen : UInt8) (info : Mem) (infoLen : UInt8)
    (iterBuffer okmBuffer okm : Mem) (okmLen : UInt8) : Option (Int × Mem) :=
  match hkdfExpand hash (hkdfExtract hash salt saltLen ikm ikmLen)
      (info.read 0 infoLen.toNat) iterBuffer okmBuffer okm okmLen.toNat with
  | none => none
  | some (result, okm) =>
      if result ≠ 0 then some (-1, okm) else some (0, okm)

end Model

section Rounds

variable {hash : HmacSha256} {prk info : Bytes}

theorem hkdfExtract_eq (salt : Option Mem) (saltLen : UInt8) (ikm : Mem)
    (ikmLen : UInt8) :
    hkdfExtract hash salt saltLen ikm ikmLen =
      Hkdf.extract hash (saltBytes salt saltLen)
        (ikm.read 0 ikmLen.toNat) := by
  have empty : saltBytes salt saltLen = [] ↔
      (salt.isNone || saltLen = 0) = true := by
    cases salt with
    | none => exact iff_of_true rfl rfl
    | some salt =>
        have length := salt.length_read 0 saltLen.toNat
        rw [← List.length_eq_zero_iff, saltBytes, length, Option.isNone_some,
          Bool.false_or, decide_eq_true_iff, ← UInt8.toNat_inj]
        rfl
  unfold hkdfExtract Hkdf.extract
  simp only [empty]
  split_ifs
  · rfl
  · rfl

private theorem holds_info {iterBuffer : Mem} {start : Nat}
    {before : Bytes} (held : iterBuffer.Holds 0 before)
    (next : before.length = start) :
    (if info.length > 0 then iterBuffer.write start info
      else iterBuffer).Holds 0 (before ++ info) := by
  split_ifs with some
  · rw [Mem.holds_append, Nat.zero_add, next]
    exact ⟨held.write (.inl (by omega)), Mem.holds_write _ _ _⟩
  · have none : info = [] := List.length_eq_zero_iff.mp (by omega)
    rw [none, List.append_nil]
    exact held

private theorem hmacSha256_eq {iterBuffer : Mem} {data : Bytes}
    {number : UInt8} (held : iterBuffer.Holds 0 data)
    (short : data.length + 1 < 2 ^ 8) :
    hmacSha256 hash prk (iterBuffer.store data.length number)
      (data.length + 1) = hash.mac prk (data ++ [number]) := by
  have stored : (iterBuffer.store data.length number).Holds 0
      (data ++ [number]) := by
    rw [Mem.holds_append, Nat.zero_add]
    refine ⟨held.store (.inl (by omega)), ?_⟩
    rw [Mem.holds_cons]
    exact ⟨Mem.store_same _ _ _, Mem.holds_nil _ _⟩
  unfold hmacSha256
  rw [Nat.mod_eq_of_lt short]
  unfold Mem.Holds at stored
  rw [List.length_append, List.length_singleton] at stored
  rw [stored]

private theorem expandRounds_holds (short : info.length ≤ oscoreInfoMaxLen)
    (rounds i : Nat) (iterBuffer okmBuffer : Mem)
    (held : okmBuffer.Holds 0 (Hkdf.blocks hash prk info (i + 1))) :
    ∃ after, expandRounds hash prk info rounds (i + 1) iterBuffer okmBuffer =
        some after ∧
      after.Holds 0 (Hkdf.blocks hash prk info (i + 1 + rounds)) := by
  have bound : info.length ≤ 128 := short
  induction rounds generalizing i iterBuffer okmBuffer with
  | zero => exact ⟨okmBuffer, rfl, held⟩
  | succ rounds ih =>
      have last : okmBuffer.Holds (i * 32)
          (Hkdf.block hash prk info (i + 1)) := by
        rw [Hkdf.blocks, Mem.holds_append, Hkdf.length_blocks] at held
        simpa [hmacSha256Hashlen] using held.2
      have previous : okmBuffer.read (i * 32) 32 =
          Hkdf.block hash prk info (i + 1) := by
        have length := Hkdf.length_block_succ hash prk info i
        unfold Mem.Holds at last
        rw [length] at last
        exact last
      have digest : (Hkdf.block hash prk info (i + 1)).length = 32 :=
        Hkdf.length_block_succ hash prk info i
      have front := Mem.holds_write iterBuffer 0
        (Hkdf.block hash prk info (i + 1))
      have data := @holds_info info _ _ _ front digest
      have length : (Hkdf.block hash prk info (i + 1) ++ info).length =
          32 + info.length := by
        rw [List.length_append, digest]
      have hashed := @hmacSha256_eq hash prk _ _ (UInt8.ofNat (i + 1 + 1)) data
        (by omega)
      have next : (okmBuffer.write ((i + 1) * 32)
          (Hkdf.block hash prk info (i + 1 + 1))).Holds 0
            (Hkdf.blocks hash prk info (i + 1 + 1)) := by
        have filled := Hkdf.length_blocks hash prk info (i + 1)
        rw [Hkdf.blocks, Mem.holds_append, filled]
        refine ⟨held.write (.inl ?_), ?_⟩
        · rw [filled, Nat.zero_add]
          exact Nat.le_refl _
        · rw [Nat.zero_add]
          exact Mem.holds_write _ _ _
      obtain ⟨after, ran, holds⟩ := ih (i + 1) _ _ next
      refine ⟨after, ?_, ?_⟩
      · rw [expandRounds, if_neg (by
          unfold iterBufferSize hmacSha256Hashlen oscoreInfoMaxLen
          omega)]
        simp only [hmacSha256Hashlen, Nat.add_sub_cancel]
        rw [previous, ← length, hashed]
        exact ran
      · rw [Nat.add_assoc (i + 1) 1 rounds, Nat.add_comm 1 rounds] at holds
        exact holds

end Rounds

/-- The call succeeds, the first `okmLen` bytes of the output buffer are the
given ones and the others are as before. -/
def WritesKey (result : Option (Int × Mem)) (okm : Mem) (okmLen : Nat)
    (key : Bytes) : Prop :=
  ∃ written, result = some (0, written) ∧ written.read 0 okmLen = key ∧
    ∀ address, okmLen ≤ address → written address = okm address

section Keys

variable {hash : HmacSha256} {info : Bytes}
  {iterBuffer okmBuffer okm : Mem} {okmLen : Nat}

private theorem read_expand {prk : Bytes}
    (holds : okmBuffer.Holds 0 (Hkdf.blocks hash prk info
      (0 + 1 + ((okmLen + 32 - 1) / 32 - 1)))) :
    okmBuffer.read 0 okmLen = Hkdf.expand hash prk info okmLen := by
  by_cases empty : okmLen = 0
  · subst empty
    rfl
  · have enough := Hkdf.le_length_blocks hash prk info (by decide) okmLen
    have count : 0 + 1 + ((okmLen + 32 - 1) / 32 - 1) =
        (okmLen + hmacSha256Hashlen - 1) / hmacSha256Hashlen := by
      unfold hmacSha256Hashlen
      omega
    rw [count] at holds
    unfold Hkdf.expand
    rw [← holds, Mem.take_read, Nat.min_eq_left enough]

theorem hkdfExpand_writesKey (prk : Bytes)
    (short : info.length ≤ oscoreInfoMaxLen)
    (within : okmLen ≤ hkdfOutputMaxlen) :
    WritesKey (hkdfExpand hash prk info iterBuffer okmBuffer okm okmLen) okm
      okmLen (Hkdf.expand hash prk info okmLen) := by
  have bound : info.length ≤ 128 := short
  have limit : okmLen ≤ 512 := within
  have data := @holds_info info iterBuffer 0 [] (Mem.holds_nil _ _) rfl
  have hashed := @hmacSha256_eq hash prk _ _ 1 data
    (by rw [List.nil_append]; omega)
  rw [List.nil_append] at hashed
  have first : (okmBuffer.write 0 (Hkdf.block hash prk info 1)).Holds 0
      (Hkdf.blocks hash prk info 1) := Mem.holds_write _ _ _
  obtain ⟨after, ran, holds⟩ := expandRounds_holds short
    ((okmLen + 32 - 1) / 32 - 1) 0
    ((if info.length > 0 then iterBuffer.write 0 info else iterBuffer).store
      info.length 1) _ first
  have output := read_expand holds
  have size : (after.read 0 okmLen).length = okmLen := Mem.length_read _ _ _
  refine ⟨okm.write 0 (after.read 0 okmLen), ?_, ?_, ?_⟩
  · unfold hkdfExpand
    rw [if_neg (Nat.not_lt_of_le within)]
    have blocks : (okmLen + hmacSha256Hashlen - 1) / hmacSha256Hashlen % 2 ^ 8 =
        (okmLen + 32 - 1) / 32 := by
      unfold hmacSha256Hashlen
      omega
    simp only [blocks]
    rw [if_neg (by
      unfold iterBufferSize hmacSha256Hashlen oscoreInfoMaxLen
      omega), hashed]
    exact congrArg (Option.map _) ran
  · have written := Mem.holds_write okm 0 (after.read 0 okmLen)
    unfold Mem.Holds at written
    rw [size] at written
    rw [written, output]
  · intro address above
    exact Mem.write_outside (.inr (by omega))

theorem hkdfExpand_of_long (prk : Bytes) (long : hkdfOutputMaxlen < okmLen) :
    hkdfExpand hash prk info iterBuffer okmBuffer okm okmLen =
      some (-1, okm) := by
  unfold hkdfExpand
  rw [if_pos long]

end Keys

/-- Up to 512 bytes are expanded as the standard says and nothing else is
written, more are refused; and the key that `HKDF_SHA256` writes is the one of
the standard, whatever its length. -/
theorem hkdf_derives_rfc5869 (hash : HmacSha256) (salt : Option Mem)
    (saltLen : UInt8) (ikm : Mem) (ikmLen : UInt8) (prk : Bytes) (info : Mem)
    (infoLen : UInt8) (iterBuffer okmBuffer okm : Mem)
    (short : infoLen.toNat ≤ oscoreInfoMaxLen) :
    (∀ okmLen : Nat,
      (okmLen ≤ hkdfOutputMaxlen →
        WritesKey
          (hkdfExpand hash prk (info.read 0 infoLen.toNat) iterBuffer
            okmBuffer okm okmLen)
          okm okmLen
          (Hkdf.expand hash prk (info.read 0 infoLen.toNat) okmLen)) ∧
      (hkdfOutputMaxlen < okmLen →
        hkdfExpand hash prk (info.read 0 infoLen.toNat) iterBuffer okmBuffer
          okm okmLen = some (-1, okm))) ∧
    ∀ okmLen : UInt8,
      WritesKey
        (hkdfSha256 hash salt saltLen ikm ikmLen info infoLen iterBuffer
          okmBuffer okm okmLen)
        okm okmLen.toNat
        (Hkdf.derive hash (info.read 0 infoLen.toNat)
          (saltBytes salt saltLen) (ikm.read 0 ikmLen.toNat)
          okmLen.toNat) := by
  have length := info.length_read 0 infoLen.toNat
  rw [← length] at short
  refine ⟨fun okmLen => ⟨hkdfExpand_writesKey prk short,
    hkdfExpand_of_long prk⟩, ?_⟩
  intro okmLen
  have within : okmLen.toNat ≤ hkdfOutputMaxlen :=
    Nat.le_trans (Nat.le_of_lt okmLen.toNat_lt) (by decide)
  obtain ⟨written, ran, key, rest⟩ :=
    @hkdfExpand_writesKey hash (info.read 0 infoLen.toNat) iterBuffer okmBuffer
      okm okmLen.toNat (hkdfExtract hash salt saltLen ikm ikmLen) short within
  refine ⟨written, ?_, ?_, rest⟩
  · unfold hkdfSha256
    rw [ran]
    rfl
  · rw [key, hkdfExtract_eq]
    rfl

namespace Rfc5869

def ikm : Bytes := List.replicate 22 0x0B

def salt : Bytes := [0, 1, 2, 3, 4, 5, 6, 7, 8, 9, 10, 11, 12]

def info : Bytes :=
  [0xF0, 0xF1, 0xF2, 0xF3, 0xF4, 0xF5, 0xF6, 0xF7, 0xF8, 0xF9]

def prk : Bytes :=
  [0x07, 0x77, 0x09, 0x36, 0x2C, 0x2E, 0x32, 0xDF, 0x0D, 0xDC, 0x3F, 0x0D,
    0xC4, 0x7B, 0xBA, 0x63, 0x90, 0xB6, 0xC7, 0x3B, 0xB5, 0x0F, 0x9C, 0x31,
    0x22, 0xEC, 0x84, 0x4A, 0xD7, 0xC2, 0xB3, 0xE5]

def first : Bytes :=
  [0x3C, 0xB2, 0x5F, 0x25, 0xFA, 0xAC, 0xD5, 0x7A, 0x90, 0x43, 0x4F, 0x64,
    0xD0, 0x36, 0x2F, 0x2A, 0x2D, 0x2D, 0x0A, 0x90, 0xCF, 0x1A, 0x5A, 0x4C,
    0x5D, 0xB0, 0x2D, 0x56, 0xEC, 0xC4, 0xC5, 0xBF]

def second : Bytes :=
  [0x34, 0x00, 0x72, 0x08, 0xD5, 0xB8, 0x87, 0x18, 0x58, 0x65, 0xB4, 0xB0,
    0xA8, 0x5A, 0x99, 0x3B, 0x89, 0xB9, 0xB6, 0x56, 0x83, 0xD6, 0x0F, 0x01,
    0x06, 0xD2, 0x8F, 0xFF, 0x03, 0x9D, 0x0B, 0x6F]

def mac (key data : Bytes) : Bytes :=
  if key = salt ∧ data = ikm then prk
  else if key = prk ∧ data = info ++ [1] then first
  else if key = prk ∧ data = first ++ info ++ [2] then second
  else List.replicate 32 0

theorem length_mac (key data : Bytes) :
    (mac key data).length = hmacSha256Hashlen := by
  unfold mac
  split_ifs
  all_goals rfl

def hash : HmacSha256 := ⟨mac, length_mac⟩

end Rfc5869

/-- The first test case of the standard, with the digests that HMAC-SHA256 has
for it. -/
theorem hkdf_derives_first_test_case :
    Hkdf.derive Rfc5869.hash Rfc5869.info Rfc5869.salt Rfc5869.ikm 42 =
        Rfc5869.first ++ Rfc5869.second.take 10 ∧
      WritesKey
        (hkdfSha256 Rfc5869.hash (some (.ofBytes Rfc5869.salt)) 13
          (.ofBytes Rfc5869.ikm) 22 (.ofBytes Rfc5869.info) 10
          (.ofBytes []) (.ofBytes []) (.ofBytes []) 42)
        (.ofBytes []) 42
        (Hkdf.derive Rfc5869.hash Rfc5869.info Rfc5869.salt Rfc5869.ikm 42) :=
  ⟨by decide,
    (hkdf_derives_rfc5869 Rfc5869.hash (some (.ofBytes Rfc5869.salt)) 13
      (.ofBytes Rfc5869.ikm) 22 Rfc5869.prk (.ofBytes Rfc5869.info) 10
      (.ofBytes []) (.ofBytes []) (.ofBytes []) (by decide)).2 42⟩

/-- 513 bytes are less than 255 blocks. -/
theorem hkdf_refuses_513_bytes :
    513 ≤ Hkdf.maxBlocks * hmacSha256Hashlen ∧
      ¬ WritesKey
        (hkdfExpand Rfc5869.hash Rfc5869.prk Rfc5869.info (.ofBytes [])
          (.ofBytes []) (.ofBytes []) 513)
        (.ofBytes []) 513
        (Hkdf.expand Rfc5869.hash Rfc5869.prk Rfc5869.info 513) := by
  refine ⟨by decide, ?_⟩
  rintro ⟨written, ran, -, -⟩
  rw [hkdfExpand_of_long _ (by decide)] at ran
  cases ran

end IotivityLite
