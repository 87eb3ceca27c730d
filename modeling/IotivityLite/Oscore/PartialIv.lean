import IotivityLite.Foundation.BigEndian

/-!
# Partial IVs and nonces

`oscore_store_piv` and `oscore_read_piv` of `oscore.c` and
`oc_oscore_AEAD_nonce` of `oc_oscore_crypto.c`.  The byte swaps of the source
turn the number into big-endian order on machines of either order.
-/

namespace IotivityLite

open BigEndian

def oscorePivLen : Nat := 5
def oscoreCtxidLen : Nat := 7
def oscoreAeadNonceLen : Nat := 13

/-- The lowest five bytes without their leading zeros; zero is one byte. -/
def oscoreStorePiv (ssn : Nat) : Bytes :=
  if ssn = 0 then [0]
  else ((encode 8 ssn).drop (8 - oscorePivLen)).dropWhile (· == 0)

def oscoreReadPiv (piv : Bytes) : Nat := BigEndian.value piv

/-- The Partial IV fills the end of the nonce, the identifier the bytes
before its last five, the first byte is the length of the identifier. -/
def ocOscoreAEADNonce (id piv civ : Bytes) : Bytes :=
  let nonce := List.replicate (oscoreAeadNonceLen - piv.length) 0 ++ piv
  let nonce := nonce.take (oscoreAeadNonceLen - 5 - id.length) ++ id ++
    nonce.drop (oscoreAeadNonceLen - 5)
  let nonce := nonce.set 0 (UInt8.ofNat id.length)
  List.zipWith (· ^^^ ·) nonce civ

theorem oscoreReadPiv_oscoreStorePiv {ssn : Nat} (small : ssn < 2 ^ 40) :
    oscoreReadPiv (oscoreStorePiv ssn) = ssn := by
  unfold oscoreReadPiv oscoreStorePiv
  split_ifs with zero
  · exact zero.symm
  · rw [value_dropWhile_zero, oscorePivLen, drop_encode 3 5, value_encode]
    exact Nat.mod_eq_of_lt (by omega)

theorem length_oscoreStorePiv_le (ssn : Nat) :
    (oscoreStorePiv ssn).length ≤ oscorePivLen := by
  unfold oscoreStorePiv
  split_ifs
  · decide
  · calc (((encode 8 ssn).drop (8 - oscorePivLen)).dropWhile (· == 0)).length
        ≤ ((encode 8 ssn).drop (8 - oscorePivLen)).length :=
          (List.dropWhile_suffix _).length_le
      _ = oscorePivLen := by simp [oscorePivLen]

private theorem xor_right_cancel {left right mask : Bytes}
    (leftLength : left.length = mask.length)
    (rightLength : right.length = mask.length)
    (same : List.zipWith (· ^^^ ·) left mask =
      List.zipWith (· ^^^ ·) right mask) : left = right := by
  induction mask generalizing left right with
  | nil =>
      rw [List.length_nil, List.length_eq_zero_iff] at leftLength rightLength
      rw [leftLength, rightLength]
  | cons head tail ih =>
      obtain ⟨first, left, rfl⟩ :=
        List.exists_cons_of_length_eq_add_one leftLength
      obtain ⟨second, right, rfl⟩ :=
        List.exists_cons_of_length_eq_add_one rightLength
      rw [List.zipWith_cons_cons, List.zipWith_cons_cons, List.cons.injEq]
        at same
      rw [List.length_cons, List.length_cons, Nat.add_right_cancel_iff]
        at leftLength rightLength
      have heads : first = second := by
        have masked := congrArg (· ^^^ head) same.1
        simpa [UInt8.xor_assoc] using masked
      rw [heads, ih leftLength rightLength same.2]

/-- The nonce before the common IV is applied: the length of the identifier,
the identifier and the Partial IV, each padded on the left. -/
def nonceFields (id piv : Bytes) : Bytes :=
  UInt8.ofNat id.length ::
    (List.replicate (7 - id.length) 0 ++ id ++
      (List.replicate (5 - piv.length) 0 ++ piv))

section Fields

variable {id piv civ : Bytes}

section

variable (idShort : id.length ≤ oscoreCtxidLen)

include idShort

private theorem length_nonceFields (pivShort : piv.length ≤ oscorePivLen) :
    (nonceFields id piv).length = oscoreAeadNonceLen := by
  have idBound : id.length ≤ 7 := idShort
  have pivBound : piv.length ≤ 5 := pivShort
  simp only [nonceFields, List.length_cons, List.length_append,
    List.length_replicate, oscoreAeadNonceLen]
  omega

private theorem ocOscoreAEADNonce_eq (pivShort : piv.length ≤ oscorePivLen) :
    ocOscoreAEADNonce id piv civ =
      List.zipWith (· ^^^ ·) (nonceFields id piv) civ := by
  have idBound : id.length ≤ 7 := idShort
  have pivBound : piv.length ≤ 5 := pivShort
  have front : (List.replicate (13 - piv.length) (0 : UInt8) ++ piv).take
      (8 - id.length) = 0 :: List.replicate (7 - id.length) 0 := by
    rw [List.take_append_of_le_length (by rw [List.length_replicate]; omega),
      List.take_replicate, ← List.replicate_succ]
    congr 1
    omega
  have last : (List.replicate (13 - piv.length) (0 : UInt8) ++ piv).drop 8 =
      List.replicate (5 - piv.length) 0 ++ piv := by
    rw [List.drop_append_of_le_length (by rw [List.length_replicate]; omega),
      List.drop_replicate]
    congr 2
    omega
  unfold ocOscoreAEADNonce
  simp only [oscoreAeadNonceLen]
  rw [front, last]
  rfl

private theorem nonceFields_inj {otherId otherPiv : Bytes}
    (otherShort : otherId.length ≤ oscoreCtxidLen)
    (same : nonceFields id piv = nonceFields otherId otherPiv) :
    id = otherId ∧ value piv = value otherPiv := by
  have idBound : id.length ≤ 7 := idShort
  have otherBound : otherId.length ≤ 7 := otherShort
  obtain ⟨tags, rest⟩ := List.cons.inj same
  have lengths : id.length = otherId.length := by
    have numbers := congrArg UInt8.toNat tags
    rw [UInt8.toNat_ofNat', UInt8.toNat_ofNat'] at numbers
    omega
  rw [lengths] at rest
  obtain ⟨ids, pivs⟩ := List.append_inj rest (by
    rw [List.length_append, List.length_append, lengths])
  have values := congrArg value pivs
  rw [value_replicate_zero_append, value_replicate_zero_append] at values
  exact ⟨List.append_cancel_left ids, values⟩

private theorem nonceFields_of_nonce {otherId otherPiv : Bytes}
    (otherShort : otherId.length ≤ oscoreCtxidLen)
    (pivShort : piv.length ≤ oscorePivLen)
    (otherPivShort : otherPiv.length ≤ oscorePivLen)
    (civLength : civ.length = oscoreAeadNonceLen)
    (same : ocOscoreAEADNonce id piv civ =
      ocOscoreAEADNonce otherId otherPiv civ) :
    nonceFields id piv = nonceFields otherId otherPiv := by
  rw [ocOscoreAEADNonce_eq idShort pivShort,
    ocOscoreAEADNonce_eq otherShort otherPivShort] at same
  apply xor_right_cancel _ _ same
  · rw [length_nonceFields idShort pivShort, civLength]
  · rw [length_nonceFields otherShort otherPivShort, civLength]

theorem ocOscoreAEADNonce_inj {otherId : Bytes} {left right : Nat}
    (otherShort : otherId.length ≤ oscoreCtxidLen)
    (civLength : civ.length = oscoreAeadNonceLen) (leftSmall : left < 2 ^ 40)
    (rightSmall : right < 2 ^ 40)
    (same : ocOscoreAEADNonce id (oscoreStorePiv left) civ =
      ocOscoreAEADNonce otherId (oscoreStorePiv right) civ) :
    id = otherId ∧ left = right := by
  have fields := nonceFields_of_nonce idShort otherShort
    (length_oscoreStorePiv_le left) (length_oscoreStorePiv_le right) civLength
    same
  obtain ⟨ids, values⟩ := nonceFields_inj idShort otherShort fields
  refine ⟨ids, ?_⟩
  rw [← oscoreReadPiv_oscoreStorePiv leftSmall,
    ← oscoreReadPiv_oscoreStorePiv rightSmall]
  exact values

end

end Fields

theorem ocOscoreAEADNonce_injective {id civ : Bytes} {left right : Nat}
    (idShort : id.length ≤ oscoreCtxidLen)
    (civLength : civ.length = oscoreAeadNonceLen)
    (leftSmall : left < 2 ^ 40) (rightSmall : right < 2 ^ 40)
    (same : ocOscoreAEADNonce id (oscoreStorePiv left) civ =
      ocOscoreAEADNonce id (oscoreStorePiv right) civ) : left = right :=
  (ocOscoreAEADNonce_inj idShort idShort civLength leftSmall rightSmall
    same).2

/-- Two senders with identifiers of at most seven bytes never share a nonce,
and the sequence number can be read back from its Partial IV. -/
theorem aead_nonce_of_sender_and_ssn (id otherId civ : Bytes)
    (left right : Nat) (idShort : id.length ≤ oscoreCtxidLen)
    (otherShort : otherId.length ≤ oscoreCtxidLen)
    (civLength : civ.length = oscoreAeadNonceLen)
    (leftSmall : left < 2 ^ 40) (rightSmall : right < 2 ^ 40) :
    (ocOscoreAEADNonce id (oscoreStorePiv left) civ =
        ocOscoreAEADNonce otherId (oscoreStorePiv right) civ →
      id = otherId ∧ left = right) ∧
    oscoreReadPiv (oscoreStorePiv left) = left :=
  ⟨ocOscoreAEADNonce_inj idShort otherShort civLength leftSmall rightSmall,
    oscoreReadPiv_oscoreStorePiv leftSmall⟩

/-- The identifiers differ only by a leading zero byte. -/
theorem aead_nonce_padded_sender :
    (ocOscoreAEADNonce [0, 7] (oscoreStorePiv 256) (List.replicate 13 0xA5) =
        ocOscoreAEADNonce [7] (oscoreStorePiv 256) (List.replicate 13 0xA5) →
      ([0, 7] : Bytes) = [7] ∧ 256 = 256) ∧
    oscoreReadPiv (oscoreStorePiv 256) = 256 :=
  aead_nonce_of_sender_and_ssn [0, 7] [7] (List.replicate 13 0xA5) 256 256
    (by decide) (by decide) (by decide) (by decide) (by decide)

end IotivityLite
