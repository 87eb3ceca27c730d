import IotivityLite.Foundation.Memory

/-!
# The HMAC-based key derivation of RFC 5869

Extraction and expansion over a keyed hash with digests of a fixed length.
The hash itself is a parameter.
-/

namespace IotivityLite

/-- A keyed hash whose digests have `digestLength` bytes. -/
structure KeyedHash (digestLength : Nat) where
  mac : (key data : Bytes) → Bytes
  length_mac : ∀ key data, (mac key data).length = digestLength

namespace Hkdf

variable {digestLength : Nat} (hash : KeyedHash digestLength)

/-- A salt that is not provided is a string of zeros. -/
def extract (salt ikm : Bytes) : Bytes :=
  hash.mac (if salt = [] then List.replicate digestLength 0 else salt) ikm

variable (prk info : Bytes)

/-- `T(0)` is the empty string, `T(i)` the digest of `T(i - 1) | info | i`. -/
def block : Nat → Bytes
  | 0 => []
  | i + 1 => hash.mac prk (block i ++ info ++ [UInt8.ofNat (i + 1)])

/-- `T(1) | T(2) | ... | T(n)` -/
def blocks : Nat → Bytes
  | 0 => []
  | n + 1 => blocks n ++ block hash prk info (n + 1)

/-- The first `length` bytes of the blocks that are needed for them. -/
def expand (length : Nat) : Bytes :=
  (blocks hash prk info
    ((length + digestLength - 1) / digestLength)).take length

def derive (salt ikm : Bytes) (length : Nat) : Bytes :=
  expand hash (extract hash salt ikm) info length

/-- The largest number of blocks, as their number is written in one byte. -/
def maxBlocks : Nat := 255

theorem length_block_succ (i : Nat) :
    (block hash prk info (i + 1)).length = digestLength :=
  hash.length_mac _ _

theorem length_blocks (n : Nat) :
    (blocks hash prk info n).length = n * digestLength := by
  induction n with
  | zero => simp [blocks]
  | succ n ih =>
      rw [blocks, List.length_append, ih, length_block_succ, Nat.succ_mul]

theorem le_length_blocks (positive : 0 < digestLength) (length : Nat) :
    length ≤ (blocks hash prk info
      ((length + digestLength - 1) / digestLength)).length := by
  have rounded : length + digestLength - 1 <
      (length + digestLength - 1) / digestLength * digestLength +
        digestLength := Nat.lt_div_mul_add positive
  rw [length_blocks]
  omega

end Hkdf

end IotivityLite
