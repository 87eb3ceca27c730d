import IotivityLite.Foundation.Hkdf

/-!
# The expansion function of RFC 5246

`P_hash` over a keyed hash with digests of a fixed length: a chain of digests
that starts with the seed, and a block for every link of it.
-/

namespace IotivityLite

namespace PHash

variable {digestLength : Nat} (hash : KeyedHash digestLength)
  (secret seed : Bytes)

/-- `A(0)` is the seed, `A(i)` the digest of `A(i - 1)`. -/
def link : Nat → Bytes
  | 0 => seed
  | i + 1 => hash.mac secret (link i)

/-- The digest of `A(i + 1) | seed`. -/
def block (i : Nat) : Bytes :=
  hash.mac secret (link hash secret seed (i + 1) ++ seed)

/-- The first `n` blocks. -/
def blocks : Nat → Bytes
  | 0 => []
  | n + 1 => blocks n ++ block hash secret seed n

/-- The first `length` bytes of the blocks that are needed for them. -/
def expand (length : Nat) : Bytes :=
  (blocks hash secret seed
    ((length + digestLength - 1) / digestLength)).take length

theorem length_block (i : Nat) :
    (block hash secret seed i).length = digestLength :=
  hash.length_mac _ _

theorem length_blocks (n : Nat) :
    (blocks hash secret seed n).length = n * digestLength := by
  induction n with
  | zero => simp [blocks]
  | succ n ih =>
      rw [blocks, List.length_append, ih, length_block, Nat.succ_mul]

theorem expand_mul (positive : 0 < digestLength) (n : Nat) :
    expand hash secret seed (n * digestLength) =
      blocks hash secret seed n := by
  have rounded : (n * digestLength + digestLength - 1) / digestLength = n := by
    rw [Nat.add_sub_assoc positive, Nat.mul_comm, Nat.mul_add_div positive,
      Nat.div_eq_of_lt (by omega), Nat.add_zero]
  rw [expand, rounded]
  exact List.take_of_length_le
    (Nat.le_of_eq (length_blocks hash secret seed n))

theorem expand_mul_add {rest : Nat} (n : Nat) (some : 0 < rest)
    (inside : rest ≤ digestLength) :
    expand hash secret seed (n * digestLength + rest) =
      blocks hash secret seed n ++
        (block hash secret seed n).take rest := by
  have positive : 0 < digestLength := Nat.lt_of_lt_of_le some inside
  have rounded : (n * digestLength + rest + digestLength - 1) / digestLength =
      n + 1 := by
    have split : n * digestLength + rest + digestLength - 1 =
        digestLength * (n + 1) + (rest - 1) := by
      rw [Nat.mul_add, Nat.mul_comm digestLength n]
      omega
    rw [split, Nat.mul_add_div positive, Nat.div_eq_of_lt (by omega),
      Nat.add_zero]
  rw [expand, rounded, blocks, ← length_blocks hash secret seed n,
    List.take_length_add_append]

theorem length_expand (positive : 0 < digestLength) (length : Nat) :
    (expand hash secret seed length).length = length := by
  rw [expand, List.length_take, length_blocks, Nat.min_eq_left]
  have rounded : length + digestLength - 1 <
      (length + digestLength - 1) / digestLength * digestLength +
        digestLength := Nat.lt_div_mul_add positive
  omega

end PHash

end IotivityLite
