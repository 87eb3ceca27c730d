import Mathlib.Algebra.Group.Int.Defs
import Mathlib.Algebra.Group.Nat.Defs
import Mathlib.Data.List.Basic

/-!
# Byte-addressed memory

A memory assigns a byte to every address.  Programs that parse a buffer in
place read it, overwrite single bytes and move blocks inside it.  The lemmas
below say how such writes act on the blocks read afterwards, so that a proof
about an in-place algorithm never has to unfold the memory itself.
-/

namespace IotivityLite

abbrev Bytes := List UInt8

theorem forall_byte {property : UInt8 → Prop}
    (checked : ∀ number < 256, property (UInt8.ofNat number))
    (byte : UInt8) : property byte := by
  have small := checked byte.toNat byte.toNat_lt
  rwa [UInt8.ofNat_toNat] at small

def Mem := Nat → UInt8

namespace Mem

/-- A buffer holding exactly the given bytes; addresses past its end read as
zero. -/
def ofBytes (bytes : Bytes) : Mem := fun address => bytes.getD address 0

/-- The block of `length` bytes starting at `start`. -/
def read (memory : Mem) : Nat → Nat → Bytes
  | _, 0 => []
  | start, length + 1 => memory start :: read memory (start + 1) length

def store (memory : Mem) (address : Nat) (value : UInt8) : Mem :=
  fun candidate => if candidate = address then value else memory candidate

/-- `memmove`: the source block is read before anything is overwritten. -/
def move (memory : Mem) (target source length : Nat) : Mem :=
  fun candidate =>
    if target ≤ candidate ∧ candidate < target + length then
      memory (source + (candidate - target))
    else memory candidate

/-- `memcpy` of the given bytes to `start`. -/
def write (memory : Mem) (start : Nat) (bytes : Bytes) : Mem :=
  fun candidate =>
    if start ≤ candidate ∧ candidate < start + bytes.length then
      bytes.getD (candidate - start) 0
    else memory candidate

/-- The bytes found at `start` are the given ones. -/
def Holds (memory : Mem) (start : Nat) (bytes : Bytes) : Prop :=
  memory.read start bytes.length = bytes

@[simp] theorem read_zero (memory : Mem) (start : Nat) :
    memory.read start 0 = [] := rfl

@[simp] theorem length_read (memory : Mem) (start length : Nat) :
    (memory.read start length).length = length := by
  induction length generalizing start with
  | zero => rfl
  | succ length ih => simp [read, ih]

theorem read_append (memory : Mem) (start first second : Nat) :
    memory.read start (first + second) =
      memory.read start first ++ memory.read (start + first) second := by
  induction first generalizing start with
  | zero => simp
  | succ first ih =>
      rw [Nat.succ_add]
      simp only [read, List.cons_append, ih (start + 1)]
      rw [show start + 1 + first = start + (first + 1) by omega]

theorem take_read (memory : Mem) (start length count : Nat) :
    (memory.read start length).take count =
      memory.read start (min count length) := by
  induction length generalizing start count with
  | zero => simp
  | succ length ih =>
      cases count with
      | zero => simp
      | succ count =>
          rw [Nat.add_min_add_right]
          simp only [read, List.take_succ_cons, ih]

theorem read_congr {left right : Mem} {start length : Nat}
    (agree : ∀ address, start ≤ address → address < start + length →
      left address = right address) :
    left.read start length = right.read start length := by
  induction length generalizing start with
  | zero => rfl
  | succ length ih =>
      have head : left start = right start :=
        agree start (Nat.le_refl start) (by omega)
      have tail : left.read (start + 1) length =
          right.read (start + 1) length :=
        ih fun address above below =>
          agree address (by omega) (by omega)
      simp only [read, head, tail]

theorem read_shift {left right : Mem} {start other length : Nat}
    (agree : ∀ offset, offset < length →
      left (start + offset) = right (other + offset)) :
    left.read start length = right.read other length := by
  induction length generalizing start other with
  | zero => rfl
  | succ length ih =>
      have head : left start = right other := by
        simpa using agree 0 (Nat.succ_pos length)
      have tail : left.read (start + 1) length =
          right.read (other + 1) length :=
        ih fun offset below => by
          have shifted := agree (offset + 1) (by omega)
          rwa [← Nat.add_assoc, ← Nat.add_assoc, Nat.add_right_comm,
            Nat.add_right_comm other] at shifted
      simp only [read, head, tail]

theorem read_ofBytes_append (before bytes after : Bytes) :
    (ofBytes (before ++ bytes ++ after)).read before.length bytes.length =
      bytes := by
  induction bytes generalizing before with
  | nil => rfl
  | cons head tail ih =>
      have here : ofBytes (before ++ head :: (tail ++ after)) before.length =
          head := by
        simp [ofBytes]
      have rest := ih (before ++ [head])
      simp only [List.length_append, List.length_cons, List.length_nil,
        Nat.zero_add, List.append_assoc, List.cons_append,
        List.nil_append] at rest
      simp only [List.length_cons, read, here, List.append_assoc,
        List.cons_append, rest]

theorem holds_ofBytes (bytes : Bytes) : (ofBytes bytes).Holds 0 bytes := by
  have whole := read_ofBytes_append [] bytes []
  simpa [Holds] using whole

@[simp] theorem holds_nil (memory : Mem) (start : Nat) :
    memory.Holds start [] := rfl

variable {memory : Mem}

theorem holds_append {start : Nat} {first second : Bytes} :
    memory.Holds start (first ++ second) ↔
      memory.Holds start first ∧
        memory.Holds (start + first.length) second := by
  unfold Holds
  rw [List.length_append, read_append]
  constructor
  · intro whole
    exact List.append_inj whole (length_read memory start first.length)
  · rintro ⟨left, right⟩
    rw [left, right]

theorem holds_cons {start : Nat} {head : UInt8} {tail : Bytes} :
    memory.Holds start (head :: tail) ↔
      memory start = head ∧ memory.Holds (start + 1) tail := by
  simp [Holds, read]

theorem Holds.of_agree_above {left right : Mem} {start boundary : Nat}
    {bytes : Bytes} (held : left.Holds start bytes)
    (above : boundary ≤ start)
    (agree : ∀ address, boundary ≤ address →
      right address = left address) :
    right.Holds start bytes := by
  unfold Holds at held ⊢
  rw [← held, length_read]
  exact read_congr fun address lower _ => agree address (by omega)

@[simp] theorem store_same (memory : Mem) (address : Nat) (value : UInt8) :
    memory.store address value address = value := by
  simp [store]

theorem store_other {address candidate : Nat} {value : UInt8}
    (different : candidate ≠ address) :
    memory.store address value candidate = memory candidate := by
  simp [store, different]

theorem move_outside {target source length candidate : Nat}
    (outside : candidate < target ∨ target + length ≤ candidate) :
    memory.move target source length candidate = memory candidate := by
  unfold move
  rw [if_neg]
  omega

theorem write_outside {start candidate : Nat} {bytes : Bytes}
    (outside : candidate < start ∨ start + bytes.length ≤ candidate) :
    memory.write start bytes candidate = memory candidate := by
  unfold write
  rw [if_neg]
  omega

theorem holds_write (memory : Mem) (start : Nat) (bytes : Bytes) :
    (memory.write start bytes).Holds start bytes := by
  refine Eq.trans ?_ (holds_ofBytes bytes)
  apply read_shift
  intro offset below
  unfold write
  rw [if_pos (by omega)]
  simp [ofBytes]

theorem Holds.write {start other : Nat} {bytes written : Bytes}
    (held : memory.Holds start bytes)
    (apart : start + bytes.length ≤ other ∨ other + written.length ≤ start) :
    (memory.write other written).Holds start bytes := by
  unfold Holds at held ⊢
  rw [← held, length_read]
  apply read_congr
  intro address lower upper
  exact write_outside (by omega)

theorem Holds.store {start other : Nat} {bytes : Bytes} {value : UInt8}
    (held : memory.Holds start bytes)
    (apart : start + bytes.length ≤ other ∨ other < start) :
    (memory.store other value).Holds start bytes := by
  unfold Holds at held ⊢
  rw [← held, length_read]
  apply read_congr
  intro address lower upper
  exact store_other (by omega)

theorem read_move (memory : Mem) (target source length : Nat) :
    (memory.move target source length).read target length =
      memory.read source length := by
  apply read_shift
  intro offset below
  unfold move
  rw [if_pos (by omega)]
  congr 1
  omega

end Mem

end IotivityLite
