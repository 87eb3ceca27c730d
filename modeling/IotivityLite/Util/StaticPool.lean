import IotivityLite.Foundation.Circular
import IotivityLite.Foundation.Run
import Mathlib.Algebra.GroupWithZero.Nat
import Mathlib.Logic.Function.Basic

/-!
# Static memory pools

`oc_mmem.c` without dynamic allocation: three arrays from which blocks are
taken one behind the other.  A block belongs to a handle, the handles of a pool
are linked in a list, and when a block is freed, all later ones are moved
down.  Pointers are indices of the array.
-/

namespace IotivityLite

/-- `oc_mmem_pool_t` -/
inductive PoolType where
  | byte
  | int
  | double
  deriving DecidableEq

namespace PoolType

/-- What the array consists of; a double is given by its bits. -/
def Item : PoolType → Type
  | byte => UInt8
  | int => Int64
  | double => UInt64

/-- `memm_type_size` -/
def size : PoolType → Nat
  | byte => 1
  | int => 8
  | double => 8

end PoolType

/-- The arrays, the numbers of available items, the lists of handles, and what
is in the handles. -/
structure Mmem (Handle : Type) where
  slots : (type : PoolType) → Nat → type.Item
  avail : PoolType → Nat
  list : PoolType → List Handle
  ptr : Handle → Nat
  size : Handle → Nat

inductive MmemOp (Handle : Type) where
  | alloc (type : PoolType) (m : Handle) (size : Nat)
  | free (type : PoolType) (m : Handle)
  | write (type : PoolType) (m : Handle) (offset : Nat) (value : type.Item)

namespace Mmem

variable {Handle : Type} [DecidableEq Handle] (poolSize : PoolType → Nat)

/-- `_oc_mmem_alloc`; the result is the number of bytes. -/
def alloc (mem : Mmem Handle) (type : PoolType) (m : Handle) (size : Nat) :
    Nat × Mmem Handle :=
  if mem.avail type < size then (0, mem)
  else
    (size * type.size,
      { mem with
        list := Function.update mem.list type (mem.list type ++ [m])
        ptr := Function.update mem.ptr m (poolSize type - mem.avail type)
        size := Function.update mem.size m size
        avail := Function.update mem.avail type (mem.avail type - size) })

/-- The handles that follow in the list. -/
def following (m : Handle) (list : List Handle) : List Handle :=
  (list.dropWhile (· ≠ m)).tail

/-- The loop over the following handles. -/
def lower (count : Nat) (handles : List Handle) (ptr : Handle → Nat) :
    Handle → Nat :=
  handles.foldl (fun ptr n => Function.update ptr n (ptr n - count)) ptr

/-- `_oc_mmem_free` -/
def free (mem : Mmem Handle) (type : PoolType) (m : Handle) : Mmem Handle :=
  let later := following m (mem.list type)
  let moved : Mmem Handle :=
    match later with
    | [] => mem
    | next :: _ =>
        { mem with
          slots := Function.update mem.slots type
            (moveSlots (mem.slots type) (mem.ptr m) (mem.ptr next)
              (poolSize type - mem.avail type - mem.ptr next))
          ptr := lower (mem.size m) later mem.ptr }
  { moved with
    avail := Function.update mem.avail type (mem.avail type + mem.size m)
    list := Function.update mem.list type ((mem.list type).erase m) }

/-- An item is stored through the pointer of a handle. -/
def write (mem : Mmem Handle) (type : PoolType) (m : Handle) (offset : Nat)
    (value : type.Item) : Mmem Handle :=
  { mem with
    slots := Function.update mem.slots type
      (storeSlot (mem.slots type) (mem.ptr m + offset) value) }

def step (mem : Mmem Handle) : MmemOp Handle → Mmem Handle
  | .alloc type m size => (mem.alloc poolSize type m size).2
  | .free type m => mem.free poolSize type m
  | .write type m offset value => mem.write type m offset value

/-- `oc_mmem_init`, with whatever is in the arrays and the handles. -/
def init (slots : (type : PoolType) → Nat → type.Item)
    (ptr size : Handle → Nat) : Mmem Handle where
  slots := slots
  avail := poolSize
  list := fun _ => []
  ptr := ptr
  size := size

/-- What callers keep to: a handle is used for one block at a time, freed only
as long as it has one, and written through only within its block. -/
def Admits (mem : Mmem Handle) : MmemOp Handle → Prop
  | .alloc _ m _ => ∀ type, m ∉ mem.list type
  | .free type m => m ∈ mem.list type
  | .write type m offset _ => m ∈ mem.list type ∧ offset < mem.size m

end Mmem

/-- The live handles of each pool with the contents of their blocks. -/
abbrev PoolBlocks (Handle : Type) :=
  (type : PoolType) → List (Handle × List type.Item)

def totalSize {Handle Item : Type} (blocks : List (Handle × List Item)) : Nat :=
  (blocks.map fun block => block.2.length).sum

/-- What an operation is to do: a block is added if there is room for it, with
any contents; a block is taken away; one item of a block is changed. -/
inductive BlockStep {Handle : Type} [DecidableEq Handle]
    (poolSize : PoolType → Nat) (blocks : PoolBlocks Handle) :
    MmemOp Handle → PoolBlocks Handle → Prop where
  | exhausted {type : PoolType} {m : Handle} {size : Nat} :
      poolSize type < totalSize (blocks type) + size →
      BlockStep poolSize blocks (.alloc type m size) blocks
  | alloc {type : PoolType} {m : Handle} (fresh : List type.Item) :
      totalSize (blocks type) + fresh.length ≤ poolSize type →
      BlockStep poolSize blocks (.alloc type m fresh.length)
        (Function.update blocks type (blocks type ++ [(m, fresh)]))
  | free {type : PoolType} {m : Handle} :
      BlockStep poolSize blocks (.free type m)
        (Function.update blocks type
          ((blocks type).filter fun block => block.1 ≠ m))
  | write {type : PoolType} {m : Handle} {offset : Nat} {value : type.Item} :
      BlockStep poolSize blocks (.write type m offset value)
        (Function.update blocks type
          ((blocks type).map fun block =>
            if block.1 = m then (m, block.2.set offset value) else block))

inductive BlockRun {Handle : Type} [DecidableEq Handle]
    (poolSize : PoolType → Nat) :
    PoolBlocks Handle → List (MmemOp Handle) → PoolBlocks Handle → Prop where
  | nil (blocks : PoolBlocks Handle) : BlockRun poolSize blocks [] blocks
  | cons {first second third : PoolBlocks Handle} {op : MmemOp Handle}
      {ops : List (MmemOp Handle)} :
      BlockStep poolSize first op second → BlockRun poolSize second ops third →
      BlockRun poolSize first (op :: ops) third

end IotivityLite
