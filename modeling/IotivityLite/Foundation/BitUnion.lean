/-!
# Unions of bit sets

Words of sixteen bits as sets of bits, and the tests of such a set that a
union passes exactly when one of its parts does.  Membership of a bit is one
of these tests, and it determines the set.
-/

namespace IotivityLite

namespace BitUnion

/-- The union of the sets. -/
def union (sets : List UInt16) : UInt16 := sets.foldl (· ||| ·) 0

/-- The first set is part of the second one. -/
def Within (first second : UInt16) : Prop := first ||| second = second

/-- A union passes the test when one of its parts does. -/
structure Distributes (test : UInt16 → Bool) : Prop where
  zero : test 0 = false
  or : ∀ first second, test (first ||| second) = (test first || test second)

variable {first second : UInt16}

namespace Distributes

variable {test : UInt16 → Bool}

theorem foldl {α : Type} (distributes : Distributes test) (setOf : α → UInt16)
    (items : List α) (start : UInt16) :
    test (items.foldl (fun total item => total ||| setOf item) start) =
      (test start || items.any fun item => test (setOf item)) := by
  induction items generalizing start with
  | nil => simp
  | cons item items ih =>
      rw [List.foldl_cons, ih, distributes.or, List.any_cons, Bool.or_assoc]

theorem union (distributes : Distributes test) (sets : List UInt16) :
    test (union sets) = sets.any test := by
  have folded := distributes.foldl id sets 0
  rw [distributes.zero, Bool.false_or] at folded
  exact folded

theorem mono (distributes : Distributes test) (within : Within first second)
    (passes : test first = true) :
    test second = true := by
  rw [← within, distributes.or, passes, Bool.true_or]

end Distributes

/-- The bit is set. -/
def bit (index : Nat) (set : UInt16) : Bool := set.toBitVec.getLsbD index

theorem distributes_bit (index : Nat) : Distributes (bit index) where
  zero := by simp [bit]
  or first second := by simp [bit]

theorem eq_of_bits (same : ∀ index, bit index first = bit index second) :
    first = second := by
  apply UInt16.toBitVec_inj.mp
  exact BitVec.eq_of_getLsbD_eq fun index _ => same index

theorem within_of_bits
    (every : ∀ index, bit index first = true → bit index second = true) :
    Within first second := by
  apply eq_of_bits
  intro index
  rw [(distributes_bit index).or]
  cases here : bit index first with
  | false => rfl
  | true => rw [every index here, Bool.true_or]

theorem distributes_mask (mask : UInt16) :
    Distributes fun set => set &&& mask != 0 where
  zero := by simp
  or first second := by
    have spread : (first ||| second) &&& mask =
        (first &&& mask) ||| (second &&& mask) := by
      apply eq_of_bits
      intro index
      simp [bit, Bool.and_or_distrib_right]
    rw [spread, Bool.eq_iff_iff]
    simp only [bne_iff_ne, Bool.or_eq_true, ne_eq, UInt16.or_eq_zero_iff,
      Decidable.not_and_iff_not_or_not]

end BitUnion

end IotivityLite
