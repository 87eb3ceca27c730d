import Mathlib.Algebra.Order.Group.Nat
import Mathlib.Data.List.Infix

/-!
# The longest prefix that fits

A list is cut where the next element would not fit any more.  If what fits is
closed under prefixes, the first part is the longest prefix that fits.
-/

namespace IotivityLite

section LongestPrefix

variable {Item : Type}

/-- The elements of `rest` are added to `kept` while the result fits. -/
def splitWhileFits (fits : List Item → Prop) [DecidablePred fits] :
    (kept rest : List Item) → List Item × List Item
  | kept, [] => (kept, [])
  | kept, item :: rest =>
      if fits (kept ++ [item]) then splitWhileFits fits (kept ++ [item]) rest
      else (kept, item :: rest)

/-- A prefix that is not empty and fits, and none of those is longer. -/
structure LongestPrefix (fits : List Item → Prop) (found whole : List Item) :
    Prop where
  isPrefix : found <+: whole
  nonempty : found ≠ []
  fitting : fits found
  longest : ∀ other, other <+: whole → fits other →
    other.length ≤ found.length

variable {fits : List Item → Prop} [DecidablePred fits]

theorem splitWhileFits_cons (kept : List Item) (item : Item)
    (rest : List Item) :
    splitWhileFits fits kept (item :: rest) =
      if fits (kept ++ [item]) then splitWhileFits fits (kept ++ [item]) rest
      else (kept, item :: rest) := rfl

theorem splitWhileFits_append (kept rest : List Item) :
    (splitWhileFits fits kept rest).1 ++ (splitWhileFits fits kept rest).2 =
      kept ++ rest := by
  induction rest generalizing kept with
  | nil => rfl
  | cons item rest ih =>
      rw [splitWhileFits_cons]
      split_ifs
      · rw [ih, List.append_assoc, List.singleton_append]
      · rfl

theorem splitWhileFits_fits (kept rest : List Item) :
    (splitWhileFits fits kept rest).1 = kept ∨
      fits (splitWhileFits fits kept rest).1 := by
  induction rest generalizing kept with
  | nil => exact .inl rfl
  | cons item rest ih =>
      rw [splitWhileFits_cons]
      split_ifs with fitting
      · rcases ih (kept ++ [item]) with same | later
        · rw [same]
          exact .inr fitting
        · exact .inr later
      · exact .inl rfl

theorem splitWhileFits_next {kept rest : List Item} {item : Item}
    {behind : List Item}
    (cut : (splitWhileFits fits kept rest).2 = item :: behind) :
    ¬fits ((splitWhileFits fits kept rest).1 ++ [item]) := by
  induction rest generalizing kept with
  | nil => cases cut
  | cons head rest ih =>
      rw [splitWhileFits_cons] at cut ⊢
      split_ifs at cut ⊢ with fitting
      · exact ih cut
      · obtain ⟨rfl, -⟩ := List.cons.inj cut
        exact fitting

theorem splitWhileFits_ne_nil {kept : List Item} (some : kept ≠ [])
    (rest : List Item) : (splitWhileFits fits kept rest).1 ≠ [] := by
  induction rest generalizing kept with
  | nil => exact some
  | cons item rest ih =>
      rw [splitWhileFits_cons]
      split_ifs
      · exact ih (List.append_ne_nil_of_left_ne_nil some _)
      · exact some

theorem splitWhileFits_eq_nil_iff {first : Item} {rest : List Item} :
    (splitWhileFits fits [] (first :: rest)).1 = [] ↔ ¬fits [first] := by
  rw [splitWhileFits_cons, List.nil_append]
  split_ifs with fitting
  · exact iff_of_false (splitWhileFits_ne_nil (List.cons_ne_nil _ _) rest)
      (not_not.mpr fitting)
  · exact iff_of_true rfl fitting

theorem splitWhileFits_longest {first : Item} {rest : List Item}
    (closed : ∀ group more, group ≠ [] → fits (group ++ more) → fits group)
    (fitting : fits [first]) :
    LongestPrefix fits (splitWhileFits fits [] (first :: rest)).1
      (first :: rest) := by
  have some : (splitWhileFits fits [] (first :: rest)).1 ≠ [] :=
    fun none => splitWhileFits_eq_nil_iff.mp none fitting
  have append := @splitWhileFits_append Item fits _ [] (first :: rest)
  rw [List.nil_append] at append
  refine ⟨⟨_, append⟩, some, ?_, ?_⟩
  · exact (splitWhileFits_fits [] (first :: rest)).resolve_left some
  · intro other isPrefix enough
    have next := fun item behind => @splitWhileFits_next Item fits _ []
      (first :: rest) item behind
    generalize splitWhileFits fits [] (first :: rest) = split
      at append some next ⊢
    by_contra longer
    rw [Nat.not_le] at longer
    obtain ⟨more, rfl⟩ := List.prefix_of_prefix_length_le ⟨_, append⟩ isPrefix
      longer.le
    cases more with
    | nil => exact absurd longer (by simp)
    | cons item more =>
        rw [← append, List.prefix_append_right_inj] at isPrefix
        obtain ⟨behind, cut⟩ := isPrefix
        rw [List.append_cons] at enough
        exact next item _ cut.symm
          (closed _ more (List.append_ne_nil_of_left_ne_nil some _) enough)

end LongestPrefix

end IotivityLite
