import IotivityLite.Foundation.Memory
import IotivityLite.Foundation.Run

/-!
# The links of a collection

`oc_collection_add_link` keeps the links sorted by the length of their hrefs
and then by their values.
-/

namespace IotivityLite

/-- The URI of a resource is a C string. -/
structure LinkUri where
  text : Bytes
  noNul : 0 ∉ text
  deriving DecidableEq

/-- `oc_link_t`; `ref` stands for the pointer. -/
structure CollectionLink where
  ref : Nat
  uri : LinkUri
  deriving DecidableEq

def CollectionLink.href (link : CollectionLink) : Bytes := link.uri.text

/-- The order of the links: `strcmp` decides between hrefs of one length. -/
def HrefLess (first second : Bytes) : Prop :=
  first.length < second.length ∨
    first.length = second.length ∧ first < second

instance (first second : Bytes) : Decidable (HrefLess first second) :=
  inferInstanceAs (Decidable (first.length < second.length ∨
    first.length = second.length ∧ first < second))

/-- One href does not come after the other one. -/
def HrefLe (first second : Bytes) : Prop :=
  first.length < second.length ∨
    first.length = second.length ∧ first ≤ second

/-- The loop of `oc_collection_add_link`. -/
def insertLink (link : CollectionLink) : List CollectionLink →
    List CollectionLink
  | [] => [link]
  | next :: rest =>
      if next.href ≠ [] ∧ HrefLess link.href next.href then
        link :: next :: rest
      else next :: insertLink link rest

/-- A collection with the links that were made for it. -/
structure LinkedCollection where
  links : List CollectionLink
  nextRef : Nat
  deriving DecidableEq

inductive LinkOperation where
  | add (uri : LinkUri)
  | remove (ref : Nat)

namespace LinkedCollection

def empty : LinkedCollection := ⟨[], 0⟩

/-- A new link that is added; without an href it is refused. -/
def ocCollectionAddLink (collection : LinkedCollection) (uri : LinkUri) :
    LinkedCollection where
  links :=
    if uri.text = [] then collection.links
    else insertLink ⟨collection.nextRef, uri⟩ collection.links
  nextRef := collection.nextRef + 1

def ocCollectionRemoveLink (collection : LinkedCollection) (ref : Nat) :
    LinkedCollection where
  links := collection.links.eraseP (·.ref == ref)
  nextRef := collection.nextRef

def step (collection : LinkedCollection) : LinkOperation → LinkedCollection
  | .add uri => collection.ocCollectionAddLink uri
  | .remove ref => collection.ocCollectionRemoveLink ref

/-- The links are sorted, and each has an href. -/
structure Sorted (collection : LinkedCollection) : Prop where
  sorted : collection.links.Pairwise fun first second =>
    HrefLe first.href second.href
  given : ∀ link ∈ collection.links, link.href ≠ []

end LinkedCollection

section Order

variable {first second third : Bytes}

theorem HrefLess.le (less : HrefLess first second) : HrefLe first second :=
  less.imp id fun ⟨same, less⟩ => ⟨same, List.le_of_lt less⟩

theorem hrefLe_of_not_less (not : ¬ HrefLess first second) :
    HrefLe second first := by
  rcases Nat.lt_trichotomy first.length second.length with less | same | more
  · exact absurd (.inl less) not
  · exact .inr ⟨same.symm, List.not_lt.mp fun less =>
      not (.inr ⟨same, less⟩)⟩
  · exact .inl more

theorem HrefLe.trans (one : HrefLe first second) (two : HrefLe second third) :
    HrefLe first third := by
  rcases one with less | ⟨same, le⟩
  · rcases two with less' | ⟨same', -⟩
    · exact .inl (Nat.lt_trans less less')
    · exact .inl (same' ▸ less)
  · rcases two with less' | ⟨same', le'⟩
    · exact .inl (same ▸ less')
    · exact .inr ⟨same.trans same', List.le_trans le le'⟩

theorem HrefLe.length_le (le : HrefLe first second) :
    first.length ≤ second.length :=
  le.elim Nat.le_of_lt fun both => Nat.le_of_eq both.1

end Order

section Operations

variable {link : CollectionLink} {links : List CollectionLink}

theorem mem_insertLink {other : CollectionLink} :
    other ∈ insertLink link links ↔ other = link ∨ other ∈ links := by
  induction links with
  | nil => simp [insertLink]
  | cons next rest ih =>
      rw [insertLink]
      split
      · simp
      · simp only [List.mem_cons, ih]
        tauto

theorem sorted_insertLink (given : ∀ other ∈ links, other.href ≠ [])
    (sorted : links.Pairwise fun first second =>
      HrefLe first.href second.href) :
    (insertLink link links).Pairwise fun first second =>
      HrefLe first.href second.href := by
  induction links with
  | nil => simp [insertLink]
  | cons next rest ih =>
      rw [List.pairwise_cons] at sorted
      rw [List.forall_mem_cons] at given
      rw [insertLink]
      split <;> rename_i before
      · refine List.pairwise_cons.mpr
          ⟨?_, List.pairwise_cons.mpr sorted⟩
        intro other member
        rcases List.mem_cons.mp member with rfl | later
        · exact before.2.le
        · exact before.2.le.trans (sorted.1 other later)
      · refine List.pairwise_cons.mpr ⟨?_, ih given.2 sorted.2⟩
        intro other member
        rcases mem_insertLink.mp member with rfl | later
        · exact hrefLe_of_not_less fun less => before ⟨given.1, less⟩
        · exact sorted.1 other later

end Operations

theorem LinkedCollection.Sorted.step {collection : LinkedCollection}
    (holds : collection.Sorted) (operation : LinkOperation) :
    (collection.step operation).Sorted := by
  cases operation with
  | add uri =>
      by_cases none : uri.text = []
      · have same : (collection.ocCollectionAddLink uri).links =
            collection.links := if_pos none
        exact ⟨same ▸ holds.sorted, same ▸ holds.given⟩
      · have same : (collection.ocCollectionAddLink uri).links =
            insertLink ⟨collection.nextRef, uri⟩ collection.links :=
          if_neg none
        refine ⟨same ▸ sorted_insertLink holds.given holds.sorted, ?_⟩
        intro link member
        rcases mem_insertLink.mp (same ▸ member) with rfl | old
        · exact none
        · exact holds.given link old
  | remove ref =>
      exact ⟨holds.sorted.sublist (List.eraseP_sublist ..),
        fun link member => holds.given link (List.mem_of_mem_eraseP member)⟩

theorem sorted_runFrom (operations : List LinkOperation) :
    (runFrom LinkedCollection.step .empty operations).Sorted :=
  invariant_runFrom operations
    ⟨List.Pairwise.nil, by simp [LinkedCollection.empty]⟩
    fun _ operation holds => holds.step operation

end IotivityLite
