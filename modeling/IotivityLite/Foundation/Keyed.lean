import Mathlib.Data.List.Nodup

/-!
# Lists of records with keys

A list of records that are told apart by a key.  A record is looked up, and
taken out of the list, by the first position with its key; with distinct keys
there is no other.
-/

namespace IotivityLite

theorem perm_cons_eraseP_of_find? {α : Type} {matching : α → Bool}
    {records : List α} {record : α}
    (found : records.find? matching = some record) :
    records.Perm (record :: records.eraseP matching) := by
  induction records with
  | nil => cases found
  | cons first rest ih =>
      by_cases here : matching first = true
      · rw [List.find?_cons_of_pos here] at found
        obtain rfl := Option.some.inj found
        rw [List.eraseP_cons_of_pos here]
      · rw [List.find?_cons_of_neg here] at found
        rw [List.eraseP_cons_of_neg here]
        exact ((ih found).cons first).trans (List.Perm.swap record first _)

section Keyed

variable {α κ : Type} [BEq κ] [LawfulBEq κ] {key : α → κ} {records : List α}
  {wanted : κ} {record : α}

theorem find?_key_none_iff :
    records.find? (fun other => key other == wanted) = none ↔
      ∀ other ∈ records, key other ≠ wanted := by
  simp [List.find?_eq_none]

section

variable (distinct : (records.map key).Nodup)

include distinct

theorem find?_key_some_iff :
    records.find? (fun other => key other == wanted) = some record ↔
      record ∈ records ∧ key record = wanted := by
  constructor
  · intro found
    exact ⟨List.mem_of_find?_eq_some found,
      by simpa using List.find?_some found⟩
  · rintro ⟨member, rfl⟩
    induction records with
    | nil => cases member
    | cons first rest ih =>
        rw [List.map_cons, List.nodup_cons] at distinct
        rcases List.mem_cons.mp member with rfl | later
        · simp
        · have different : key first ≠ key record := by
            intro same
            exact distinct.1 (List.mem_map.mpr ⟨record, later, same.symm⟩)
          rw [List.find?_cons_of_neg (by simpa using different)]
          exact ih distinct.2 later

theorem mem_eraseP_key_iff :
    record ∈ records.eraseP (fun other => key other == wanted) ↔
      record ∈ records ∧ key record ≠ wanted := by
  induction records with
  | nil => simp
  | cons first rest ih =>
      rw [List.map_cons, List.nodup_cons] at distinct
      by_cases here : key first = wanted
      · rw [List.eraseP_cons_of_pos (by simpa using here)]
        have others : record ∈ rest → key record ≠ wanted := by
          intro later same
          exact distinct.1
            (List.mem_map.mpr ⟨record, later, same.trans here.symm⟩)
        constructor
        · intro later
          exact ⟨List.mem_cons_of_mem first later, others later⟩
        · rintro ⟨member, different⟩
          rcases List.mem_cons.mp member with rfl | later
          · exact absurd here different
          · exact later
      · rw [List.eraseP_cons_of_neg (by simpa using here), List.mem_cons,
          ih distinct.2, List.mem_cons]
        constructor
        · rintro (rfl | ⟨later, different⟩)
          · exact ⟨.inl rfl, here⟩
          · exact ⟨.inr later, different⟩
        · rintro ⟨rfl | later, different⟩
          · exact .inl rfl
          · exact .inr ⟨later, different⟩

theorem perm_cons_eraseP_key (member : record ∈ records) :
    records.Perm
      (record :: records.eraseP (fun other => key other == key record)) := by
  obtain ⟨found, before, after, -, matching, split, erased⟩ :=
    List.exists_of_eraseP (p := fun other => key other == key record)
      member (by simp)
  have foundMember : found ∈ records := by
    rw [split]
    exact List.mem_append_right before List.mem_cons_self
  have same : found = record :=
    List.inj_on_of_nodup_map distinct foundMember member
      (by simpa using matching)
  rw [erased, split, same]
  exact List.perm_middle

omit [BEq κ] [LawfulBEq κ] in
theorem nodup_map_eraseP {condition : α → Bool} :
    ((records.eraseP condition).map key).Nodup :=
  distinct.sublist (List.eraseP_sublist.map key)

theorem find?_eraseP_key_self :
    (records.eraseP (fun other => key other == wanted)).find?
        (fun other => key other == wanted) = none := by
  rw [find?_key_none_iff]
  intro other member
  exact ((mem_eraseP_key_iff distinct).mp member).2

end

theorem find?_eraseP_key_other {other : κ} (different : other ≠ wanted)
    (records : List α) :
    (records.eraseP (fun record => key record == wanted)).find?
        (fun record => key record == other) =
      records.find? (fun record => key record == other) := by
  induction records with
  | nil => rfl
  | cons first rest ih =>
      by_cases here : key first = wanted
      · have skipped : ¬ (key first == other) = true := by
          rw [beq_iff_eq, here]
          exact different.symm
        rw [List.eraseP_cons_of_pos (by simpa using here),
          List.find?_cons_of_neg (p := fun record => key record == other)
            skipped]
      · rw [List.eraseP_cons_of_neg (by simpa using here), List.find?_cons,
          List.find?_cons, ih]

theorem find?_self_of_pairwise (matching : α → α → Bool)
    (reflexive : ∀ other, matching other other = true)
    (apart : records.Pairwise fun first second =>
      matching first second = false)
    (member : record ∈ records) :
    records.find? (fun other => matching other record) = some record := by
  induction records with
  | nil => cases member
  | cons first rest ih =>
      rw [List.pairwise_cons] at apart
      rcases List.mem_cons.mp member with rfl | later
      · simp [reflexive]
      · rw [List.find?_cons, apart.1 record later]
        exact ih apart.2 later

end Keyed

end IotivityLite
