import IotivityLite.Server.QueryPairs

/-!
# Looking for a key in a query

The two searches for a key walk from pair to pair and stop at the first one
with the key; an empty pair behind a last ampersand is not visited.
-/

namespace IotivityLite

namespace Query

/-- The key of the pair is the one looked for. -/
def hasKey (key pair : Bytes) : Bool :=
  (pairKey pair).length == key.length && agreesUpToCase key (pairKey pair)

/-- What a search delivers of a pair: its value and the length of it. -/
def valueOf (pair : Bytes) : Option Bytes × Nat :=
  (queryPairValue pair, ((queryPairValue pair).getD []).length)

/-- The text at the pointer that a search delivers. -/
def deliveredText (query : Bytes) (result : Option Nat × Nat) :
    Option Bytes × Nat :=
  (result.1.map fun place => textAt query place result.2, result.2)

variable {query pair : Bytes}

theorem PairAt.delivered {start : Nat} (placed : PairAt query start pair) :
    deliveredText query
      ((pairAt start pair).value, (pairAt start pair).valueLen) =
        valueOf pair := by
  obtain bare | ⟨key, value, bare, rfl⟩ := pair_cases pair
  · rw [pairAt_bare bare, valueOf, queryPairValue_of_not_mem bare]
    rfl
  · rw [pairAt_assignment bare, valueOf, queryPairValue_assignment bare]
    have behind : query.drop (start + key.length + 1) = value ++
        if start + (key ++ 61 :: value).length = query.length then []
        else 38 :: query.drop
          (start + (key ++ 61 :: value).length + 1) := by
      rw [Nat.add_assoc, ← List.drop_drop, placed.here, List.append_assoc,
        ← List.drop_drop, List.drop_left']
      · simp
      · rfl
    simp [deliveredText, textAt, behind]

theorem PairAt.keyText {start : Nat} (placed : PairAt query start pair) :
    textAt query start (pairKey pair).length = pairKey pair := by
  rw [textAt, placed.here]
  obtain bare | ⟨key, value, bare, rfl⟩ := pair_cases pair
  · rw [pairKey_of_not_mem bare]
    exact List.take_left
  · rw [pairKey_assignment bare, List.append_assoc]
    exact List.take_left

theorem PairAt.named {base : Nat} (placed : PairAt query base pair)
    (key : Bytes) : (pairAt 0 pair).named query base key = hasKey key pair := by
  rw [KeyValuePair.named, hasKey, ← placed.keyText]
  simp [pairAt, placed.keyText]

variable {pos start : Nat}

theorem PairAt.of_drop (inside : pos ≤ query.length)
    (placed : PairAt (query.drop pos) start pair) :
    PairAt query (pos + start) pair := by
  have within := placed.inside
  have here := placed.here
  rw [List.length_drop] at within here
  refine ⟨placed.clean, by omega, ?_⟩
  rw [List.drop_drop, List.drop_drop] at here
  rw [here]
  congr 2
  · simp only [eq_iff_iff]
    omega
  · rw [Nat.add_assoc, Nat.add_assoc, Nat.add_assoc]

/-- The first of the pairs from a place on that has the key. -/
structure FirstPair (query key : Bytes) (pos start : Nat) (pair : Bytes) :
    Prop where
  placed : PairAt query start pair
  named : hasKey key pair
  first : ∃ passed, endedPairs (query.drop pos) =
      passed ++ pair :: endedPairs (query.drop (start + pair.length + 1)) ∧
    ∀ other ∈ passed, hasKey key other = false

theorem FirstPair.find {query key pair : Bytes}
    (first : FirstPair query key pos start pair) :
    (endedPairs (query.drop pos)).find? (hasKey key) = some pair := by
  obtain ⟨passed, whole, others⟩ := first.first
  rw [whole, List.find?_append, List.find?_eq_none.mpr, Option.none_or,
    List.find?_cons_of_pos first.named]
  intro other member
  simp [others other member]

theorem walk_step {query : Bytes} {pos : Nat} (inside : pos < query.length) :
    ∃ pair, PairAt query pos pair ∧
      ocRiFindQueryNthKeyValuePair (query.drop pos) 1 = pairAt 0 pair ∧
      endedPairs (query.drop pos) =
        pair :: endedPairs (query.drop (pos + pair.length + 1)) := by
  have nonempty : query.drop pos ≠ [] := by
    rw [Ne, List.drop_eq_nil_iff]
    omega
  obtain ⟨pair, there, described⟩ := ocRiGetQueryNthKeyValue_first nonempty
  have placed := there.of_drop inside.le
  exact ⟨pair, placed, described, placed.endedPairs_eq inside⟩

theorem FirstPair.later {query key pair other : Bytes}
    (first : FirstPair query key (pos + other.length + 1) start pair)
    (whole : endedPairs (query.drop pos) =
      other :: endedPairs (query.drop (pos + other.length + 1)))
    (different : hasKey key other = false) :
    FirstPair query key pos start pair := by
  obtain ⟨passed, rest, others⟩ := first.first
  refine ⟨first.placed, first.named, other :: passed, ?_, ?_⟩
  · rw [whole, rest, List.cons_append]
  · exact List.forall_mem_cons.mpr ⟨different, others⟩

theorem findValue_eq (query key : Bytes) (pos : Nat) :
    (findValue query key pos = none ∧
        ∀ other ∈ endedPairs (query.drop pos), hasKey key other = false) ∨
      ∃ start pair, FirstPair query key pos start pair ∧
        findValue query key pos =
          some ((pairAt start pair).value, (pairAt start pair).valueLen) := by
  induction left : query.length - pos using Nat.strong_induction_on
    generalizing pos with
  | _ left ih =>
      rw [findValue]
      by_cases inside : pos < query.length
      · obtain ⟨pair, placed, described, whole⟩ := walk_step inside
        have scanned : ocRiGetQueryNthKeyValue (query.drop pos) 1 =
            some (pairAt 0 pair, pair.length + 1) := by
          rw [ocRiGetQueryNthKeyValue, described, nextPos_first]
          simp [pairAt]
        rw [if_pos inside]
        split
        · next missing => simp [scanned] at missing
        · next found =>
            rw [scanned] at found
            cases found
            rw [placed.named]
            by_cases same : hasKey key pair
            · refine .inr ⟨pos, pair, ⟨placed, same, [], whole, by simp⟩, ?_⟩
              simp [same, pairAt, Function.comp_def, Nat.add_assoc]
            · have different := Bool.eq_false_iff.mpr same
              rw [if_neg same, ← Nat.add_assoc]
              obtain ⟨missing, others⟩ | ⟨start, later, first, found⟩ :=
                ih _ (by omega) (pos + pair.length + 1) rfl
              · refine .inl ⟨missing, ?_⟩
                rw [whole]
                exact List.forall_mem_cons.mpr ⟨different, others⟩
              · exact .inr ⟨start, later, first.later whole different, found⟩
      · rw [if_neg inside]
        refine .inl ⟨rfl, ?_⟩
        rw [List.drop_eq_nil_of_le (Nat.not_lt.mp inside), endedPairs,
          Separated.ended_nil]
        simp

theorem findKey_eq (query key : Bytes) (pos : Nat) :
    findKey query key pos =
      (endedPairs (query.drop pos)).any (hasKey key) := by
  induction left : query.length - pos using Nat.strong_induction_on
    generalizing pos with
  | _ left ih =>
      rw [findKey]
      by_cases inside : pos < query.length
      · obtain ⟨pair, placed, described, whole⟩ := walk_step inside
        -- behind the last pair the walk stands at or behind the end
        have scanned : ∃ next, ocRiQueryNthKeyExists (query.drop pos) 1 =
              some (pairAt 0 pair, next) ∧ pos < pos + next ∧
            endedPairs (query.drop (pos + pair.length + 1)) =
              endedPairs (query.drop (pos + next)) := by
          have present : (pairAt 0 pair).key ≠ none := Option.some_ne_none _
          rw [ocRiQueryNthKeyExists, described, if_neg present,
            nextPos_first]
          by_cases last : pair.length < (query.drop pos).length
          · rw [if_pos last]
            exact ⟨pair.length + 1, rfl, by omega, rfl⟩
          · rw [if_neg last]
            rw [List.length_drop] at last
            refine ⟨pair.length, rfl, by omega, ?_⟩
            rw [List.drop_eq_nil_of_le, List.drop_eq_nil_of_le] <;> omega
        obtain ⟨next, scanned, moves, rest⟩ := scanned
        rw [if_pos inside, whole, List.any_cons, rest]
        split
        · next missing => simp [scanned] at missing
        · next found =>
            rw [scanned] at found
            cases found
            rw [placed.named, ih _ (by omega) (pos + next) rfl]
            cases hasKey key pair <;> rfl
      · rw [if_neg inside, List.drop_eq_nil_of_le (Nat.not_lt.mp inside),
          endedPairs, Separated.ended_nil]
        rfl

theorem agreesUpToCase_iff {key : Bytes} (whole : 0 ∉ key) {other : Bytes}
    (lengths : other.length = key.length) :
    agreesUpToCase key other = true ↔ SameFolded key other := by
  induction key generalizing other with
  | nil =>
      cases List.eq_nil_of_length_eq_zero lengths
      simp [agreesUpToCase, SameFolded]
  | cons character key ih =>
      cases other with
      | nil => cases lengths
      | cons opposite other =>
          rw [List.mem_cons, not_or] at whole
          have visible : (character == 0) = false := by
            simpa using Ne.symm whole.1
          have rest := ih whole.2 (Nat.succ.inj lengths)
          simp [agreesUpToCase, SameFolded, visible, rest]

theorem hasKey_iff {key : Bytes} (whole : 0 ∉ key) (pair : Bytes) :
    hasKey key pair = true ↔ SameFolded key (pairKey pair) := by
  rw [hasKey, Bool.and_eq_true, beq_iff_eq]
  constructor
  · rintro ⟨lengths, agrees⟩
    exact (agreesUpToCase_iff whole lengths).mp agrees
  · intro same
    exact ⟨same.length.symm, (agreesUpToCase_iff whole same.length.symm).mpr
      same⟩

end Query

end IotivityLite
