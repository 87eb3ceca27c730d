import IotivityLite.Server.Query
import Mathlib.Data.List.TakeWhile

/-!
# What the scanner of queries finds

The scanner describes the pairs between the ampersands by their places.
`pairAt` is the description of a pair that starts at a given place, and
`PairAt` says that the pair stands there.  The positions that the scanner
returns are right for pairs with a value and for the first pair.
-/

namespace IotivityLite

namespace Query

variable {pair : Bytes}

theorem pairKey_of_not_mem (bare : 61 ∉ pair) : pairKey pair = pair := by
  refine List.takeWhile_eq_self_iff.mpr fun character member => ?_
  simpa using fun same : character = 61 => bare (same ▸ member)

theorem queryPairValue_of_not_mem (bare : 61 ∉ pair) :
    queryPairValue pair = none := by
  have passed : pair.dropWhile (· != 61) = [] := by
    refine List.dropWhile_eq_nil_iff.mpr fun character member => ?_
    simpa using fun same : character = 61 => bare (same ▸ member)
  rw [queryPairValue, passed]

theorem pairKey_assignment {key : Bytes} (bare : 61 ∉ key)
    (value : Bytes) : pairKey (key ++ 61 :: value) = key := by
  rw [pairKey, List.takeWhile_append_of_pos]
  · simp
  · intro character member
    simpa using fun same : character = 61 => bare (same ▸ member)

theorem queryPairValue_assignment {key : Bytes} (bare : 61 ∉ key)
    (value : Bytes) : queryPairValue (key ++ 61 :: value) = some value := by
  have passed : (key ++ 61 :: value).dropWhile (· != 61) = 61 :: value := by
    rw [List.dropWhile_append_of_pos]
    · simp
    · intro character member
      simpa using fun same : character = 61 => bare (same ▸ member)
  rw [queryPairValue, passed]

theorem pair_cases (pair : Bytes) :
    61 ∉ pair ∨ ∃ key value, 61 ∉ key ∧ pair = key ++ 61 :: value := by
  by_cases member : 61 ∈ pair
  · obtain ⟨key, value, same, bare⟩ := List.eq_append_cons_of_mem member
    exact .inr ⟨key, value, bare, same⟩
  · exact .inl member

/-- The pair stands at the place, up to an ampersand or the end. -/
structure PairAt (query : Bytes) (start : Nat) (pair : Bytes) : Prop where
  clean : 38 ∉ pair
  inside : start + pair.length ≤ query.length
  here : query.drop start =
    pair ++ if start + pair.length = query.length then []
      else 38 :: query.drop (start + pair.length + 1)

/-- The description of a pair that starts at the place. -/
def pairAt (start : Nat) (pair : Bytes) : KeyValuePair where
  key := some start
  keyLen := (pairKey pair).length
  value := (queryPairValue pair).map fun _ =>
    start + (pairKey pair).length + 1
  valueLen := ((queryPairValue pair).getD []).length

variable {start : Nat}

theorem pairAt_bare (bare : 61 ∉ pair) :
    pairAt start pair = ⟨some start, pair.length, none, 0⟩ := by
  simp [pairAt, pairKey_of_not_mem bare, queryPairValue_of_not_mem bare]

variable {key value : Bytes}

theorem pairAt_assignment (bare : 61 ∉ key) :
    pairAt start (key ++ 61 :: value) =
      ⟨some start, key.length, some (start + key.length + 1),
        value.length⟩ := by
  simp [pairAt, pairKey_assignment bare, queryPairValue_assignment bare]

theorem nextPos_bare (bare : 61 ∉ pair) :
    (pairAt start pair).nextPos = pair.length := by
  rw [pairAt_bare bare, KeyValuePair.nextPos]

theorem nextPos_assignment (bare : 61 ∉ key) :
    (pairAt start (key ++ 61 :: value)).nextPos =
      start + (key ++ 61 :: value).length := by
  rw [pairAt_assignment bare, KeyValuePair.nextPos]
  simp only [List.length_append, List.length_cons]
  omega

theorem nextPos_first (pair : Bytes) :
    (pairAt 0 pair).nextPos = pair.length := by
  obtain bare | ⟨key, value, bare, rfl⟩ := pair_cases pair
  · exact nextPos_bare bare
  · rw [nextPos_assignment bare, Nat.zero_add]

namespace PairAt

variable {query : Bytes}

theorem pairEnd (placed : PairAt query start pair) :
    (Separated.next 38 query start).getD query.length =
      start + pair.length := by
  by_cases last : start + pair.length = query.length
  · have here := placed.here
    rw [if_pos last, List.append_nil] at here
    cases found : Separated.next 38 query start with
    | none => exact last.symm
    | some place =>
        obtain ⟨piece, -, -, whole⟩ := Separated.drop_of_next found
        refine absurd ?_ placed.clean
        rw [← here, whole]
        simp
  · have here := placed.here
    rw [if_neg last] at here
    rw [Separated.next_of_drop here placed.clean, Option.getD_some]

theorem ownValue_bare (placed : PairAt query start pair)
    (bare : 61 ∉ pair) :
    ownValue (Separated.next 61 query start)
      (Separated.next 38 query start) = none := by
  cases equals : Separated.next 61 query start with
  | none => rfl
  | some value =>
      obtain ⟨piece, -, rfl, whole⟩ := Separated.drop_of_next equals
      have here := placed.here
      by_cases last : start + pair.length = query.length
      · rw [if_pos last, List.append_nil] at here
        refine absurd ?_ bare
        rw [← here, whole]
        simp
      · rw [if_neg last] at here
        have beyond : pair.length < piece.length := by
          by_contra within
          have character := congrArg (·[piece.length]?) (whole.symm.trans here)
          simp only [List.getElem?_append_right (le_refl _),
            Nat.sub_self, List.getElem?_cons_zero] at character
          obtain below | same := Nat.lt_or_eq_of_le (Nat.not_lt.mp within)
          · rw [List.getElem?_append_left below] at character
            exact bare (List.mem_of_getElem? character.symm)
          · simp [same] at character
        rw [Separated.next_of_drop here placed.clean, ownValue,
          if_pos (by omega)]

theorem ownValue_assignment (placed : PairAt query start (key ++ 61 :: value))
    (bare : 61 ∉ key) :
    ownValue (Separated.next 61 query start)
      (Separated.next 38 query start) = some (start + key.length) := by
  have equals : Separated.next 61 query start =
      some (start + key.length) := by
    apply @Separated.next_of_drop _ _ _ query key
      (value ++ if start + (key ++ 61 :: value).length = query.length then []
        else 38 :: query.drop (start + (key ++ 61 :: value).length + 1))
    · rw [placed.here]
      simp
    · exact bare
  rw [equals]
  cases ampersand : Separated.next 38 query start with
  | none => rfl
  | some place =>
      have ends := placed.pairEnd
      rw [ampersand, Option.getD_some, List.length_append,
        List.length_cons] at ends
      rw [ownValue, if_neg (by omega)]

theorem scanned (placed : PairAt query start pair) {n : Nat}
    (nonempty : query ≠ []) (passed : passPairs query n 0 = some start) :
    ocRiFindQueryNthKeyValuePair query (n + 1) = pairAt start pair := by
  rw [ocRiFindQueryNthKeyValuePair, if_neg nonempty, Nat.add_sub_cancel,
    passed]
  dsimp only
  rw [placed.pairEnd]
  obtain bare | ⟨key, value, bare, rfl⟩ := pair_cases pair
  · rw [placed.ownValue_bare bare, pairAt_bare bare]
    simp
  · rw [placed.ownValue_assignment bare, pairAt_assignment bare]
    have lengths : (key ++ 61 :: value).length =
        key.length + (value.length + 1) := by simp
    simp only [lengths, KeyValuePair.mk.injEq, true_and]
    omega

end PairAt

theorem exists_pairAt (query : Bytes) (inside : start ≤ query.length) :
    ∃ pair, PairAt query start pair ∧
      ((start + pair.length = query.length ∧
          Separated.next 38 query start = none) ∨
        Separated.next 38 query start = some (start + pair.length) ∧
          start + pair.length < query.length) := by
  cases found : Separated.next 38 query start with
  | none =>
      have whole : start + (query.drop start).length = query.length := by
        rw [List.length_drop]
        omega
      refine ⟨query.drop start, ⟨Separated.not_mem_of_next found, whole.le,
        ?_⟩, .inl ⟨whole, rfl⟩⟩
      rw [if_pos whole, List.append_nil]
  | some place =>
      obtain ⟨pair, clean, rfl, here⟩ := Separated.drop_of_next found
      have lengths := congrArg List.length here
      simp only [List.length_drop, List.length_append,
        List.length_cons] at lengths
      refine ⟨pair, ⟨clean, by omega, ?_⟩, .inr ⟨rfl, by omega⟩⟩
      rw [if_neg (by omega)]
      exact here

namespace PairAt

variable {query : Bytes}

theorem queryPairs_eq (placed : PairAt query start pair) :
    queryPairs (query.drop start) =
      pair :: if start + pair.length = query.length then []
        else queryPairs (query.drop (start + pair.length + 1)) := by
  rw [placed.here]
  split
  · rw [List.append_nil, queryPairs, List.splitOn_eq_singleton placed.clean]
  · exact List.splitOn_append_cons_self_of_not_mem placed.clean _

theorem endedPairs_eq (placed : PairAt query start pair)
    (more : start < query.length) :
    endedPairs (query.drop start) =
      pair :: endedPairs (query.drop (start + pair.length + 1)) := by
  have nonempty : query.drop start ≠ [] := by
    intro empty
    have := List.drop_eq_nil_iff.mp empty
    omega
  rw [placed.here] at nonempty ⊢
  split at nonempty <;> rename_i last
  · rw [if_pos last, List.append_nil] at *
    rw [endedPairs, Separated.ended_of_not_mem placed.clean nonempty,
      List.drop_eq_nil_of_le (by omega), endedPairs, Separated.ended_nil]
  · rw [if_neg last]
    exact Separated.ended_cons placed.clean _

end PairAt

theorem endedPairs_later (query : Bytes) (place : Nat) :
    endedPairs (query.drop place) ≠ [] ↔ place < query.length := by
  constructor
  · intro more
    by_contra beyond
    refine more ?_
    rw [List.drop_eq_nil_of_le (Nat.not_lt.mp beyond)]
    exact Separated.ended_nil
  · intro inside
    apply Separated.ended_ne_nil
    rw [Ne, List.drop_eq_nil_iff]
    omega

theorem queryPairs_passed {query : Bytes} {n start : Nat}
    (inside : start ≤ query.length) :
    match passPairs query n start with
    | none => (queryPairs (query.drop start)).length ≤ n
    | some place => place ≤ query.length ∧
        queryPairs (query.drop place) =
          (queryPairs (query.drop start)).drop n ∧
        endedPairs (query.drop place) =
          (endedPairs (query.drop start)).drop n := by
  induction n generalizing start with
  | zero => exact ⟨inside, rfl, rfl⟩
  | succ n ih =>
      obtain ⟨pair, placed, ⟨last, found⟩ | ⟨found, more⟩⟩ :=
        exists_pairAt query inside
      · rw [passPairs, found, placed.queryPairs_eq, if_pos last]
        simp
      · rw [passPairs, found, placed.queryPairs_eq, if_neg (by omega),
          placed.endedPairs_eq (by omega)]
        simpa using ih more

/-- The pair was visited as the one with number `n`. -/
structure NthPair (query : Bytes) (n start : Nat) (pair : Bytes) :
    Prop where
  placed : PairAt query start pair
  here : (queryPairs query)[n]? = some pair
  first : n = 0 → start = 0
  later : (endedPairs query).drop (n + 1) =
    endedPairs (query.drop (start + pair.length + 1))

theorem ocRiGetQueryNthKeyValue_eq {query : Bytes} (nonempty : query ≠ [])
    (n : Nat) :
    ((queryPairs query).length ≤ n ∧
        ocRiGetQueryNthKeyValue query (n + 1) = none) ∨
      ∃ start pair, NthPair query n start pair ∧
        ocRiGetQueryNthKeyValue query (n + 1) =
          some (pairAt start pair, (pairAt start pair).nextPos + 1) := by
  have passes := @queryPairs_passed query n 0 (Nat.zero_le _)
  rw [List.drop_zero] at passes
  cases passed : passPairs query n 0 with
  | none =>
      rw [passed] at passes
      refine .inl ⟨passes, ?_⟩
      rw [ocRiGetQueryNthKeyValue, ocRiFindQueryNthKeyValuePair,
        if_neg nonempty, Nat.add_sub_cancel, passed]
      simp
  | some start =>
      rw [passed] at passes
      obtain ⟨inside, rest, ended⟩ := passes
      obtain ⟨pair, placed, ends⟩ := exists_pairAt query inside
      refine .inr ⟨start, pair, ⟨placed, ?_, ?_, ?_⟩, ?_⟩
      · rw [← List.head?_drop, ← rest, placed.queryPairs_eq,
          List.head?_cons]
      · rintro rfl
        cases passed
        rfl
      · rw [← List.drop_drop, ← ended]
        obtain more | last := Nat.lt_or_eq_of_le inside
        · rw [placed.endedPairs_eq more, List.drop_one, List.tail_cons]
        · have done (place : Nat) (beyond : query.length ≤ place) :
              endedPairs (query.drop place) = [] := by
            rw [List.drop_eq_nil_of_le beyond]
            exact Separated.ended_nil
          rw [done start last.ge, done _ (by omega), List.drop_nil]
      · rw [ocRiGetQueryNthKeyValue, placed.scanned nonempty passed]
        simp [pairAt]

theorem ocRiGetQueryNthKeyValue_first {query : Bytes}
    (nonempty : query ≠ []) :
    ∃ pair, PairAt query 0 pair ∧
      ocRiFindQueryNthKeyValuePair query 1 = pairAt 0 pair := by
  obtain ⟨pair, placed, -⟩ := exists_pairAt query (Nat.zero_le _)
  exact ⟨pair, placed, @PairAt.scanned _ _ _ placed 0 nonempty rfl⟩

end Query

end IotivityLite
