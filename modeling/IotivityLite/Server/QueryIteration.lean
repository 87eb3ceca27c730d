import IotivityLite.Server.QuerySearch

/-!
# Iterating over a query

The iterator visits the pairs of a query in order.  The search that goes on
from the iterator answers that there is more whenever a pair follows, whatever
its key; behind a key without a value that is not the first pair it may answer
so at the end as well.
-/

namespace IotivityLite

namespace Query

/-- What the pointers and lengths of a pair describe. -/
def pairTexts (query : Bytes) (pair : KeyValuePair) : Bytes × Option Bytes :=
  (textAt query (pair.key.getD 0) pair.keyLen,
    pair.value.map fun value => textAt query value pair.valueLen)

variable {query pair : Bytes}

theorem PairAt.texts {start : Nat} (placed : PairAt query start pair) :
    pairTexts query (pairAt start pair) =
      (pairKey pair, queryPairValue pair) := by
  have value := congrArg Prod.fst placed.delivered
  exact Prod.ext placed.keyText value

/-- The loop that calls `oc_iterate_query` until it returns -1. -/
def iteratePairs (query : Bytes) (iterator : Nat) : List KeyValuePair :=
  match _found : (ocIterateQuery query iterator).1 with
  | none => []
  | some (pair, _) =>
      pair :: iteratePairs query (ocIterateQuery query iterator).2
  termination_by query.length + 1 - iterator
  decreasing_by
    have := ocRiGetQueryNthKeyValue_bound _found
    dsimp only [ocIterateQuery]
    omega

variable {n start : Nat}

theorem NthPair.drop (nth : NthPair query n start pair) :
    (queryPairs query).drop n = pair :: (queryPairs query).drop (n + 1) := by
  obtain ⟨below, same⟩ := List.getElem?_eq_some_iff.mp nth.here
  rw [List.drop_eq_getElem_cons below, same]

theorem iteratePairs_eq {query : Bytes} (nonempty : query ≠ [])
    (iterator : Nat) :
    (iteratePairs query iterator).map (pairTexts query) =
      ((queryPairs query).drop iterator).map fun pair =>
        (pairKey pair, queryPairValue pair) := by
  induction left : (queryPairs query).length - iterator
    generalizing iterator with
  | zero =>
      rw [iteratePairs]
      split
      · rw [List.drop_eq_nil_of_le (by omega)]
        rfl
      · next found =>
          rw [ocIterateQuery] at found
          obtain ⟨-, missing⟩ | ⟨start, pair, nth, -⟩ :=
            ocRiGetQueryNthKeyValue_eq nonempty iterator
          · rw [missing] at found
            cases found
          · have := (List.getElem?_eq_some_iff.mp nth.here).1
            omega
  | succ left ih =>
      rw [iteratePairs]
      obtain ⟨above, -⟩ | ⟨start, pair, nth, scanned⟩ :=
        ocRiGetQueryNthKeyValue_eq nonempty iterator
      · omega
      · split
        · next missing =>
            rw [ocIterateQuery, scanned] at missing
            cases missing
        · next found =>
            rw [ocIterateQuery, scanned] at found
            cases found
            rw [List.map_cons, nth.placed.texts, nth.drop, List.map_cons]
            exact congrArg _ (ih (iterator + 1) (by omega))

theorem NthPair.more_iff (nth : NthPair query n start pair)
    (regular : 61 ∈ pair ∨ n = 0) :
    (pairAt start pair).nextPos + 1 < query.length ↔
      (endedPairs query).drop (n + 1) ≠ [] := by
  have ends : (pairAt start pair).nextPos = start + pair.length := by
    obtain member | first := regular
    · obtain bare | ⟨key, value, bare, rfl⟩ := pair_cases pair
      · exact absurd member bare
      · exact nextPos_assignment bare
    · rw [nth.first first, nextPos_first, Nat.zero_add]
  rw [nth.later, endedPairs_later, ends]

theorem NthPair.more_of_later (nth : NthPair query n start pair)
    (later : (endedPairs query).drop (n + 1) ≠ []) :
    (pairAt start pair).nextPos + 1 < query.length := by
  by_cases member : 61 ∈ pair
  · exact (nth.more_iff (.inl member)).mpr later
  · rw [nth.later, endedPairs_later] at later
    rw [nextPos_bare member]
    omega

/-- The search stops at the pair with number `n`. -/
structure NextPair (query key : Bytes) (iterator n start : Nat)
    (pair : Bytes) : Prop where
  nth : NthPair query n start pair
  named : pairKey pair = key
  first : ∃ passed, (queryPairs query).drop iterator =
      passed ++ (queryPairs query).drop n ∧
    n = iterator + passed.length ∧ ∀ other ∈ passed, pairKey other ≠ key

theorem findNextValue_eq {query : Bytes} (nonempty : query ≠ [])
    (key : Bytes) (iterator : Nat) :
    ((findNextValue query key iterator).value = none ∧
        (findNextValue query key iterator).more = false ∧
        ∀ other ∈ (queryPairs query).drop iterator, pairKey other ≠ key) ∨
      ∃ n start pair, NextPair query key iterator n start pair ∧
        findNextValue query key iterator =
          ⟨some ((pairAt start pair).value, (pairAt start pair).valueLen),
            decide ((pairAt start pair).nextPos + 1 < query.length),
            n + 1⟩ := by
  induction left : (queryPairs query).length - iterator
    using Nat.strong_induction_on generalizing iterator with
  | _ left ih =>
      rw [findNextValue]
      obtain ⟨above, scanned⟩ | ⟨start, pair, nth, scanned⟩ :=
        ocRiGetQueryNthKeyValue_eq nonempty iterator
      · split
        · rw [List.drop_eq_nil_of_le above]
          exact .inl ⟨rfl, rfl, by simp⟩
        · next found => simp [scanned] at found
      · have below := (List.getElem?_eq_some_iff.mp nth.here).1
        have compared : ((pairAt start pair).keyLen = key.length ∧
            textAt query ((pairAt start pair).key.getD 0)
              (pairAt start pair).keyLen = key) ↔ pairKey pair = key := by
          have keyText : textAt query ((pairAt start pair).key.getD 0)
              (pairAt start pair).keyLen = pairKey pair := nth.placed.keyText
          rw [keyText]
          exact and_iff_right_of_imp (congrArg List.length)
        split
        · next missing => simp [scanned] at missing
        · next found =>
            rw [scanned] at found
            cases found
            by_cases same : pairKey pair = key
            · rw [if_pos (compared.mpr same)]
              exact .inr ⟨iterator, start, pair, ⟨nth, same, [], rfl, rfl,
                by simp⟩, rfl⟩
            · rw [if_neg (mt compared.mp same)]
              obtain ⟨missing, done, others⟩ |
                  ⟨n, later, next, stops, outcome⟩ :=
                ih _ (by omega) (iterator + 1) rfl
              · refine .inl ⟨missing, done, ?_⟩
                rw [nth.drop]
                exact List.forall_mem_cons.mpr ⟨same, others⟩
              · obtain ⟨passed, rest, number, others⟩ := stops.first
                refine .inr ⟨n, later, next, ⟨stops.nth, stops.named,
                  pair :: passed, ?_, ?_, ?_⟩, outcome⟩
                · rw [nth.drop, rest, List.cons_append]
                · rw [List.length_cons]
                  omega
                · exact List.forall_mem_cons.mpr ⟨same, others⟩

variable {key : Bytes}

theorem findNextValue_moves {iterator : Nat}
    (more : (findNextValue query key iterator).more = true) :
    iterator < (findNextValue query key iterator).iterator ∧
      iterator < query.length + 1 := by
  induction left : query.length + 1 - iterator using Nat.strong_induction_on
    generalizing iterator with
  | _ left ih =>
      rw [findNextValue] at more ⊢
      split
      · next missing =>
          split at more
          · cases more
          · next found => simp [missing] at found
      · next found =>
          have bound := ocRiGetQueryNthKeyValue_bound found
          split at more
          · cases more
          · next again =>
              rw [found] at again
              cases again
              split at more
              · next same =>
                  rw [if_pos same]
                  exact ⟨Nat.lt_succ_self _, bound⟩
              · next different =>
                  have later := ih _ (by omega) more rfl
                  rw [if_neg different]
                  omega

theorem ocIterateQueryGetValuesV1_moves {iterator : Nat}
    (more : (ocIterateQueryGetValuesV1 query key iterator).more = true) :
    iterator < (ocIterateQueryGetValuesV1 query key iterator).iterator ∧
      iterator < query.length + 1 := by
  rw [ocIterateQueryGetValuesV1] at more ⊢
  split at more <;> rename_i long
  · cases more
  · rw [if_neg long]
    exact findNextValue_moves more

/-- The loop that calls `oc_iterate_query_get_values_v1` while there is more;
a call that stores no value contributes `none`. -/
def iterateValues (query key : Bytes) (iterator : Nat) :
    List (Option (Option Nat × Nat)) :=
  let outcome := ocIterateQueryGetValuesV1 query key iterator
  if _more : outcome.more = true then
    outcome.value :: iterateValues query key outcome.iterator
  else [outcome.value]
  termination_by query.length + 1 - iterator
  decreasing_by
    have := ocIterateQueryGetValuesV1_moves _more
    omega

theorem queryPairs_eq_or (query : Bytes) :
    queryPairs query = endedPairs query ∨
      queryPairs query = endedPairs query ++ [[]] := by
  unfold endedPairs Separated.ended
  split
  · next last =>
      right
      exact (List.dropLast_append_getLast? [] last).symm
  · exact .inl rfl

/-- The values of the pairs with a key. -/
def valuesOf (key : Bytes) (pairs : List Bytes) :
    List (Option Bytes × Nat) :=
  (pairs.filter fun pair => pairKey pair = key).map valueOf

theorem valuesOf_append (key : Bytes) (first second : List Bytes) :
    valuesOf key (first ++ second) =
      valuesOf key first ++ valuesOf key second := by
  simp [valuesOf]

theorem valuesOf_none {key : Bytes} {pairs : List Bytes}
    (others : ∀ other ∈ pairs, pairKey other ≠ key) :
    valuesOf key pairs = [] := by
  rw [valuesOf, List.filter_eq_nil_iff.mpr, List.map_nil]
  simpa using others

theorem valuesOf_cons {key pair : Bytes} (named : pairKey pair = key)
    (pairs : List Bytes) :
    valuesOf key (pair :: pairs) = valueOf pair :: valuesOf key pairs := by
  simp [valuesOf, named]

variable {iterator : Nat}

theorem NextPair.valuesOf_drop {iterator n start : Nat}
    (next : NextPair query key iterator n start pair) :
    valuesOf key ((queryPairs query).drop iterator) =
      valueOf pair :: valuesOf key ((queryPairs query).drop (n + 1)) := by
  obtain ⟨passed, rest, -, others⟩ := next.first
  rw [rest, valuesOf_append, valuesOf_none others, next.nth.drop,
    valuesOf_cons next.named, List.nil_append]

theorem NextPair.valuesOf_drop_ended
    (next : NextPair query key iterator n start pair)
    (below : n < (endedPairs query).length) :
    valuesOf key ((endedPairs query).drop iterator) =
      valueOf pair :: valuesOf key ((endedPairs query).drop (n + 1)) := by
  obtain same | more := queryPairs_eq_or query
  · rw [← same]
    exact next.valuesOf_drop
  · have whole := next.valuesOf_drop
    obtain ⟨passed, -, number, -⟩ := next.first
    rw [more, List.drop_append_of_le_length (by omega),
      List.drop_append_of_le_length (by omega), valuesOf_append,
      valuesOf_append, ← List.cons_append] at whole
    exact List.append_cancel_right whole

theorem NextPair.drop_of_not_ended
    (next : NextPair query key iterator n start pair)
    (above : (endedPairs query).length ≤ n) :
    (queryPairs query).drop (n + 1) = [] := by
  have below := (List.getElem?_eq_some_iff.mp next.nth.here).1
  apply List.drop_eq_nil_of_le
  obtain same | more := queryPairs_eq_or query
  · have lengths := congrArg List.length same
    omega
  · rw [more, List.length_append, List.length_singleton]
    omega

theorem iterateValues_eq (nonempty : query ≠ [])
    (short : key.length ≤ coapOptionQueryMaxSize) (iterator : Nat) :
    (iterateValues query key iterator).filterMap
        (·.map (deliveredText query)) =
        valuesOf key ((queryPairs query).drop iterator) ∨
      (iterateValues query key iterator).filterMap
        (·.map (deliveredText query)) =
        valuesOf key ((endedPairs query).drop iterator) := by
  induction left : (queryPairs query).length - iterator
    using Nat.strong_induction_on generalizing iterator with
  | _ left ih =>
      have outcome : ocIterateQueryGetValuesV1 query key iterator =
          findNextValue query key iterator := if_neg (by omega)
      rw [iterateValues, outcome]
      obtain ⟨missing, done, others⟩ | ⟨n, start, pair, next, stops⟩ :=
        findNextValue_eq nonempty key iterator
      · rw [missing, done, valuesOf_none others]
        exact .inl rfl
      · have below := (List.getElem?_eq_some_iff.mp next.nth.here).1
        have delivered (rest : List (Option (Option Nat × Nat))) :
            (some ((pairAt start pair).value, (pairAt start pair).valueLen) ::
              rest).filterMap (·.map (deliveredText query)) =
            valueOf pair :: rest.filterMap (·.map (deliveredText query)) := by
          rw [← next.nth.placed.delivered]
          rfl
        rw [stops]
        dsimp only
        rw [next.valuesOf_drop]
        by_cases more : (pairAt start pair).nextPos + 1 < query.length
        · obtain ⟨passed, -, number, -⟩ := next.first
          rw [decide_eq_true more, dif_pos rfl, delivered]
          obtain all | ended := ih _ (by omega) (n + 1) rfl
          · exact .inl (congrArg _ all)
          · by_cases inside : n < (endedPairs query).length
            · rw [next.valuesOf_drop_ended inside]
              exact .inr (congrArg _ ended)
            · refine .inl (congrArg _ (ended.trans ?_))
              rw [List.drop_eq_nil_of_le (by omega),
                next.drop_of_not_ended (by omega)]
        · have last := not_not.mp (mt next.nth.more_of_later more)
          rw [decide_eq_false more, dif_neg Bool.false_ne_true, delivered]
          by_cases inside : n < (endedPairs query).length
          · rw [next.valuesOf_drop_ended inside, last]
            exact .inr rfl
          · rw [next.drop_of_not_ended (by omega)]
            exact .inl rfl

/-- What a search from the iterator does when it stops at a pair. -/
structure StopsAt (query key : Bytes) (iterator : Nat) (pair : Bytes)
    (outcome : ValuesOutcome) : Prop where
  named : pairKey pair = key
  value : outcome.value.map (deliveredText query) = some (valueOf pair)
  first : ∃ passed later, (pairs query).drop iterator =
      passed ++ pair :: later ∧
    outcome.iterator = iterator + passed.length + 1 ∧
    ∀ other ∈ passed, pairKey other ≠ key
  more : 61 ∈ pair ∨ outcome.iterator = 1 →
    (outcome.more = true ↔ (endedPairs query).drop outcome.iterator ≠ [])
  more_of_later : (endedPairs query).drop outcome.iterator ≠ [] →
    outcome.more = true

/-- Keys are compared as C strings up to case where a search starts at the
beginning, and byte for byte where it goes on from the iterator. -/
structure QueryContract : Prop where
  compared : ∀ key pair, 0 ∉ key →
    (hasKey key pair = true ↔ SameFolded key (pairKey pair))
  value : ∀ query key, key.length ≤ coapOptionQueryMaxSize →
    (ocRiGetQueryValueV1 query key).map (deliveredText query) =
      ((endedPairs query).find? (hasKey key)).map valueOf
  keyExists : ∀ query key, key.length ≤ coapOptionQueryMaxSize →
    ocRiQueryExistsV1 query key = (endedPairs query).any (hasKey key)
  iterate : ∀ query,
    (iteratePairs query 0).map (pairTexts query) =
      (pairs query).map fun pair => (pairKey pair, queryPairValue pair)
  search : ∀ query key iterator, key.length ≤ coapOptionQueryMaxSize →
    let outcome := ocIterateQueryGetValuesV1 query key iterator
    (outcome.value = none ∧ outcome.more = false ∧
        ∀ other ∈ (pairs query).drop iterator, pairKey other ≠ key) ∨
      ∃ pair, StopsAt query key iterator pair outcome
  loop : ∀ query key, key.length ≤ coapOptionQueryMaxSize → key ≠ [] →
    (iterateValues query key 0).filterMap (·.map (deliveredText query)) =
      valuesOf key (pairs query)
  tooLong : ∀ query key iterator, coapOptionQueryMaxSize < key.length →
    ocRiGetQueryValueV1 query key = none ∧
      ocRiQueryExistsV1 query key = false ∧
      ocIterateQueryGetValuesV1 query key iterator = ⟨none, false, iterator⟩

theorem ocRiGetQueryValueV1_eq (query : Bytes)
    (short : key.length ≤ coapOptionQueryMaxSize) :
    (ocRiGetQueryValueV1 query key).map (deliveredText query) =
      ((endedPairs query).find? (hasKey key)).map valueOf := by
  rw [ocRiGetQueryValueV1, if_neg (by omega)]
  obtain ⟨missing, others⟩ | ⟨start, pair, first, found⟩ :=
    findValue_eq query key 0
  · rw [missing, List.find?_eq_none.mpr]
    · rfl
    · intro other member
      simp [others other member]
  · have found' := first.find
    rw [List.drop_zero] at found'
    rw [found, found', Option.map_some, Option.map_some,
      first.placed.delivered]

theorem ocIterateQueryGetValuesV1_eq (query : Bytes) (iterator : Nat)
    (short : key.length ≤ coapOptionQueryMaxSize) :
    let outcome := ocIterateQueryGetValuesV1 query key iterator
    (outcome.value = none ∧ outcome.more = false ∧
        ∀ other ∈ (pairs query).drop iterator, pairKey other ≠ key) ∨
      ∃ pair, StopsAt query key iterator pair outcome := by
  dsimp only
  rw [ocIterateQueryGetValuesV1, if_neg (by omega)]
  by_cases empty : query = []
  · subst empty
    rw [findNextValue]
    exact .inl ⟨rfl, rfl, by simp [pairs]⟩
  · rw [pairs, if_neg empty]
    obtain missing | ⟨n, start, pair, next, stops⟩ :=
      findNextValue_eq empty key iterator
    · exact .inl missing
    · obtain ⟨passed, rest, number, others⟩ := next.first
      refine .inr ⟨pair, ?_⟩
      rw [stops]
      refine ⟨next.named, congrArg some next.nth.placed.delivered,
        ⟨passed, (queryPairs query).drop (n + 1), ?_,
          congrArg Nat.succ number, others⟩,
        ?_, ?_⟩
      · rw [pairs, if_neg empty, rest, next.nth.drop]
      · intro regular
        rw [decide_eq_true_iff]
        exact next.nth.more_iff (regular.imp_right Nat.succ.inj)
      · intro later
        exact decide_eq_true (next.nth.more_of_later later)

theorem valuesOf_ended (named : key ≠ []) (query : Bytes) :
    valuesOf key (endedPairs query) = valuesOf key (queryPairs query) := by
  obtain same | more := queryPairs_eq_or query
  · rw [same]
  · rw [more, valuesOf_append, @valuesOf_none key [[]], List.append_nil]
    simpa [pairKey] using named.symm

theorem iterateValues_named (query : Bytes)
    (short : key.length ≤ coapOptionQueryMaxSize) (named : key ≠ []) :
    (iterateValues query key 0).filterMap (·.map (deliveredText query)) =
      valuesOf key (pairs query) := by
  by_cases empty : query = []
  · subst empty
    have outcome : ocIterateQueryGetValuesV1 [] key 0 =
        ⟨none, false, 1⟩ := by
      rw [ocIterateQueryGetValuesV1, if_neg (by omega), findNextValue]
      rfl
    rw [iterateValues, outcome]
    rfl
  · rw [pairs, if_neg empty]
    obtain all | ended := iterateValues_eq empty short 0
    · exact all
    · exact ended.trans (valuesOf_ended named query)

theorem query_scanning : QueryContract where
  compared _ pair whole := hasKey_iff whole pair
  value query _ short := ocRiGetQueryValueV1_eq query short
  keyExists query key short := by
    rw [ocRiQueryExistsV1, if_neg (by omega), findKey_eq, List.drop_zero]
  iterate query := by
    by_cases empty : query = []
    · subst empty
      rw [iteratePairs]
      rfl
    · rw [pairs, if_neg empty]
      exact iteratePairs_eq empty 0
  search query _ iterator short :=
    ocIterateQueryGetValuesV1_eq query iterator short
  loop query _ short named := iterateValues_named query short named
  tooLong _ _ _ long := ⟨if_pos long, if_pos long, if_pos long⟩

/-- The search would say that there is more exactly when another pair with
the key follows. -/
def MoreNamesKey : Prop :=
  ∀ query key iterator,
    (ocIterateQueryGetValuesV1 query key iterator).value ≠ none →
    ((ocIterateQueryGetValuesV1 query key iterator).more = true ↔
      ∃ pair ∈ (pairs query).drop
        (ocIterateQueryGetValuesV1 query key iterator).iterator,
        pairKey pair = key)

/-- In `a=1&b=2` a pair follows the one with the key `a`, with another
key. -/
theorem not_moreNamesKey : ¬ MoreNamesKey := by
  intro claimed
  have outcome : ocIterateQueryGetValuesV1
      [97, 61, 49, 38, 98, 61, 50] [97] 0 = ⟨some (some 2, 1), true, 1⟩ := by
    rw [ocIterateQueryGetValuesV1, if_neg (by decide), findNextValue]
    rfl
  have more := claimed [97, 61, 49, 38, 98, 61, 50] [97] 0
  rw [outcome] at more
  exact absurd ((more (by decide)).mp rfl) (by decide)

end Query

end IotivityLite
