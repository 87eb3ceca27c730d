import IotivityLite.Etag.BatchDiscovery
import IotivityLite.Server.QueryIteration

/-!
# The scanner of incremental updates

`oc_etag_iterate_incremental_updates_query` takes the values of the key
`incChanges` one after the other and visits the ETags between their commas
until a visit asks to stop.  The position behind a value is the difference of
two pointers, and the pointer to the value of a key without one is NULL.
Reading a character outside the query is a fault.
-/

namespace IotivityLite

namespace IncrementalUpdates

open Query

/-- A query in memory: not at the first two addresses, and within the address
space. -/
structure QueryBuffer where
  text : Bytes
  address : Nat
  above : 1 < address
  fits : address + text.length ≤ 2 ^ 64

section Scanner

variable {State : Type} (visit : State → UInt64 → State × Bool)

/-- `etag_process_incremental_updates_value`; the result says whether to go
on. -/
def processItem (item : Bytes) (state : State) : State × Bool :=
  match etagProcessIncrementalUpdatesValue item with
  | none => (state, true)
  | some etag => visit state etag

/-- The loop that moves `stop` to the next comma or the end of the value. -/
def itemEnd (query : Bytes) (value valueLen stop : Nat) : Option Nat :=
  if stop < valueLen then
    match query[value + stop]? with
    | none => none
    | some character =>
        if character = 44 then some stop
        else itemEnd query value valueLen (stop + 1)
  else some stop
  termination_by valueLen - stop

theorem itemEnd_le {query : Bytes} {value valueLen stop ended : Nat}
    (found : itemEnd query value valueLen stop = some ended) :
    stop ≤ ended := by
  induction left : valueLen - stop generalizing stop with
  | zero =>
      rw [itemEnd, if_neg (by omega)] at found
      cases found
      exact le_refl _
  | succ left ih =>
      rw [itemEnd, if_pos (by omega)] at found
      split at found
      · cases found
      · split at found
        · cases found
          exact le_refl _
        · have later := ih found (by omega)
          omega

theorem lt_itemEnd {query : Bytes} {value valueLen pos ended : Nat}
    {character : UInt8} (inside : pos < valueLen)
    (here : query[value + pos]? = some character) (item : character ≠ 44)
    (found : itemEnd query value valueLen pos = some ended) : pos < ended := by
  rw [itemEnd, if_pos inside, here] at found
  dsimp only at found
  rw [if_neg item] at found
  exact itemEnd_le found

/-- `etag_process_incremental_updates_values` from `pos` on; the value
stands at the place `value` of the query, `none` is a fault. -/
def processValues (query : Bytes) (value valueLen pos : Nat)
    (state : State) : Option (State × Bool) :=
  if _inside : pos < valueLen then
    match _here : query[value + pos]? with
    | none => none
    | some character =>
        if separator : character = 44 then
          processValues query value valueLen (pos + 1) state
        else
          match _found : itemEnd query value valueLen pos with
          | none => none
          | some stop =>
              match processItem visit
                  (textAt query (value + pos) (stop - pos)) state with
              | (state, false) => some (state, false)
              | (state, true) => processValues query value valueLen stop state
  else some (state, true)
  termination_by valueLen - pos
  decreasing_by
    · omega
    · have := lt_itemEnd _inside _here separator _found
      omega

/-- `(value - query) + value_len + 1` as a `size_t`. -/
def QueryBuffer.valuePosition (buffer : QueryBuffer) (value : Option Nat)
    (valueLen : Nat) : Nat :=
  let pointer := match value with
    | some place => buffer.address + place
    | none => 0
  (pointer + 2 ^ 64 - buffer.address + valueLen + 1) % 2 ^ 64

theorem value_inside {query key : Bytes} {value : Option Nat}
    {valueLen : Nat}
    (found : ocRiGetQueryValueV1 query key = some (value, valueLen)) :
    (value = none ∧ valueLen = 0) ∨
      ∃ place, value = some place ∧ place + valueLen ≤ query.length := by
  rw [ocRiGetQueryValueV1] at found
  split at found
  · cases found
  · obtain ⟨missing, -⟩ | ⟨start, pair, first, described⟩ :=
      findValue_eq query key 0
    · rw [missing] at found
      cases found
    · rw [described] at found
      cases found
      have inside := first.placed.inside
      obtain bare | ⟨key, value, bare, rfl⟩ := pair_cases pair
      · rw [pairAt_bare bare]
        exact .inl ⟨rfl, rfl⟩
      · rw [pairAt_assignment bare]
        rw [List.length_append, List.length_cons] at inside
        refine .inr ⟨_, rfl, ?_⟩
        dsimp only
        omega

theorem QueryBuffer.valuePosition_some (buffer : QueryBuffer)
    {place valueLen : Nat} (inside : place + valueLen ≤ buffer.text.length) :
    buffer.valuePosition (some place) valueLen = place + valueLen + 1 := by
  have above := buffer.above
  have fits := buffer.fits
  rw [QueryBuffer.valuePosition]
  omega

theorem QueryBuffer.valuePosition_none (buffer : QueryBuffer) :
    buffer.text.length < buffer.valuePosition none 0 := by
  have above := buffer.above
  have fits := buffer.fits
  rw [QueryBuffer.valuePosition]
  omega

theorem QueryBuffer.valuePosition_moves (buffer : QueryBuffer) {pos : Nat}
    {value : Option Nat} {valueLen : Nat} (inside : pos < buffer.text.length)
    (found : ocRiGetQueryValueV1 (buffer.text.drop pos) incChangesKey =
      some (value, valueLen)) :
    pos < buffer.valuePosition (value.map (pos + ·)) valueLen := by
  obtain ⟨rfl, rfl⟩ | ⟨place, rfl, bound⟩ := value_inside found
  · exact inside.trans buffer.valuePosition_none
  · rw [List.length_drop] at bound
    rw [Option.map_some, buffer.valuePosition_some (by omega)]
    omega

/-- The loop of `oc_etag_iterate_incremental_updates_query` from `pos` on. -/
def iterateFrom (buffer : QueryBuffer) (pos : Nat) (state : State) :
    Option State :=
  if _inside : pos < buffer.text.length then
    match _found :
        ocRiGetQueryValueV1 (buffer.text.drop pos) incChangesKey with
    | none => some state
    | some (value, valueLen) =>
        match processValues visit buffer.text
            ((value.map (pos + ·)).getD 0) valueLen 0 state with
        | none => none
        | some (state, false) => some state
        | some (state, true) =>
            iterateFrom buffer
              (buffer.valuePosition (value.map (pos + ·)) valueLen) state
  else some state
  termination_by buffer.text.length - pos
  decreasing_by
    have := buffer.valuePosition_moves _inside _found
    omega

def ocEtagIterateIncrementalUpdatesQuery (buffer : QueryBuffer)
    (state : State) : Option State :=
  iterateFrom visit buffer 0 state

/-- The ETags are visited in order, until a visit asks to stop. -/
def visitAll (state : State) : List UInt64 → State × Bool
  | [] => (state, true)
  | etag :: etags =>
      match visit state etag with
      | (state, false) => (state, false)
      | (state, true) => visitAll state etags

variable {visit}

theorem visitAll_append (state : State) (first second : List UInt64) :
    visitAll visit state (first ++ second) =
      match visitAll visit state first with
      | (state, false) => (state, false)
      | (state, true) => visitAll visit state second := by
  induction first generalizing state with
  | nil => rfl
  | cons etag first ih =>
      rw [List.cons_append, visitAll, visitAll]
      match visit state etag with
      | (state, false) => rfl
      | (state, true) => exact ih state

theorem processItem_eq (item : Bytes) (state : State) :
    processItem visit item state =
      visitAll visit state (etagProcessIncrementalUpdatesValue item).toList := by
  rw [processItem]
  cases etagProcessIncrementalUpdatesValue item with
  | none => rfl
  | some etag =>
      rw [Option.toList_some, visitAll]
      dsimp only
      match visit state etag with
      | (state, false) => rfl
      | (state, true) => rfl

theorem etagsOf_nil : etagProcessIncrementalUpdatesValues [] = [] := by
  simp [etagProcessIncrementalUpdatesValues]

theorem etagsOf_comma (rest : Bytes) :
    etagProcessIncrementalUpdatesValues (44 :: rest) =
      etagProcessIncrementalUpdatesValues rest := by
  have cut := List.splitOn_append_cons_self_of_not_mem
    (List.not_mem_nil (a := (44 : UInt8))) rest
  rw [List.nil_append] at cut
  simp [etagProcessIncrementalUpdatesValues, cut]

theorem etagsOf_item {item : Bytes} (clean : 44 ∉ item) (nonempty : item ≠ [])
    {rest : Bytes} (ended : rest = [] ∨ ∃ later, rest = 44 :: later) :
    etagProcessIncrementalUpdatesValues (item ++ rest) =
      (etagProcessIncrementalUpdatesValue item).toList ++
        etagProcessIncrementalUpdatesValues rest := by
  have one : ((item :: []).filter (· ≠ [])).filterMap
      etagProcessIncrementalUpdatesValue =
        (etagProcessIncrementalUpdatesValue item).toList := by
    rw [List.filter_cons_of_pos (by simpa using nonempty)]
    cases decoded : etagProcessIncrementalUpdatesValue item <;>
      simp [decoded]
  obtain rfl | ⟨later, rfl⟩ := ended
  · rw [List.append_nil, etagsOf_nil, List.append_nil,
      etagProcessIncrementalUpdatesValues, List.splitOn_eq_singleton clean]
    exact one
  · rw [etagsOf_comma, etagProcessIncrementalUpdatesValues,
      List.splitOn_append_cons_self_of_not_mem clean, ← one,
      etagProcessIncrementalUpdatesValues, ← List.filterMap_append,
      ← List.filter_append]
    rfl

/-- The value stands at its place in the query. -/
structure ValueAt (query : Bytes) (place : Nat) (value : Bytes) : Prop where
  inside : place + value.length ≤ query.length
  here : textAt query place value.length = value

variable {query value : Bytes}

theorem ValueAt.getElem? {place pos : Nat} (stands : ValueAt query place value)
    (below : pos < value.length) : query[place + pos]? = value[pos]? := by
  conv_rhs => rw [← stands.here]
  rw [textAt, List.getElem?_take_of_lt below, List.getElem?_drop]

theorem ValueAt.text {query value : Bytes} {place pos length : Nat}
    (stands : ValueAt query place value) (inside : pos + length ≤ value.length) :
    textAt query (place + pos) length = textAt value pos length := by
  conv_rhs => rw [← stands.here]
  rw [textAt, textAt, textAt, List.drop_take, List.take_take,
    List.drop_drop, Nat.min_eq_left (by omega)]

theorem itemEnd_eq {place : Nat} (stands : ValueAt query place value)
    {stop : Nat} (below : stop ≤ value.length) :
    ∃ item rest, itemEnd query place value.length stop =
        some (stop + item.length) ∧
      value.drop stop = item ++ rest ∧ 44 ∉ item ∧
      (rest = [] ∨ ∃ later, rest = 44 :: later) := by
  induction left : value.length - stop generalizing stop with
  | zero =>
      rw [itemEnd, if_neg (by omega)]
      refine ⟨[], [], rfl, ?_, List.not_mem_nil, .inl rfl⟩
      rw [List.drop_eq_nil_of_le (by omega), List.nil_append]
  | succ left ih =>
      have inside : stop < value.length := by omega
      rw [itemEnd, if_pos inside, stands.getElem? inside,
        List.getElem?_eq_getElem inside]
      dsimp only
      by_cases comma : value[stop] = 44
      · rw [if_pos comma]
        refine ⟨[], value.drop stop, rfl, rfl, List.not_mem_nil,
          .inr ⟨value.drop (stop + 1), ?_⟩⟩
        rw [List.drop_eq_getElem_cons inside, comma]
      · rw [if_neg comma]
        obtain ⟨item, rest, found, whole, clean, ended⟩ :=
          @ih (stop + 1) inside (by omega)
        refine ⟨value[stop] :: item, rest, ?_, ?_, ?_, ended⟩
        · rw [found, List.length_cons]
          congr 1
          omega
        · rw [List.drop_eq_getElem_cons inside, whole, List.cons_append]
        · exact List.not_mem_cons_of_ne_of_not_mem (Ne.symm comma) clean

/-- An item that the scanner reads from a position on. -/
structure ItemAt (query value : Bytes) (place pos : Nat) (item : Bytes) :
    Prop where
  moves : 0 < item.length
  inside : pos + item.length ≤ value.length
  clean : 44 ∉ item
  found : itemEnd query place value.length pos = some (pos + item.length)
  text : textAt query (place + pos) item.length = item
  whole : value.drop pos = item ++ value.drop (pos + item.length)
  ended : value.drop (pos + item.length) = [] ∨
    ∃ later, value.drop (pos + item.length) = 44 :: later

theorem exists_itemAt {place pos : Nat} (stands : ValueAt query place value)
    (inside : pos < value.length) (character : value[pos] ≠ 44) :
    ∃ item, ItemAt query value place pos item := by
  obtain ⟨item, rest, found, whole, clean, ended⟩ :=
    itemEnd_eq stands inside.le
  have first := List.drop_eq_getElem_cons inside
  have lengths := congrArg List.length whole
  rw [List.length_drop, List.length_append] at lengths
  have nonempty : item ≠ [] := by
    rintro rfl
    obtain rfl | ⟨later, rfl⟩ := ended
    · cases first.symm.trans whole
    · cases character (List.cons.inj (first.symm.trans whole)).1
  have behind : value.drop (pos + item.length) = rest := by
    rw [← List.drop_drop, whole, List.drop_left]
  refine ⟨item, List.length_pos_of_ne_nil nonempty, by omega, clean, found,
    ?_, by rw [behind, whole], by rwa [behind]⟩
  rw [stands.text (by omega), textAt, whole, List.take_left]

theorem processValues_eq {place : Nat} (stands : ValueAt query place value)
    {pos : Nat} (below : pos ≤ value.length) (state : State) :
    processValues visit query place value.length pos state =
      some (visitAll visit state
        (etagProcessIncrementalUpdatesValues (value.drop pos))) := by
  induction left : value.length - pos using Nat.strong_induction_on
    generalizing pos state with
  | _ left ih =>
      rw [processValues]
      by_cases inside : pos < value.length
      · rw [dif_pos inside]
        split
        · next missing =>
            rw [stands.getElem? inside, List.getElem?_eq_getElem inside]
              at missing
            cases missing
        · next character here =>
            rw [stands.getElem? inside, List.getElem?_eq_getElem inside]
              at here
            cases here
            by_cases comma : value[pos] = 44
            · rw [dif_pos comma, ih _ (by omega) inside state rfl,
                List.drop_eq_getElem_cons inside, comma, etagsOf_comma]
            · rw [dif_neg comma]
              obtain ⟨item, read⟩ := exists_itemAt stands inside comma
              have later := ih (value.length - (pos + item.length))
                (by have := read.moves; omega) read.inside
              split
              · next missing => simp [read.found] at missing
              · next stop again =>
                  rw [read.found] at again
                  cases again
                  rw [Nat.add_sub_cancel_left, read.text, read.whole,
                    etagsOf_item read.clean
                      (List.ne_nil_of_length_pos read.moves) read.ended,
                    visitAll_append, processItem_eq]
                  match visitAll visit state
                      (etagProcessIncrementalUpdatesValue item).toList with
                  | (state, false) => rfl
                  | (state, true) => exact later state rfl
      · rw [dif_neg inside, List.drop_eq_nil_of_le (by omega), etagsOf_nil]
        rfl

theorem isIncChangesPair_eq (pair : Bytes) :
    isIncChangesPair pair = hasKey incChangesKey pair := by
  have whole : (0 : UInt8) ∉ incChangesKey := by decide
  rw [Bool.eq_iff_iff, hasKey_iff whole, isIncChangesPair, beq_iff_eq]
  exact eq_comm

theorem incrementalUpdates_append {passed : List Bytes}
    (others : ∀ other ∈ passed, hasKey incChangesKey other = false)
    (pairs : List Bytes) :
    incrementalUpdatesOfPairs (passed ++ pairs) =
      incrementalUpdatesOfPairs pairs := by
  induction passed with
  | nil => rfl
  | cons other passed ih =>
      rw [List.forall_mem_cons] at others
      rw [List.cons_append, incrementalUpdatesOfPairs, isIncChangesPair_eq,
        others.1, ih others.2]
      rfl

theorem valueAt_of_pairAt {query key value : Bytes} {start : Nat}
    (placed : PairAt query start (key ++ 61 :: value)) (bare : 61 ∉ key) :
    ValueAt query (start + key.length + 1) value := by
  have inside := placed.inside
  rw [List.length_append, List.length_cons] at inside
  have text := congrArg Prod.fst placed.delivered
  rw [pairAt_assignment bare, valueOf, queryPairValue_assignment bare] at text
  exact ⟨by omega, Option.some.inj text⟩

theorem iterateFrom_eq (buffer : QueryBuffer) (pos : Nat) (state : State) :
    iterateFrom visit buffer pos state =
      some (visitAll visit state (incrementalUpdatesOfPairs
        (endedPairs (buffer.text.drop pos)))).1 := by
  induction left : buffer.text.length - pos using Nat.strong_induction_on
    generalizing pos state with
  | _ left ih =>
      rw [iterateFrom]
      by_cases inside : pos < buffer.text.length
      · rw [dif_pos inside]
        have search : ocRiGetQueryValueV1 (buffer.text.drop pos)
            incChangesKey = findValue (buffer.text.drop pos) incChangesKey 0 :=
          if_neg (by decide)
        obtain ⟨missing, others⟩ | ⟨start, pair, first, found⟩ :=
          findValue_eq (buffer.text.drop pos) incChangesKey 0
        · rw [List.drop_zero] at others
          have none := incrementalUpdates_append others []
          rw [List.append_nil] at none
          split
          · rw [none]
            rfl
          · next found =>
              rw [search, missing] at found
              cases found
        · obtain ⟨passed, whole, others⟩ := first.first
          rw [List.drop_zero] at whole
          have named := first.named
          rw [← isIncChangesPair_eq] at named
          have placed := first.placed.of_drop inside.le
          rw [whole, incrementalUpdates_append others,
            incrementalUpdatesOfPairs, if_pos named]
          split
          · next missing =>
              rw [search, found] at missing
              cases missing
          · next again =>
              rw [search, found] at again
              cases again
              obtain bare | ⟨key, value, bare, rfl⟩ := pair_cases pair
              · have beyond := buffer.valuePosition_none
                rw [pairAt_bare bare, queryPairValue_of_not_mem bare,
                  processValues, dif_neg (lt_irrefl 0)]
                dsimp only
                rw [Option.map_none, iterateFrom, dif_neg (by omega)]
                rfl
              · have stands := valueAt_of_pairAt placed bare
                have place : pos + (start + key.length + 1) =
                    pos + start + key.length + 1 := by omega
                have later := buffer.valuePosition_some stands.inside
                rw [pairAt_assignment bare, queryPairValue_assignment bare]
                simp only [Option.map_some, Option.getD_some, place]
                rw [processValues_eq stands (Nat.zero_le _), List.drop_zero,
                  visitAll_append, later]
                match visitAll visit state
                    (etagProcessIncrementalUpdatesValues value) with
                | (state, false) => rfl
                | (state, true) =>
                    dsimp only
                    rw [ih (buffer.text.length - (pos + start + key.length +
                      1 + value.length + 1)) (by omega) _ state rfl,
                      List.drop_drop, List.length_append, List.length_cons]
                    congr 6
                    omega
      · rw [dif_neg inside, List.drop_eq_nil_of_le (Nat.not_lt.mp inside),
          endedPairs, Separated.ended_nil]
        rfl

end Scanner

/-- The ETags in the value of a pair with the key. -/
def etagsOfPair (pair : Bytes) : List UInt64 :=
  if isIncChangesPair pair then
    ((queryPairValue pair).map etagProcessIncrementalUpdatesValues).getD []
  else []

/-- All ETags of a query, in order. -/
def etagsOfQuery (query : Bytes) : List UInt64 :=
  (queryPairs query).flatMap etagsOfPair

/-- The scanner visits all ETags of the query, each once and in order, until
a visit asks to stop, and reads nothing else. -/
def VisitsAllEtags (buffer : QueryBuffer) : Prop :=
  ∀ (State : Type) (visit : State → UInt64 → State × Bool) (state : State),
    ocEtagIterateIncrementalUpdatesQuery visit buffer state =
      some (visitAll visit state (etagsOfQuery buffer.text)).1

/-- The pair is the key without a value. -/
def IsBareKey (pair : Bytes) : Prop :=
  isIncChangesPair pair = true ∧ 61 ∉ pair

/-- No ETag follows a key without a value. -/
def BareKeysLast (query : Bytes) : Prop :=
  ∀ first bare later, queryPairs query = first ++ bare :: later →
    IsBareKey bare → later.flatMap etagsOfPair = []

theorem incrementalUpdates_ended (query : Bytes) :
    incrementalUpdatesOfPairs (endedPairs query) =
      incrementalUpdatesOfPairs (queryPairs query) := by
  obtain same | more := queryPairs_eq_or query
  · rw [same]
  · have empty : isIncChangesPair [] = false := by decide
    rw [more]
    induction endedPairs query with
    | nil => simp [incrementalUpdatesOfPairs, empty]
    | cons pair pairs ih =>
        rw [List.cons_append, incrementalUpdatesOfPairs,
          incrementalUpdatesOfPairs, ih]

section BareKeys

variable {pair : Bytes} {pairs : List Bytes}

theorem bareKeysLast_cons :
    (∀ first bare later, pair :: pairs = first ++ bare :: later →
        IsBareKey bare → later.flatMap etagsOfPair = []) ↔
      (IsBareKey pair → pairs.flatMap etagsOfPair = []) ∧
        ∀ first bare later, pairs = first ++ bare :: later →
          IsBareKey bare → later.flatMap etagsOfPair = [] := by
  constructor
  · intro every
    refine ⟨every [] pair pairs rfl, fun first bare later same => ?_⟩
    exact every (pair :: first) bare later (congrArg _ same)
  · rintro ⟨here, every⟩ first bare later same isBare
    cases first with
    | nil =>
        cases same
        exact here isBare
    | cons head first =>
        cases same
        exact every first bare later rfl isBare

theorem etagsOfPair_other (other : isIncChangesPair pair = false) :
    etagsOfPair pair = [] := by
  simp [etagsOfPair, other]

theorem etagsOfPair_bare (bare : IsBareKey pair) : etagsOfPair pair = [] := by
  simp [etagsOfPair, queryPairValue_of_not_mem bare.2]

theorem incrementalUpdates_iff :
    incrementalUpdatesOfPairs pairs = pairs.flatMap etagsOfPair ↔
      ∀ first bare later, pairs = first ++ bare :: later →
        IsBareKey bare → later.flatMap etagsOfPair = [] := by
  induction pairs with
  | nil => simp [incrementalUpdatesOfPairs]
  | cons pair pairs ih =>
      rw [bareKeysLast_cons, ← ih, incrementalUpdatesOfPairs,
        List.flatMap_cons]
      cases named : isIncChangesPair pair with
      | false =>
          have other : ¬ IsBareKey pair := by simp [IsBareKey, named]
          simp [etagsOfPair_other named, other]
      | true =>
          obtain bare | ⟨key, value, bare, rfl⟩ := pair_cases pair
          · have isBare : IsBareKey pair := ⟨named, bare⟩
            have rest : pairs.flatMap etagsOfPair = [] →
                incrementalUpdatesOfPairs pairs = [] := by
              intro none
              rw [ih.mpr, none]
              rintro first other later rfl -
              simp only [List.flatMap_append, List.flatMap_cons,
                List.append_eq_nil_iff] at none
              exact none.2.2
            rw [queryPairValue_of_not_mem bare, etagsOfPair_bare isBare]
            simp only [if_true, List.nil_append, isBare, true_implies]
            constructor
            · intro none
              exact ⟨none.symm, (rest none.symm).trans none⟩
            · intro both
              exact both.1.symm
          · have other : ¬ IsBareKey (key ++ 61 :: value) := by
              simp [IsBareKey]
            have etags : etagsOfPair (key ++ 61 :: value) =
                etagProcessIncrementalUpdatesValues value := by
              simp [etagsOfPair, named, queryPairValue_assignment bare]
            rw [queryPairValue_assignment bare, etags]
            simp [other]

end BareKeys

/-- The visit that notes the ETags. -/
def noteEtag (noted : List UInt64) (etag : UInt64) : List UInt64 × Bool :=
  (noted ++ [etag], true)

theorem visitAll_note (noted etags : List UInt64) :
    visitAll noteEtag noted etags = (noted ++ etags, true) := by
  induction etags generalizing noted with
  | nil => rw [visitAll, List.append_nil]
  | cons etag etags ih =>
      rw [visitAll, noteEtag]
      dsimp only
      rw [ih, List.append_assoc, List.singleton_append]

theorem visitsAllEtags_iff (buffer : QueryBuffer) :
    VisitsAllEtags buffer ↔
      incrementalUpdatesOfPairs (queryPairs buffer.text) =
        etagsOfQuery buffer.text := by
  have visited {State : Type} (visit : State → UInt64 → State × Bool)
      (state : State) := @iterateFrom_eq State visit buffer 0 state
  simp only [List.drop_zero, incrementalUpdates_ended] at visited
  constructor
  · intro all
    have noted := (visited noteEtag []).symm.trans (all _ noteEtag [])
    rw [visitAll_note, visitAll_note] at noted
    exact Option.some.inj noted
  · intro same State visit state
    rw [ocEtagIterateIncrementalUpdatesQuery, visited, same]

theorem incremental_updates_visited (buffer : QueryBuffer) :
    VisitsAllEtags buffer ↔ BareKeysLast buffer.text :=
  (visitsAllEtags_iff buffer).trans incrementalUpdates_iff

/-- Behind `incChanges` without a value no ETag is visited:
`incChanges&incChanges=AAAAAAAAAAA` has one. -/
theorem not_visitsAllEtags : ¬ ∀ buffer, VisitsAllEtags buffer := by
  intro claimed
  have same := (visitsAllEtags_iff ⟨incChangesKey ++ 38 :: incChangesKey ++
    61 :: List.replicate 11 65, 4096, by decide, by decide⟩).mp (claimed _)
  exact absurd same (by decide)

end IncrementalUpdates

end IotivityLite
