import IotivityLite.Foundation.CaseFolding
import IotivityLite.Foundation.Separated

/-!
# Queries

The functions of `oc_query.c` that look for a key in the query of a request
and that iterate over its pairs.  They scan the query with positions, which
stand for the pointers of the source; the lengths of queries fit an `int`, as
the source asserts.
-/

namespace IotivityLite

/-- The texts between the ampersands. -/
def queryPairs (query : Bytes) : List Bytes := query.splitOn 38

/-- What follows the equals sign, if there is one. -/
def queryPairValue (pair : Bytes) : Option Bytes :=
  match pair.dropWhile (· != 61) with
  | [] => none
  | _ :: value => some value

namespace Query

/-- The text before the equals sign. -/
def pairKey (pair : Bytes) : Bytes := pair.takeWhile (· != 61)

/-- The pairs of a query; an empty one has none. -/
def pairs (query : Bytes) : List Bytes :=
  if query = [] then [] else queryPairs query

/-- The pairs that end at an ampersand or at the end of the query: nothing
stands behind a last ampersand. -/
def endedPairs (query : Bytes) : List Bytes := Separated.ended 38 query

/-- The text that a pointer and a length describe. -/
def textAt (query : Bytes) (start length : Nat) : Bytes :=
  (query.drop start).take length

/-- `key_value_pair_t`; a pointer into the query is a place in it. -/
structure KeyValuePair where
  key : Option Nat
  keyLen : Nat
  value : Option Nat
  valueLen : Nat
  deriving DecidableEq, Repr

/-- The loop that passes over `n` ampersands. -/
def passPairs (query : Bytes) : (n : Nat) → (start : Nat) → Option Nat
  | 0, start => some start
  | n + 1, start =>
      match Separated.next 38 query start with
      | none => none
      | some ampersand => passPairs query n (ampersand + 1)

/-- The equals sign belongs to the pair if no ampersand comes before it. -/
def ownValue : (value nextPair : Option Nat) → Option Nat
  | some value, some nextPair =>
      if nextPair < value then none else some value
  | value, _ => value

def ocRiFindQueryNthKeyValuePair (query : Bytes) (n : Nat) : KeyValuePair :=
  if query = [] then ⟨none, 0, none, 0⟩
  else match passPairs query (n - 1) 0 with
    | none => ⟨none, 0, none, 0⟩
    | some start =>
        let nextPair := Separated.next 38 query start
        let pairEnd := nextPair.getD query.length
        match ownValue (Separated.next 61 query start) nextPair with
        | none => ⟨some start, pairEnd - start, none, 0⟩
        | some value =>
            ⟨some start, value - start, some (value + 1),
              pairEnd - (value + 1)⟩

/-- The place behind the pair.  The length of a key without a value is not
counted from the start of the query. -/
def KeyValuePair.nextPos (pair : KeyValuePair) : Nat :=
  match pair.value with
  | some value => value + pair.valueLen
  | none => pair.keyLen

/-- The pair and the position that is returned; `none` stands for -1. -/
def ocRiGetQueryNthKeyValue (query : Bytes) (n : Nat) :
    Option (KeyValuePair × Nat) :=
  let pair := ocRiFindQueryNthKeyValuePair query n
  if pair.key = none then none else some (pair, pair.nextPos + 1)

def ocRiQueryNthKeyExists (query : Bytes) (n : Nat) :
    Option (KeyValuePair × Nat) :=
  let pair := ocRiFindQueryNthKeyValuePair query n
  if pair.key = none then none
  else if pair.nextPos < query.length then some (pair, pair.nextPos + 1)
  else some (pair, pair.nextPos)

/-- `strncasecmp` of two texts of one length gives 0. -/
def agreesUpToCase : Bytes → Bytes → Bool
  | first :: firsts, second :: seconds =>
      toLower first == toLower second &&
        (first == 0 || agreesUpToCase firsts seconds)
  | _, _ => true

/-- The key of the pair, which starts at `base`, is the one looked for. -/
def KeyValuePair.named (pair : KeyValuePair) (query : Bytes) (base : Nat)
    (key : Bytes) : Bool :=
  pair.keyLen == key.length &&
    agreesUpToCase key
      (textAt query (base + pair.key.getD 0) pair.keyLen)

def coapOptionQueryMaxSize : Nat := 255

variable {query : Bytes}

theorem ocRiGetQueryNthKeyValue_moves {n position : Nat} {pair : KeyValuePair}
    (found : ocRiGetQueryNthKeyValue query n = some (pair, position)) :
    0 < position := by
  unfold ocRiGetQueryNthKeyValue at found
  dsimp only at found
  split at found
  · cases found
  · cases found
    exact Nat.succ_pos _

theorem ocRiQueryNthKeyExists_moves {n position : Nat} {pair : KeyValuePair}
    (nonempty : 0 < query.length)
    (found : ocRiQueryNthKeyExists query n = some (pair, position)) :
    0 < position := by
  unfold ocRiQueryNthKeyExists at found
  dsimp only at found
  split at found
  · cases found
  · split at found
    · cases found
      exact Nat.succ_pos _
    · cases found
      omega

/-- The loop of `oc_ri_get_query_value_v1` from `pos` on. -/
def findValue (query key : Bytes) (pos : Nat) : Option (Option Nat × Nat) :=
  if pos < query.length then
    match _ : ocRiGetQueryNthKeyValue (query.drop pos) 1 with
    | none => none
    | some (pair, nextPos) =>
        if pair.named query pos key then
          some (pair.value.map (pos + ·), pair.valueLen)
        else findValue query key (pos + nextPos)
  else none
  termination_by query.length - pos
  decreasing_by
    have := ocRiGetQueryNthKeyValue_moves ‹_›
    omega

/-- The pointer to the value, which is NULL for a key without one, and its
length; `none` stands for -1. -/
def ocRiGetQueryValueV1 (query key : Bytes) : Option (Option Nat × Nat) :=
  if coapOptionQueryMaxSize < key.length then none
  else findValue query key 0

/-- The loop of `oc_ri_query_exists_v1` from `pos` on. -/
def findKey (query key : Bytes) (pos : Nat) : Bool :=
  if pos < query.length then
    match _ : ocRiQueryNthKeyExists (query.drop pos) 1 with
    | none => false
    | some (pair, nextPos) =>
        if pair.named query pos key then true
        else findKey query key (pos + nextPos)
  else false
  termination_by query.length - pos
  decreasing_by
    have nonempty : 0 < (query.drop pos).length := by
      rw [List.length_drop]
      omega
    have := ocRiQueryNthKeyExists_moves nonempty ‹_›
    omega

def ocRiQueryExistsV1 (query key : Bytes) : Bool :=
  if coapOptionQueryMaxSize < key.length then false
  else findKey query key 0

/-- `iterator` is the number of pairs that were visited before; the second
result is its new value. -/
def ocIterateQuery (query : Bytes) (iterator : Nat) :
    Option (KeyValuePair × Nat) × Nat :=
  (ocRiGetQueryNthKeyValue query (iterator + 1), iterator + 1)

theorem passPairs_bound {n start place : Nat}
    (passed : passPairs query n start = some place)
    (inside : start ≤ query.length) :
    start + n ≤ place ∧ place ≤ query.length := by
  induction n generalizing start with
  | zero =>
      cases passed
      exact ⟨le_refl _, inside⟩
  | succ n ih =>
      rw [passPairs] at passed
      split at passed
      · cases passed
      · next ampersand found =>
          obtain ⟨piece, -, ends, here⟩ := Separated.drop_of_next found
          have lengths := congrArg List.length here
          simp only [List.length_drop, List.length_append,
            List.length_cons] at lengths
          have later := ih passed (by omega)
          omega

theorem ocRiGetQueryNthKeyValue_bound {n : Nat} {result : KeyValuePair × Nat}
    (found : ocRiGetQueryNthKeyValue query n = some result) :
    n ≤ query.length + 1 := by
  by_contra above
  have missing : passPairs query (n - 1) 0 = none := by
    cases passed : passPairs query (n - 1) 0 with
    | none => rfl
    | some place =>
        have := passPairs_bound passed (Nat.zero_le _)
        omega
  simp [ocRiGetQueryNthKeyValue, ocRiFindQueryNthKeyValuePair, missing]
    at found

/-- What `oc_iterate_query_get_values_v1` leaves behind: the value that it
stored, if it stored one, its result and the iterator. -/
structure ValuesOutcome where
  value : Option (Option Nat × Nat)
  more : Bool
  iterator : Nat
  deriving DecidableEq, Repr

def findNextValue (query key : Bytes) (iterator : Nat) : ValuesOutcome :=
  match _ : ocRiGetQueryNthKeyValue query (iterator + 1) with
  | none => ⟨none, false, iterator + 1⟩
  | some (pair, position) =>
      if pair.keyLen = key.length ∧
          textAt query (pair.key.getD 0) pair.keyLen = key then
        ⟨some (pair.value, pair.valueLen), decide (position < query.length),
          iterator + 1⟩
      else findNextValue query key (iterator + 1)
  termination_by query.length + 1 - iterator
  decreasing_by
    have := ocRiGetQueryNthKeyValue_bound ‹_›
    omega

def ocIterateQueryGetValuesV1 (query key : Bytes) (iterator : Nat) :
    ValuesOutcome :=
  if coapOptionQueryMaxSize < key.length then ⟨none, false, iterator⟩
  else findNextValue query key iterator

end Query

end IotivityLite
