import IotivityLite.Json.RoundTrip
import IotivityLite.Server.CollectionLinks
import Mathlib.Data.List.Induction
import Mathlib.Data.List.TakeWhile
import Mathlib.Order.Bounds.Defs

/-!
# Indices of new resources in a collection

`find_collection_unique_instance_index` of `oc_resource_factory.c` looks for
the first number that is missing among the numeric suffixes of the links.  It
compares the numbers that `strtol` reads with 1, 2 and so on, in the order of
the links, and stops at the first that differs.
-/

namespace IotivityLite

/-- `isspace` -/
def isSpace (byte : UInt8) : Bool := byte == 32 || (9 ≤ byte && byte ≤ 13)

def longMax : Int := 2 ^ 63 - 1

def longMin : Int := -2 ^ 63

/-- The sign, and what comes after it. -/
def splitSign : Bytes → Bool × Bytes
  | [] => (false, [])
  | byte :: rest =>
      if byte = 45 then (true, rest)
      else if byte = 43 then (false, rest)
      else (false, byte :: rest)

/-- `strtol` with base 10 for a `long` of 64 bits: the number, and the text
from `*endptr` on. -/
def strtol (text : Bytes) : Int × Bytes :=
  let (negative, body) := splitSign (text.dropWhile isSpace)
  let digits := body.takeWhile isDigit
  if digits = [] then (0, text)
  else (max longMin (min longMax (JsonInteger.signed negative digits)),
    body.drop digits.length)

def uintMax : Nat := 2 ^ 32 - 1

/-- The numeric suffix of an href, if it has one. -/
def linkIndex (collectionUri href : Bytes) : Option Int :=
  if href.length < collectionUri.length + 2 then none
  else if href.take collectionUri.length ≠ collectionUri ∨
      href[collectionUri.length]? ≠ some 47 then
    none
  else
    let (value, rest) := strtol (href.drop (collectionUri.length + 1))
    if rest ≠ [] ∨ value = longMax ∨ value = longMin then none
    else some value

/-- The loop over the links; 0 stands for an overflow. -/
def findIndexFrom (collectionUri : Bytes) :
    List CollectionLink → (index : Nat) → Nat
  | [], index => index
  | link :: links, index =>
      match linkIndex collectionUri link.href with
      | none => findIndexFrom collectionUri links index
      | some value =>
          if value ≠ index then index
          else if index = uintMax then 0
          else findIndexFrom collectionUri links (index + 1)

/-- `OC_MAX_COLLECTIONS_INSTANCE_URI_SIZE - 2` -/
def maxCollectionUriLen : Nat := 62

def findCollectionUniqueInstanceIndex (collectionUri : Bytes)
    (links : List CollectionLink) : Nat :=
  if collectionUri.length = 0 ∨
      collectionUri.length ≥ maxCollectionUriLen then
    0
  else findIndexFrom collectionUri links 1

/-- A number in decimal. -/
def numeral (number : Nat) : Bytes := decimalDigits (number + 1) number

/-- `${collection uri}/${index}` -/
def instanceUri (collectionUri : Bytes) (index : Nat) : Bytes :=
  collectionUri ++ 47 :: numeral index

/-- The index is positive and no link has its href. -/
def FreeIndex (collectionUri : Bytes) (links : List CollectionLink)
    (index : Nat) : Prop :=
  1 ≤ index ∧ ∀ link ∈ links, link.href ≠ instanceUri collectionUri index

/-- The links with a numeric suffix, with the numbers. -/
def numericLinks (collectionUri : Bytes) (links : List CollectionLink) :
    List (Bytes × Int) :=
  links.filterMap fun link =>
    (linkIndex collectionUri link.href).map fun value => (link.href, value)

/-- What the property says: the result is the smallest free index, unless it
is 0. -/
def IndexCorrect (collectionUri : Bytes) (links : List CollectionLink) :
    Prop :=
  findCollectionUniqueInstanceIndex collectionUri links ≠ 0 →
    IsLeast {index | FreeIndex collectionUri links index}
      (findCollectionUniqueInstanceIndex collectionUri links)

/-- There is no index: the URI of the collection is not of a length that is
served, or the numbers go up to `UINT_MAX`. -/
def NoIndex (collectionUri : Bytes) (links : List CollectionLink) : Prop :=
  collectionUri.length = 0 ∨ collectionUri.length ≥ maxCollectionUriLen ∨
    ∀ place < uintMax, (numericLinks collectionUri links)[place]?.map (·.2) =
      some ((place + 1 : Nat) : Int)

/-- The numeric links start with the canonical hrefs below the smallest free
index, and the next one has another number. -/
def CanonicalFirst (collectionUri : Bytes) (links : List CollectionLink) :
    Prop :=
  ∃ least, IsLeast {index | FreeIndex collectionUri links index} least ∧
    (∀ place, place + 1 < least →
      (numericLinks collectionUri links)[place]?.map (·.1) =
        some (instanceUri collectionUri (place + 1))) ∧
    (numericLinks collectionUri links)[least - 1]?.map (·.2) ≠
      some (least : Int)

namespace JsonInteger

theorem ofDigits_lt {digits : Bytes}
    (areDigits : ∀ byte ∈ digits, isDigit byte = true) :
    ofDigits digits < 10 ^ digits.length := by
  induction digits using List.reverseRecOn with
  | nil => simp [ofDigits]
  | append_singleton digits byte ih =>
      rw [List.forall_mem_append] at areDigits
      have before := ih areDigits.1
      have last := areDigits.2 byte (List.mem_singleton_self _)
      simp only [isDigit, Bool.and_eq_true, decide_eq_true_eq,
        UInt8.le_iff_toNat_le, UInt8.reduceToNat] at last
      rw [ofDigits_append, List.length_append, List.length_singleton,
        Nat.pow_succ]
      omega

theorem ofDigits_inj {first second : Bytes}
    (firstDigits : ∀ byte ∈ first, isDigit byte = true)
    (secondDigits : ∀ byte ∈ second, isDigit byte = true)
    (lengths : first.length = second.length)
    (same : ofDigits first = ofDigits second) : first = second := by
  induction first using List.reverseRecOn generalizing second with
  | nil => exact (List.eq_nil_of_length_eq_zero lengths.symm).symm
  | append_singleton first byte ih =>
      rcases List.eq_nil_or_concat second with rfl | ⟨second, last, rfl⟩
      · simp at lengths
      · rw [List.forall_mem_append] at firstDigits
        simp only [List.concat_eq_append] at *
        rw [List.forall_mem_append] at secondDigits
        have one := firstDigits.2 byte (List.mem_singleton_self _)
        have two := secondDigits.2 last (List.mem_singleton_self _)
        simp only [isDigit, Bool.and_eq_true, decide_eq_true_eq,
          UInt8.le_iff_toNat_le, UInt8.reduceToNat] at one two
        rw [ofDigits_append, ofDigits_append] at same
        have bytes : byte = last := UInt8.toNat_inj.mp (by omega)
        have front := @ih second firstDigits.1 secondDigits.1
          (by simpa using lengths) (by omega)
        rw [front, bytes]

end JsonInteger

theorem areDigitsOf_numeral (number : Nat) :
    AreDigitsOf number (numeral number) := by
  refine areDigitsOf_decimalDigits ?_
  calc number < 10 ^ number := Nat.lt_pow_self (by decide)
    _ ≤ 10 ^ (number + 1) := Nat.pow_le_pow_right (by decide) (Nat.le_succ _)

theorem numeral_of_length_le {number : Nat} (positive : 1 ≤ number)
    {digits : Bytes} (areDigits : ∀ byte ∈ digits, isDigit byte = true)
    (value : JsonInteger.ofDigits digits = number)
    (short : digits.length ≤ (numeral number).length) :
    digits = numeral number := by
  have own := areDigitsOf_numeral number
  obtain ⟨byte, rest, spelled⟩ := List.exists_cons_of_ne_nil own.nonempty
  have first : 1 ≤ byte.toNat - 48 := by
    have isDigit := own.areDigits byte (by simp [spelled])
    have notZero : byte.toNat ≠ 48 := by
      intro isZero
      have same : byte = 48 := UInt8.toNat_inj.mp isZero
      have zero := (own.first (by rw [spelled, List.head?_cons, same])).1
      omega
    simp only [IotivityLite.isDigit, Bool.and_eq_true, decide_eq_true_eq,
      UInt8.le_iff_toNat_le, UInt8.reduceToNat] at isDigit
    omega
  have large : 10 ^ rest.length ≤ number := by
    have bound := JsonInteger.ofDigits_cons byte rest
    rw [← spelled, own.value] at bound
    exact (Nat.le_mul_of_pos_left _ first).trans bound
  have small := JsonInteger.ofDigits_lt areDigits
  rw [value] at small
  have lengths : digits.length = (numeral number).length := by
    have less := (Nat.pow_lt_pow_iff_right (by decide : 1 < 10)).mp
      (large.trans_lt small)
    rw [spelled, List.length_cons] at short ⊢
    omega
  exact JsonInteger.ofDigits_inj areDigits own.areDigits lengths
    (value.trans own.value.symm)

theorem dropWhile_isSpace_suffix (text : Bytes) :
    text.dropWhile isSpace <:+ text := List.dropWhile_suffix _

theorem splitSign_suffix (text : Bytes) : (splitSign text).2 <:+ text := by
  cases text with
  | nil => exact List.suffix_refl _
  | cons byte rest =>
      rw [splitSign]
      split_ifs
      · exact List.suffix_cons _ _
      · exact List.suffix_cons _ _
      · exact List.suffix_refl _

theorem digits_of_strtol {text : Bytes} {number : Nat}
    (positive : 1 ≤ number) (small : (number : Int) ≠ longMax)
    (read : strtol text = ((number : Int), [])) :
    ∃ digits, digits <:+ text ∧
      (∀ byte ∈ digits, isDigit byte = true) ∧
      JsonInteger.ofDigits digits = number := by
  have suffix := (splitSign_suffix (text.dropWhile isSpace)).trans
    (dropWhile_isSpace_suffix text)
  unfold strtol at read
  generalize splitSign (text.dropWhile isSpace) = parts at read suffix
  obtain ⟨negative, body⟩ := parts
  dsimp only at read suffix
  split at read
  · have zero := (Prod.mk.inj read).1
    omega
  · obtain ⟨value, rest⟩ := Prod.mk.inj read
    -- the digits are all of the text after the sign
    have all : body.takeWhile isDigit = body := by
      have long := List.drop_eq_nil_iff.mp rest
      exact (List.takeWhile_prefix isDigit).eq_of_length_le long
    rw [all] at value
    have areDigits : ∀ byte ∈ body, isDigit byte = true := by
      intro byte member
      rw [← all] at member
      exact List.mem_takeWhile_imp member
    refine ⟨body, suffix, areDigits, ?_⟩
    unfold longMin longMax at value
    unfold longMax at small
    cases negative with
    | true =>
        simp only [JsonInteger.signed, if_true] at value
        omega
    | false =>
        simp only [JsonInteger.signed, Bool.false_eq_true, if_false] at value
        omega

theorem not_isSpace_of_isDigit {byte : UInt8} (digit : isDigit byte = true) :
    isSpace byte = false ∧ byte ≠ 45 ∧ byte ≠ 43 := by
  simp only [isDigit, Bool.and_eq_true, decide_eq_true_eq,
    UInt8.le_iff_toNat_le, UInt8.reduceToNat] at digit
  refine ⟨?_, ?_, ?_⟩
  · simp only [isSpace, Bool.or_eq_false_iff, Bool.and_eq_false_iff,
      beq_eq_false_iff_ne, ne_eq, decide_eq_false_iff_not,
      UInt8.le_iff_toNat_le, UInt8.reduceToNat, ← UInt8.toNat_inj]
    omega
  · rintro rfl
    simp at digit
  · rintro rfl
    simp at digit

theorem strtol_numeral (number : Nat) :
    strtol (numeral number) = (min longMax number, []) := by
  have own := areDigitsOf_numeral number
  obtain ⟨byte, rest, spelled⟩ := List.exists_cons_of_ne_nil own.nonempty
  obtain ⟨space, minus, plus⟩ := not_isSpace_of_isDigit
    (own.areDigits byte (by simp [spelled]))
  have body : splitSign ((numeral number).dropWhile isSpace) =
      (false, numeral number) := by
    rw [spelled, List.dropWhile_cons_of_neg (by simp [space]), splitSign,
      if_neg minus, if_neg plus]
  have taken : (numeral number).takeWhile isDigit = numeral number := by
    rw [List.takeWhile_eq_self_iff]
    exact own.areDigits
  rw [strtol, body]
  dsimp only
  rw [taken, if_neg own.nonempty, List.drop_length]
  have value : JsonInteger.signed false (numeral number) = number := by
    rw [JsonInteger.signed, own.value]
    rfl
  rw [value]
  unfold longMin longMax
  congr 1
  omega

section Links

variable {collectionUri href : Bytes} {number : Nat}

theorem linkIndex_instanceUri (collectionUri : Bytes) (number : Nat) :
    linkIndex collectionUri (instanceUri collectionUri number) =
      if (number : Int) < longMax then some (number : Int) else none := by
  have own := (areDigitsOf_numeral number).nonempty
  have positive := List.length_pos_iff.mpr own
  have long : ¬ (instanceUri collectionUri number).length <
      collectionUri.length + 2 := by
    rw [instanceUri, List.length_append, List.length_cons]
    omega
  have fits : ¬ ((instanceUri collectionUri number).take
        collectionUri.length ≠ collectionUri ∨
      (instanceUri collectionUri number)[collectionUri.length]? ≠
        some 47) := by
    simp [instanceUri]
  have suffix : (instanceUri collectionUri number).drop
      (collectionUri.length + 1) = numeral number := by
    simp [instanceUri, List.drop_append]
  rw [linkIndex, if_neg long, if_neg fits, suffix, strtol_numeral]
  dsimp only
  by_cases less : (number : Int) < longMax
  · have value : min longMax (number : Int) = number :=
      Int.min_eq_right (Int.le_of_lt less)
    rw [value, if_pos less, if_neg]
    unfold longMax at less ⊢
    unfold longMin
    rintro (rest | most | least)
    · exact rest rfl
    · omega
    · omega
  · have value : min longMax (number : Int) = longMax :=
      Int.min_eq_left (Int.not_lt.mp less)
    rw [value, if_neg less, if_pos (.inr (.inl rfl))]

theorem eq_instanceUri_of_length_le (positive : 1 ≤ number)
    (read : linkIndex collectionUri href = some (number : Int))
    (short : href.length ≤ (instanceUri collectionUri number).length) :
    href = instanceUri collectionUri number := by
  unfold linkIndex at read
  split_ifs at read with long fits
  dsimp only at read
  split_ifs at read with bad
  rw [not_or, not_or] at bad
  obtain ⟨whole, small, -⟩ := bad
  have value := Option.some.inj read
  have pair : strtol (href.drop (collectionUri.length + 1)) =
      ((number : Int), []) :=
    Prod.ext value (not_not.mp whole)
  rw [value] at small
  obtain ⟨digits, suffix, areDigits, own⟩ :=
    digits_of_strtol positive small pair
  rw [not_or, not_not, not_not] at fits
  have shape : href = collectionUri ++
      47 :: href.drop (collectionUri.length + 1) := by
    obtain ⟨inside, slash⟩ := List.getElem?_eq_some_iff.mp fits.2
    calc href = href.take collectionUri.length ++
          href.drop collectionUri.length :=
        (List.take_append_drop _ _).symm
      _ = _ := by rw [fits.1, List.drop_eq_getElem_cons inside, slash]
  have lengths : (href.drop (collectionUri.length + 1)).length ≤
      (numeral number).length := by
    have whole := congrArg List.length shape
    rw [List.length_append, List.length_cons] at whole
    rw [instanceUri, List.length_append, List.length_cons] at short
    omega
  have digitsSpelled := numeral_of_length_le positive areDigits own
    (suffix.length_le.trans lengths)
  have all : digits = href.drop (collectionUri.length + 1) :=
    suffix.eq_of_length_le (by rw [digitsSpelled]; exact lengths)
  rw [shape, ← all, digitsSpelled, instanceUri]

variable {links : List CollectionLink}

theorem mem_numericLinks {value : Int} :
    (href, value) ∈ numericLinks collectionUri links ↔
      linkIndex collectionUri href = some value ∧
        ∃ link ∈ links, link.href = href := by
  unfold numericLinks
  rw [List.mem_filterMap]
  constructor
  · rintro ⟨link, member, same⟩
    obtain ⟨own, read, pair⟩ := Option.map_eq_some_iff.mp same
    obtain ⟨rfl, rfl⟩ := Prod.mk.inj pair
    exact ⟨read, link, member, rfl⟩
  · rintro ⟨read, link, member, rfl⟩
    exact ⟨link, member, by rw [read, Option.map_some]⟩

theorem sorted_numericLinks
    (sorted : links.Pairwise fun first second =>
      HrefLe first.href second.href) :
    (numericLinks collectionUri links).Pairwise fun first second =>
      HrefLe first.1 second.1 := by
  unfold numericLinks
  rw [List.pairwise_filterMap]
  refine sorted.imp ?_
  rintro first second le _ one _ two
  obtain ⟨-, -, rfl⟩ := Option.map_eq_some_iff.mp one
  obtain ⟨-, -, rfl⟩ := Option.map_eq_some_iff.mp two
  exact le

end Links

section Loop

variable {collectionUri : Bytes}

/-- The numbers are those from `index` on up to the result, which is not the
next one. -/
def CountsUpTo (numbers : List (Bytes × Int)) (index result : Nat) : Prop :=
  (∀ place, index + place < result →
    numbers[place]?.map (·.2) = some ((index + place : Nat) : Int)) ∧
  numbers[result - index]?.map (·.2) ≠ some (result : Int)

theorem findIndexFrom_spec (links : List CollectionLink) {index : Nat}
    (bound : index ≤ uintMax) (positive : 1 ≤ index) :
    let result := findIndexFrom collectionUri links index
    (result = 0 ∧ ∀ place, index + place ≤ uintMax →
      (numericLinks collectionUri links)[place]?.map (·.2) =
        some ((index + place : Nat) : Int)) ∨
    (index ≤ result ∧ result ≤ uintMax ∧
      CountsUpTo (numericLinks collectionUri links) index result) := by
  induction links generalizing index with
  | nil =>
      refine .inr ⟨le_rfl, bound, ?_, ?_⟩
      · intro place less
        simp only [findIndexFrom] at less
        omega
      · simp [numericLinks]
  | cons link links ih =>
      dsimp only
      rw [findIndexFrom]
      cases read : linkIndex collectionUri link.href with
      | none =>
          have same : numericLinks collectionUri (link :: links) =
              numericLinks collectionUri links := by
            simp [numericLinks, read]
          rw [same]
          exact ih bound positive
      | some value =>
          have same : numericLinks collectionUri (link :: links) =
              (link.href, value) :: numericLinks collectionUri links := by
            simp [numericLinks, read]
          dsimp only
          rw [same]
          split_ifs with other last
          · refine .inr ⟨le_rfl, bound, ?_, ?_⟩
            · intro place less
              omega
            · simpa using other
          · rw [ne_eq, not_not] at other
            refine .inl ⟨rfl, fun place small => ?_⟩
            obtain rfl : place = 0 := by omega
            simp [other]
          · rw [ne_eq, not_not] at other
            have later := @ih (index + 1) (by omega) (by omega)
            dsimp only at later
            generalize findIndexFrom collectionUri links (index + 1) = result
              at later
            rcases later with ⟨zero, numbers⟩ | ⟨more, less, counts, next⟩
            · refine .inl ⟨zero, fun place small => ?_⟩
              cases place with
              | zero => simp [other]
              | succ place =>
                  have here := numbers place (by omega)
                  rw [List.getElem?_cons_succ, here]
                  congr 2
                  omega
            · refine .inr ⟨by omega, less, fun place small => ?_, ?_⟩
              · cases place with
                | zero => simp [other]
                | succ place =>
                    have here := counts place (by omega)
                    rw [List.getElem?_cons_succ, here]
                    congr 2
                    omega
              · have place : result - index = result - (index + 1) + 1 := by
                  omega
                rw [place, List.getElem?_cons_succ]
                exact next

theorem CountsUpTo.unique {numbers : List (Bytes × Int)}
    {index first second : Nat} (one : CountsUpTo numbers index first)
    (two : CountsUpTo numbers index second) (start : index ≤ first)
    (start' : index ≤ second) : first = second := by
  rcases Nat.lt_trichotomy first second with less | same | more
  · have here := two.1 (first - index) (by omega)
    rw [Nat.add_sub_cancel' start] at here
    exact absurd here one.2
  · exact same
  · have here := one.1 (second - index) (by omega)
    rw [Nat.add_sub_cancel' start'] at here
    exact absurd here two.2

end Loop

section Index

variable {collectionUri : Bytes} {links : List CollectionLink}

theorem canonical_of_countsUpTo
    (sorted : links.Pairwise fun first second =>
      HrefLe first.href second.href) {least : Nat} (bound : least ≤ uintMax)
    (free : IsLeast {index | FreeIndex collectionUri links index} least)
    (counts : CountsUpTo (numericLinks collectionUri links) 1 least)
    {place : Nat} (below : place + 1 < least) :
    (numericLinks collectionUri links)[place]?.map (·.1) =
      some (instanceUri collectionUri (place + 1)) := by
  have taken : ∃ link ∈ links,
      link.href = instanceUri collectionUri (place + 1) := by
    by_contra none
    have isFree : FreeIndex collectionUri links (place + 1) :=
      ⟨Nat.le_add_left 1 place, fun link member same =>
        none ⟨link, member, same⟩⟩
    exact absurd (free.2 isFree) (Nat.not_le.mpr below)
  have small : ((place + 1 : Nat) : Int) < longMax := by
    unfold uintMax at bound
    unfold longMax
    omega
  have listed := mem_numericLinks.mpr
    ⟨(linkIndex_instanceUri collectionUri (place + 1)).trans (if_pos small),
      taken⟩
  obtain ⟨other, inside, there⟩ := List.mem_iff_getElem.mp listed
  have there' : (numericLinks collectionUri links)[other]? = some
      (instanceUri collectionUri (place + 1), ((place + 1 : Nat) : Int)) := by
    rw [List.getElem?_eq_getElem inside, there]
  have here := counts.1 place (by omega)
  obtain ⟨⟨href, value⟩, found, same⟩ := Option.map_eq_some_iff.mp here
  obtain rfl : value = ((1 + place : Nat) : Int) := same
  -- the canonical href does not come earlier
  have later : place ≤ other := by
    by_contra earlier
    have number := counts.1 other (by omega)
    rw [there', Option.map_some, Option.some.injEq] at number
    have number : ((place + 1 : Nat) : Int) = ((1 + other : Nat) : Int) :=
      number
    omega
  have short : href.length ≤
      (instanceUri collectionUri (place + 1)).length := by
    obtain ⟨outside, value⟩ := List.getElem?_eq_some_iff.mp found
    rcases Nat.lt_or_eq_of_le later with less | rfl
    · have le := List.pairwise_iff_getElem.mp
        (sorted_numericLinks sorted) place other outside inside less
      rw [value, there] at le
      exact le.length_le
    · rw [found] at there'
      rw [(Prod.mk.inj (Option.some.inj there')).1]
  have read := (mem_numericLinks.mp (List.mem_of_getElem? found)).1
  rw [Nat.add_comm 1 place] at read
  rw [found, Option.map_some,
    eq_instanceUri_of_length_le (Nat.le_add_left 1 place) read short]

theorem countsUpTo_of_canonical {least : Nat}
    (canonical : ∀ place, place + 1 < least →
      (numericLinks collectionUri links)[place]?.map (·.1) =
        some (instanceUri collectionUri (place + 1)))
    (next : (numericLinks collectionUri links)[least - 1]?.map (·.2) ≠
      some (least : Int)) :
    CountsUpTo (numericLinks collectionUri links) 1 least := by
  refine ⟨fun place below => ?_, next⟩
  have here := canonical place (by omega)
  obtain ⟨⟨href, value⟩, found, same⟩ := Option.map_eq_some_iff.mp here
  obtain rfl : href = instanceUri collectionUri (place + 1) := same
  have read := (mem_numericLinks.mp (List.mem_of_getElem? found)).1
  rw [linkIndex_instanceUri] at read
  split_ifs at read
  obtain rfl := Option.some.inj read
  rw [found, Option.map_some, Nat.add_comm 1 place]

theorem indexCorrect_iff
    (sorted : links.Pairwise fun first second =>
      HrefLe first.href second.href) :
    IndexCorrect collectionUri links ↔
      NoIndex collectionUri links ∨ CanonicalFirst collectionUri links := by
  unfold IndexCorrect NoIndex findCollectionUniqueInstanceIndex
  by_cases length : collectionUri.length = 0 ∨
      collectionUri.length ≥ maxCollectionUriLen
  · rw [if_pos length]
    exact ⟨fun _ => .inl (by tauto), fun _ zero => absurd rfl zero⟩
  · rw [if_neg length]
    have one : 1 ≤ uintMax := by decide
    rcases @findIndexFrom_spec collectionUri links 1 one le_rfl with
      ⟨zero, numbers⟩ | ⟨positive, bound, counts⟩
    · rw [zero]
      refine ⟨fun _ => .inl (.inr (.inr fun place small => ?_)),
        fun _ zero => absurd rfl zero⟩
      rw [numbers place (by omega), Nat.add_comm]
    · generalize findIndexFrom collectionUri links 1 = result
        at positive bound counts
      constructor
      · intro correct
        have least := correct (by omega)
        exact .inr ⟨result, least,
          fun place below =>
            canonical_of_countsUpTo sorted bound least counts below,
          counts.2⟩
      · rintro ((empty | long | numbers) |
          ⟨least, free, canonical, next⟩) -
        · exact absurd (.inl empty) length
        · exact absurd (.inr long) length
        · have last := numbers (result - 1) (by omega)
          rw [Nat.sub_add_cancel positive] at last
          exact absurd last counts.2
        · have same := counts.unique (countsUpTo_of_canonical canonical next)
            positive free.1.1
          rw [same]
          exact free

end Index

/-- After every sequence of operations the links are sorted, and the index is
the right one exactly under the condition. -/
def InstanceIndexContract (operations : List LinkOperation)
    (collectionUri : LinkUri) : Prop :=
  let collection := runFrom LinkedCollection.step .empty operations
  collection.Sorted ∧
    (IndexCorrect collectionUri.text collection.links ↔
      NoIndex collectionUri.text collection.links ∨
        CanonicalFirst collectionUri.text collection.links)

theorem collection_instance_index (operations : List LinkOperation)
    (collectionUri : LinkUri) :
    InstanceIndexContract operations collectionUri := by
  have sorted := sorted_runFrom operations
  exact ⟨sorted, indexCorrect_iff sorted.sorted⟩

theorem collection_instance_index_empty : IndexCorrect (ascii "/c") [] := by
  refine (collection_instance_index [] ⟨ascii "/c", by decide⟩).2.mpr (.inr
    ⟨1, ⟨⟨le_rfl, nofun⟩, fun _ free => free.1⟩, fun _ _ => ?_, by decide⟩)
  omega

/-- The link with index 0 hides the one with index 1. -/
theorem not_indexCorrect_zero :
    ¬ ∀ (operations : List LinkOperation) (collectionUri : LinkUri),
      let collection := runFrom LinkedCollection.step .empty operations
      collection.Sorted ∧
        IndexCorrect collectionUri.text collection.links := by
  intro all
  have correct := (all [.add ⟨ascii "/c/0", by decide⟩,
    .add ⟨ascii "/c/1", by decide⟩] ⟨ascii "/c", by decide⟩).2
  have found : findCollectionUniqueInstanceIndex (ascii "/c")
      (runFrom LinkedCollection.step .empty
        [.add ⟨ascii "/c/0", by decide⟩,
          .add ⟨ascii "/c/1", by decide⟩]).links = 1 := by
    decide
  unfold IndexCorrect at correct
  dsimp only at correct
  rw [found] at correct
  have free := (correct Nat.one_ne_zero).1.2
  exact free ⟨1, ⟨ascii "/c/1", by decide⟩⟩ (by decide) (by decide)

end IotivityLite
