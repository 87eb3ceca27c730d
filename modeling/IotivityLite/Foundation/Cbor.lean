import IotivityLite.Foundation.Memory

/-!
# CBOR data items

A CBOR payload is a sequence of tokens: scalars, the heads of arrays, maps and
tags, and the stop code that ends a container of indefinite length.  A codec
writes and reads single tokens; it is a parameter.  The reader below puts
items together from tokens, and the theorem says that it gets every item back
from the bytes of its tokens.
-/

namespace IotivityLite

/-- The items without parts.  Floating-point numbers are their bits. -/
inductive CborScalar where
  | int (value : Int64)
  | bool (value : Bool)
  | null
  | undefined
  | halfFloat (bits : UInt16)
  | float (bits : UInt32)
  | double (bits : UInt64)
  | byteString (value : Bytes)
  | textString (value : Bytes)
  deriving DecidableEq

/-- A container without a length is ended by the stop code. -/
inductive CborToken where
  | scalar (value : CborScalar)
  | tag (number : UInt64)
  | array (length : Option Nat)
  | map (length : Option Nat)
  | stop
  deriving DecidableEq

inductive CborItem where
  | scalar (value : CborScalar)
  | tag (number : UInt64) (item : CborItem)
  | array (definite : Bool) (items : List CborItem)
  | map (definite : Bool) (entries : List (CborItem × CborItem))

/-- Lengths are numbers of 64 bits. -/
def CborToken.Writable : CborToken → Prop
  | .scalar (.byteString value) => value.length < 2 ^ 64
  | .scalar (.textString value) => value.length < 2 ^ 64
  | .array (some length) => length < 2 ^ 64
  | .map (some length) => length < 2 ^ 64
  | _ => True

/-- A codec for single tokens. -/
structure CborCodec where
  write : CborToken → Bytes
  read : Bytes → Option (CborToken × Bytes)
  read_write : ∀ token rest, token.Writable →
    read (write token ++ rest) = some (token, rest)
  write_ne_nil : ∀ token, write token ≠ []

/-- The number of elements a head announces. -/
def announced (definite : Bool) (count : Nat) : Option Nat :=
  if definite then some count else none

def stopCode (definite : Bool) : List CborToken :=
  if definite then [] else [.stop]

mutual

def CborItem.tokens : CborItem → List CborToken
  | .scalar value => [.scalar value]
  | .tag number item => .tag number :: item.tokens
  | .array definite items =>
      .array (announced definite items.length) ::
        (itemsTokens items ++ stopCode definite)
  | .map definite entries =>
      .map (announced definite entries.length) ::
        (entriesTokens entries ++ stopCode definite)

def itemsTokens : List CborItem → List CborToken
  | [] => []
  | item :: items => item.tokens ++ itemsTokens items

def entriesTokens : List (CborItem × CborItem) → List CborToken
  | [] => []
  | (key, value) :: entries =>
      key.tokens ++ (value.tokens ++ entriesTokens entries)

end

theorem CborItem.tokens_eq_cons (item : CborItem) :
    ∃ head tail, item.tokens = head :: tail ∧ head ≠ .stop := by
  cases item with
  | scalar value => exact ⟨.scalar value, _, rfl, nofun⟩
  | tag number item => exact ⟨.tag number, _, rfl, nofun⟩
  | array definite items => exact ⟨.array _, _, rfl, nofun⟩
  | map definite entries => exact ⟨.map _, _, rfl, nofun⟩

namespace CborCodec

variable (codec : CborCodec)

def bytes (tokens : List CborToken) : Bytes := tokens.flatMap codec.write

@[simp] theorem bytes_nil : codec.bytes [] = [] := rfl

@[simp] theorem bytes_cons (token : CborToken) (tokens : List CborToken) :
    codec.bytes (token :: tokens) = codec.write token ++ codec.bytes tokens :=
  List.flatMap_cons

@[simp] theorem bytes_append (first second : List CborToken) :
    codec.bytes (first ++ second) = codec.bytes first ++ codec.bytes second :=
  List.flatMap_append

theorem length_le_length_bytes (tokens : List CborToken) :
    tokens.length ≤ (codec.bytes tokens).length := by
  induction tokens with
  | nil => exact Nat.le_refl 0
  | cons token tokens ih =>
      have nonempty := List.length_pos_iff.mpr (codec.write_ne_nil token)
      rw [bytes_cons, List.length_cons, List.length_append]
      omega

/-- The bytes after the end of a container, if it ends here.  The limit is the
number of elements that are still to come. -/
def atEnd (limit : Option Nat) (bytes : Bytes) : Option Bytes :=
  match limit with
  | some 0 => some bytes
  | some (_ + 1) => none
  | none =>
      match codec.read bytes with
      | some (.stop, rest) => some rest
      | _ => none

mutual

def readItem : (fuel : Nat) → Bytes → Option (CborItem × Bytes)
  | 0, _ => none
  | fuel + 1, bytes =>
      match codec.read bytes with
      | some (.scalar value, rest) => some (.scalar value, rest)
      | some (.tag number, rest) =>
          (readItem fuel rest).map fun (item, rest) => (.tag number item, rest)
      | some (.array limit, rest) =>
          (readItems fuel limit rest).map fun (items, rest) =>
            (.array limit.isSome items, rest)
      | some (.map limit, rest) =>
          (readEntries fuel limit rest).map fun (entries, rest) =>
            (.map limit.isSome entries, rest)
      | some (.stop, _) => none
      | none => none

def readItems : (fuel : Nat) → (limit : Option Nat) → Bytes →
    Option (List CborItem × Bytes)
  | 0, _, _ => none
  | fuel + 1, limit, bytes =>
      match codec.atEnd limit bytes with
      | some rest => some ([], rest)
      | none => do
          let (item, rest) ← readItem fuel bytes
          let (items, rest) ← readItems fuel (limit.map (· - 1)) rest
          some (item :: items, rest)

def readEntries : (fuel : Nat) → (limit : Option Nat) → Bytes →
    Option (List (CborItem × CborItem) × Bytes)
  | 0, _, _ => none
  | fuel + 1, limit, bytes =>
      match codec.atEnd limit bytes with
      | some rest => some ([], rest)
      | none => do
          let (key, rest) ← readItem fuel bytes
          let (value, rest) ← readItem fuel rest
          let (entries, rest) ← readEntries fuel (limit.map (· - 1)) rest
          some ((key, value) :: entries, rest)

end

@[simp] theorem isSome_announced (definite : Bool) (count : Nat) :
    (announced definite count).isSome = definite := by
  cases definite <;> rfl

@[simp] theorem announced_pred (definite : Bool) (count : Nat) :
    (announced definite (count + 1)).map (· - 1) =
      announced definite count := by
  cases definite <;> rfl

theorem atEnd_stopCode (definite : Bool) (rest : Bytes) :
    codec.atEnd (announced definite 0)
      (codec.bytes (stopCode definite) ++ rest) = some rest := by
  cases definite with
  | true => rfl
  | false =>
      have read := codec.read_write .stop rest trivial
      simp only [announced, atEnd, stopCode, Bool.false_eq_true, if_false,
        bytes_cons, bytes_nil, List.append_nil, read]

theorem atEnd_item (definite : Bool) (count : Nat) (item : CborItem)
    (rest : Bytes) (writable : ∀ token ∈ item.tokens, token.Writable) :
    codec.atEnd (announced definite (count + 1))
      (codec.bytes item.tokens ++ rest) = none := by
  cases definite with
  | true => rfl
  | false =>
      obtain ⟨head, tail, split, notStop⟩ := item.tokens_eq_cons
      rw [split] at writable ⊢
      have read := codec.read_write head (codec.bytes tail ++ rest)
        (writable head List.mem_cons_self)
      simp only [announced, atEnd, Bool.false_eq_true, if_false, bytes_cons,
        List.append_assoc, read]
      cases head <;> first | rfl | exact absurd rfl notStop

theorem length_tokens_pos (item : CborItem) : 0 < item.tokens.length := by
  obtain ⟨head, tail, split, -⟩ := item.tokens_eq_cons
  rw [split]
  exact Nat.succ_pos _

mutual

theorem readItem_bytes (item : CborItem) (rest : Bytes) (fuel : Nat)
    (writable : ∀ token ∈ item.tokens, token.Writable)
    (enough : 2 * item.tokens.length ≤ fuel) :
    codec.readItem fuel (codec.bytes item.tokens ++ rest) =
      some (item, rest) := by
  obtain ⟨fuel, rfl⟩ : ∃ less, fuel = less + 1 :=
    ⟨fuel - 1, by have := length_tokens_pos item; omega⟩
  cases item with
  | scalar value =>
      have read := codec.read_write (.scalar value) rest
        (writable _ List.mem_cons_self)
      simp only [CborItem.tokens, bytes_cons, bytes_nil, List.append_nil,
        readItem, read]
  | tag number item =>
      rw [CborItem.tokens] at writable enough ⊢
      rw [List.length_cons] at enough
      have read := codec.read_write (.tag number)
        (codec.bytes item.tokens ++ rest) trivial
      have inner := readItem_bytes item rest fuel
        (fun token member => writable token (List.mem_cons_of_mem _ member))
        (by omega)
      simp only [bytes_cons, List.append_assoc, readItem, read, inner,
        Option.map_some]
  | array definite items =>
      rw [CborItem.tokens] at writable enough ⊢
      rw [List.length_cons, List.length_append] at enough
      have read := codec.read_write (.array (announced definite items.length))
        (codec.bytes (itemsTokens items ++ stopCode definite) ++ rest)
        (writable _ List.mem_cons_self)
      have inner := readItems_bytes items definite rest fuel
        (fun token member => writable token (List.mem_cons_of_mem _
          (List.mem_append_left _ member))) (by omega)
      simp only [bytes_cons, List.append_assoc, readItem, read, inner,
        Option.map_some, isSome_announced]
  | map definite entries =>
      rw [CborItem.tokens] at writable enough ⊢
      rw [List.length_cons, List.length_append] at enough
      have read := codec.read_write (.map (announced definite entries.length))
        (codec.bytes (entriesTokens entries ++ stopCode definite) ++ rest)
        (writable _ List.mem_cons_self)
      have inner := readEntries_bytes entries definite rest fuel
        (fun token member => writable token (List.mem_cons_of_mem _
          (List.mem_append_left _ member))) (by omega)
      simp only [bytes_cons, List.append_assoc, readItem, read, inner,
        Option.map_some, isSome_announced]

theorem readItems_bytes (items : List CborItem) (definite : Bool)
    (rest : Bytes) (fuel : Nat)
    (writable : ∀ token ∈ itemsTokens items, token.Writable)
    (enough : 2 * (itemsTokens items).length + 1 ≤ fuel) :
    codec.readItems fuel (announced definite items.length)
        (codec.bytes (itemsTokens items ++ stopCode definite) ++ rest) =
      some (items, rest) := by
  obtain ⟨fuel, rfl⟩ : ∃ less, fuel = less + 1 := ⟨fuel - 1, by omega⟩
  cases items with
  | nil =>
      have ended := codec.atEnd_stopCode definite rest
      simp only [itemsTokens, List.nil_append, List.length_nil, readItems,
        ended]
  | cons item items =>
      rw [itemsTokens] at writable enough ⊢
      rw [List.length_append] at enough
      have some_item := length_tokens_pos item
      have first : ∀ token ∈ item.tokens, token.Writable :=
        fun token member => writable token (List.mem_append_left _ member)
      have continues := codec.atEnd_item definite items.length item
        (codec.bytes (itemsTokens items ++ stopCode definite) ++ rest) first
      have head := readItem_bytes item
        (codec.bytes (itemsTokens items ++ stopCode definite) ++ rest) fuel
        first (by omega)
      have tail := readItems_bytes items definite rest fuel
        (fun token member => writable token (List.mem_append_right _ member))
        (by omega)
      simp only [List.append_assoc, codec.bytes_append item.tokens,
        List.length_cons, readItems, continues, head, announced_pred, tail,
        Option.bind_eq_bind, Option.bind_some]

theorem readEntries_bytes (entries : List (CborItem × CborItem))
    (definite : Bool) (rest : Bytes) (fuel : Nat)
    (writable : ∀ token ∈ entriesTokens entries, token.Writable)
    (enough : 2 * (entriesTokens entries).length + 1 ≤ fuel) :
    codec.readEntries fuel (announced definite entries.length)
        (codec.bytes (entriesTokens entries ++ stopCode definite) ++ rest) =
      some (entries, rest) := by
  obtain ⟨fuel, rfl⟩ : ∃ less, fuel = less + 1 := ⟨fuel - 1, by omega⟩
  cases entries with
  | nil =>
      have ended := codec.atEnd_stopCode definite rest
      simp only [entriesTokens, List.nil_append, List.length_nil, readEntries,
        ended]
  | cons entry entries =>
      obtain ⟨key, value⟩ := entry
      rw [entriesTokens] at writable enough ⊢
      rw [List.length_append, List.length_append] at enough
      have some_key := length_tokens_pos key
      have first : ∀ token ∈ key.tokens, token.Writable :=
        fun token member => writable token (List.mem_append_left _ member)
      have continues := codec.atEnd_item definite entries.length key
        (codec.bytes (value.tokens ++
          (entriesTokens entries ++ stopCode definite)) ++ rest) first
      have keyRead := readItem_bytes key
        (codec.bytes (value.tokens ++
          (entriesTokens entries ++ stopCode definite)) ++ rest) fuel
        first (by omega)
      have valueRead := readItem_bytes value
        (codec.bytes (entriesTokens entries ++ stopCode definite) ++ rest)
        fuel (fun token member => writable token (List.mem_append_right _
          (List.mem_append_left _ member))) (by omega)
      have tail := readEntries_bytes entries definite rest fuel
        (fun token member => writable token (List.mem_append_right _
          (List.mem_append_right _ member))) (by omega)
      rw [codec.bytes_append value.tokens, List.append_assoc] at keyRead
      rw [codec.bytes_append value.tokens, List.append_assoc] at continues
      simp only [List.append_assoc, codec.bytes_append key.tokens,
        codec.bytes_append value.tokens, List.length_cons, readEntries,
        continues, keyRead, valueRead, announced_pred, tail,
        Option.bind_eq_bind, Option.bind_some]

end

end CborCodec

end IotivityLite
