import IotivityLite.Json.Tokens

/-!
# The values of tokens

What a node has to be to be the value of a token.  The text inside of a
container is split by the tokenizer: keys and values of an object have to stand
in turn, and the items of an array have to be of one type.  Commas and colons
are white space for the tokenizer, so this is a language that JSON is a part of.
-/

namespace IotivityLite

theorem le_foldl_digits (digits : Bytes) (start : Nat) :
    start * 10 ^ digits.length ≤
      digits.foldl (fun number (byte : UInt8) =>
        10 * number + (byte.toNat - 48)) start := by
  induction digits generalizing start with
  | nil => simp
  | cons byte digits ih =>
      calc start * 10 ^ (byte :: digits).length
          = 10 * start * 10 ^ digits.length := by
            rw [List.length_cons, Nat.pow_succ', ← Nat.mul_assoc,
              Nat.mul_comm start 10]
        _ ≤ (10 * start + (byte.toNat - 48)) * 10 ^ digits.length :=
            Nat.mul_le_mul_right _ (Nat.le_add_right _ _)
        _ ≤ _ := ih _

namespace JsonInteger

theorem ofDigits_cons (byte : UInt8) (digits : Bytes) :
    (byte.toNat - 48) * 10 ^ digits.length ≤ ofDigits (byte :: digits) := by
  simpa [ofDigits] using le_foldl_digits digits (byte.toNat - 48)

theorem large_digits (number : JsonInteger) {count : Nat} (many : 20 ≤ count)
    (less : count ≤ number.digits.length) :
    2 ^ 63 < ofDigits (number.digits.take count) := by
  have canonical := number.canonical
  have areDigits := number.areDigits
  cases isDigits : number.digits with
  | nil =>
      rw [isDigits] at less
      simp only [List.length_nil, Nat.le_zero] at less
      omega
  | cons byte digits =>
      rw [isDigits] at canonical areDigits less
      obtain ⟨count, rfl⟩ : ∃ fewer, count = fewer + 1 := ⟨count - 1, by omega⟩
      simp only [List.length_cons, Nat.add_le_add_iff_right] at less
      have long : (digits.take count).length = count := by
        simp [List.length_take, Nat.min_eq_left less]
      have notZero : byte ≠ 48 := by
        intro isZero
        have single := canonical (by rw [isZero]; rfl)
        have empty := congrArg List.length (List.cons.inj single).2
        simp only [List.length_nil] at empty
        omega
      have first : 1 ≤ byte.toNat - 48 := by
        have isDigit := areDigits byte (by simp)
        have notZero : byte.toNat ≠ 48 := fun isZero =>
          notZero (UInt8.toNat_inj.mp isZero)
        simp only [IotivityLite.isDigit, Bool.and_eq_true, decide_eq_true_eq,
          UInt8.le_iff_toNat_le, UInt8.reduceToNat] at isDigit
        omega
      calc 2 ^ 63
          < 10 ^ 19 := by decide
        _ ≤ 10 ^ count := Nat.pow_le_pow_right (by decide) (by omega)
        _ ≤ (byte.toNat - 48) * 10 ^ (digits.take count).length := by
            rw [long]
            exact Nat.le_mul_of_pos_left _ first
        _ ≤ ofDigits ((byte :: digits).take (count + 1)) :=
            ofDigits_cons byte (digits.take count)

theorem inRange_large (negative : Bool) {digits : Bytes}
    (large : 2 ^ 63 < ofDigits digits) :
    inRange (signed negative digits) = none := by
  have large : (2 : Int) ^ 63 < ofDigits digits := by exact_mod_cast large
  refine if_neg fun bounds => ?_
  cases negative <;> simp only [signed, Bool.false_eq_true, if_false, if_true]
    at bounds <;> omega

end JsonInteger

theorem strtoll_digits (negative : Bool) {digits : Bytes}
    (areDigits : ∀ byte ∈ digits, isDigit byte = true) (nonempty : digits ≠ []) :
    strtoll ((if negative then [45] else []) ++ digits) =
      JsonInteger.inRange (JsonInteger.signed negative digits) := by
  have taken : digits.takeWhile (fun byte => 48 ≤ byte && byte ≤ 57) =
      digits := by
    have taken := @List.takeWhile_append_of_pos _ isDigit digits [] areDigits
    rw [List.takeWhile_nil, List.append_nil] at taken
    exact taken
  cases negative with
  | true =>
      simp only [strtoll, if_true, List.singleton_append, taken,
        if_neg nonempty]
      rfl
  | false =>
      cases digits with
      | nil => exact absurd rfl nonempty
      | cons byte digits =>
          have isDigit := areDigits byte (by simp)
          have notMinus : byte ≠ 45 := by
            rintro rfl
            exact absurd isDigit (by decide)
          have notPlus : byte ≠ 43 := by
            rintro rfl
            exact absurd isDigit (by decide)
          simp only [strtoll, Bool.false_eq_true, if_false, List.nil_append,
            if_neg notMinus, if_neg notPlus, taken, if_neg nonempty]
          rfl

theorem jsonParseInt_text (number : JsonInteger) :
    jsonParseInt number.text = number.toInt64 := by
  have areDigits (count : Nat) :
      ∀ byte ∈ number.digits.take count, isDigit byte = true := by
    intro byte member
    exact number.areDigits byte (List.mem_of_mem_take member)
  have nonempty {count : Nat} (positive : 0 < count) :
      number.digits.take count ≠ [] := by
    intro empty
    rcases List.take_eq_nil_iff.mp empty with none | empty
    · omega
    · exact number.nonempty empty
  have cut {count : Nat} (many : 20 ≤ count) :
      JsonInteger.inRange
          (JsonInteger.signed number.negative (number.digits.take count)) =
        number.toInt64 := by
    by_cases less : count ≤ number.digits.length
    · have all := @JsonInteger.large_digits number number.digits.length
        (Nat.le_trans many less) (Nat.le_refl _)
      rw [List.take_length] at all
      rw [JsonInteger.inRange_large _ (number.large_digits many less),
        JsonInteger.toInt64, JsonInteger.inRange_large _ all]
    · rw [List.take_of_length_le (by omega), JsonInteger.toInt64]
  rw [jsonParseInt, JsonInteger.text, List.take_append]
  cases negative : number.negative with
  | true =>
      have read := strtoll_digits true (areDigits 30) (nonempty (by decide))
      rw [negative] at cut
      exact read.trans (cut (by decide))
  | false =>
      have read := strtoll_digits false (areDigits 31) (nonempty (by decide))
      rw [negative] at cut
      exact read.trans (cut (by decide))

def nullToken : JsmnToken := ⟨.primitive, ascii "null"⟩

def boolToken (value : Bool) : JsmnToken :=
  ⟨.primitive, if value then ascii "true" else ascii "false"⟩

def JsonInteger.token (number : JsonInteger) : JsmnToken :=
  ⟨.primitive, number.text⟩

/-- The tokens inside of a container. -/
def Inside (type : JsmnType) (token : JsmnToken) (tokens : List JsmnToken) :
    Prop :=
  token.type = type ∧ jsmnParse token.text = (tokens, true)

mutual

/-- The node is the value of the token. -/
def JsonNode.IsValue : JsonNode → JsmnToken → Prop
  | .unknown, _ => False
  | .nil, token =>
      token = nullToken ∨
        ∃ tokens, Inside .array token tokens ∧ ∀ item ∈ tokens, item = nullToken
  | .bool value, token => token = boolToken value
  | .int value, token =>
      ∃ number : JsonInteger,
        number.toInt64 = some value ∧ token = number.token
  | .string text, token => token = ⟨.string, text⟩
  | .boolArray values, token =>
      values ≠ [] ∧ Inside .array token (values.map boolToken)
  | .intArray values, token =>
      values ≠ [] ∧ ∃ numbers : List JsonInteger,
        numbers.map JsonInteger.toInt64 = values.map some ∧
          Inside .array token (numbers.map JsonInteger.token)
  | .stringArray values, token =>
      values ≠ [] ∧ ∃ texts : List Bytes,
        texts.map (·.take (stringArrayItemMaxLen - 1)) = values ∧
          Inside .array token (texts.map fun text => ⟨.string, text⟩)
  | .object nodes, token =>
      ∃ tokens, Inside .object token tokens ∧ AreMembers nodes tokens
  | .objectArray nodes, token =>
      nodes ≠ [] ∧
        ∃ tokens, Inside .array token tokens ∧ AreObjects nodes tokens

/-- The nodes are the members with these keys and values in turn. -/
def AreMembers : List (Option Bytes × JsonNode) → List JsmnToken → Prop
  | [], tokens => tokens = []
  | (name, node) :: nodes, tokens =>
      ∃ key token rest, tokens = ⟨.string, key⟩ :: token :: rest ∧
        name = some key ∧ node.IsValue token ∧ AreMembers nodes rest

/-- The nodes are objects that are the values of the tokens. -/
def AreObjects : List (Option Bytes × JsonNode) → List JsmnToken → Prop
  | [], tokens => tokens = []
  | (name, node) :: nodes, tokens =>
      ∃ token rest, tokens = token :: rest ∧ name = none ∧
        token.type = .object ∧ node.IsValue token ∧ AreObjects nodes rest

end

end IotivityLite
