import IotivityLite.Json.Syntax

/-!
# The tokens of JSON texts

The fuel of the tokenizer is shown to be no bound, which gives one equation for
every kind of byte.  Then the texts of syntax trees are read: the tokenizer
finds one token for every value on the outermost level of a text, and the text
of a container is what stands between its brackets.
-/

namespace IotivityLite

variable {Rest : Type}

theorem prepend_prepend {Rest : Type} (first second : Bytes)
    (result : Option (Bytes × Rest)) :
    prepend first (prepend second result) =
      prepend (first ++ second) result := by
  cases result with
  | none => rfl
  | some pair => simp [prepend]

theorem prepend_nil (result : Option (Bytes × Rest)) :
    prepend [] result = result := by
  cases result <;> rfl

@[simp] theorem prepend_some (bytes text : Bytes) (rest : Rest) :
    prepend bytes (some (text, rest)) = some (bytes ++ text, rest) := rfl

theorem prepend_eq_some {bytes text : Bytes} {rest : Rest}
    {result : Option (Bytes × Rest)}
    (found : prepend bytes result = some (text, rest)) :
    ∃ inner, result = some (inner, rest) ∧ text = bytes ++ inner := by
  cases result with
  | none => cases found
  | some pair =>
      cases found
      exact ⟨pair.1, rfl, rfl⟩

variable {byte : UInt8}

section Strings

variable (rest : Bytes)

theorem jsmnParseString_quote :
    jsmnParseString (34 :: rest) = some ([], rest) := by
  rw [jsmnParseString.eq_def]
  simp

theorem jsmnParseString_unicode {first second third fourth : UInt8}
    (hexes : [first, second, third, fourth].all isXdigit = true) :
    jsmnParseString (92 :: 117 :: first :: second :: third :: fourth :: rest) =
      prepend [92, 117, first, second, third, fourth]
        (jsmnParseString rest) := by
  rw [jsmnParseString.eq_def]
  simp only [if_pos hexes]
  simp

theorem jsmnParseString_escape {escaped : UInt8} (notUnicode : escaped ≠ 117)
    (isEscape : isJsonEscape escaped = true) :
    jsmnParseString (92 :: escaped :: rest) =
      prepend [92, escaped] (jsmnParseString rest) := by
  rw [jsmnParseString.eq_def]
  simp [notUnicode, isEscape]

theorem jsmnParseString_plain (special : ¬(byte = 0 ∨ byte = 34))
    (notEscape : byte ≠ 92) :
    jsmnParseString (byte :: rest) = prepend [byte] (jsmnParseString rest) := by
  obtain ⟨notZero, notQuote⟩ := not_or.mp special
  rw [jsmnParseString.eq_def]
  simp [notZero, notQuote, notEscape]

theorem jsmnParseString_append {raw : Bytes}
    (isText : isStringText raw = true) :
    jsmnParseString (raw ++ 34 :: rest) = some (raw, rest) := by
  fun_induction isStringText raw with
  | case1 => exact jsmnParseString_quote rest
  | case2 => cases isText
  | case3 => cases isText
  | case4 first second third fourth raw _ ih =>
      obtain ⟨hexes, isText⟩ := Bool.and_eq_true_iff.mp isText
      simp only [List.cons_append]
      rw [jsmnParseString_unicode _ hexes, ih isText]
      rfl
  | case5 => cases isText
  | case6 escaped raw notUnicode _ ih =>
      obtain ⟨isEscape, isText⟩ := Bool.and_eq_true_iff.mp isText
      simp only [List.cons_append]
      rw [jsmnParseString_escape _ notUnicode isEscape, ih isText]
      rfl
  | case7 byte raw special notEscape ih =>
      simp only [List.cons_append]
      rw [jsmnParseString_plain _ special notEscape, ih isText]
      rfl

end Strings

theorem jsmnParseString_text {text raw rest : Bytes}
    (parsed : jsmnParseString text = some (raw, rest)) :
    text = raw ++ 34 :: rest := by
  fun_induction jsmnParseString text generalizing raw with
  | case1 => cases parsed
  | case2 => cases parsed
  | case3 => cases parsed; rfl
  | case4 => cases parsed
  | case5 _ _ _ _ text _ _ _ ih =>
      obtain ⟨inner, inRest, rfl⟩ := prepend_eq_some parsed
      rw [ih inRest]
      rfl
  | case6 => cases parsed
  | case7 => cases parsed
  | case8 _ _ _ _ _ _ ih =>
      obtain ⟨inner, inRest, rfl⟩ := prepend_eq_some parsed
      rw [ih inRest]
      rfl
  | case9 => cases parsed
  | case10 _ _ _ _ _ ih =>
      obtain ⟨inner, inRest, rfl⟩ := prepend_eq_some parsed
      rw [ih inRest]
      rfl

theorem jsmnParseString_length {text raw rest : Bytes}
    (parsed : jsmnParseString text = some (raw, rest)) :
    rest.length < text.length := by
  rw [jsmnParseString_text parsed]
  simp
  omega

/-- A byte that the primitives of JSON are written with. -/
def isWordByte (byte : UInt8) : Bool :=
  isDigit byte || (97 ≤ byte && byte ≤ 122) || byte == 45

theorem isWordByte_plain (word : isWordByte byte = true) :
    (byte ≠ 0 ∧ byte ≠ 34 ∧ byte ≠ 123 ∧ byte ≠ 91) ∧
      isPrimitiveEnd byte = false ∧ 32 ≤ byte ∧ byte < 127 := by
  simp only [isWordByte, isDigit, Bool.or_eq_true, Bool.and_eq_true,
    decide_eq_true_eq, beq_iff_eq, isPrimitiveEnd, isJsonSeparator, isJsonSpace,
    UInt8.le_iff_toNat_le, UInt8.lt_iff_toNat_lt, ← UInt8.toNat_inj, ne_eq,
    Bool.or_eq_false_iff, beq_eq_false_iff_ne] at *
  simp only [UInt8.reduceToNat] at *
  omega

/-- The text of a primitive. -/
def IsWord (text : Bytes) : Prop :=
  text ≠ [] ∧ ∀ byte ∈ text, isWordByte byte = true

/-- A primitive ends in front of the text. -/
def EndsPrimitive (rest : Bytes) : Prop :=
  ∀ byte ∈ rest.head?, isPrimitiveEnd byte = true

theorem jsmnParsePrimitive_append {text rest : Bytes} (word : IsWord text)
    (ends : EndsPrimitive rest) :
    jsmnParsePrimitive (text ++ rest) = some (text, rest) := by
  have open_ : ∀ byte ∈ text, (!isPrimitiveEnd byte) = true := by
    intro byte member
    simp [(isWordByte_plain (word.2 byte member)).2.1]
  have taken : rest.takeWhile (fun byte => !isPrimitiveEnd byte) = [] := by
    cases rest with
    | nil => rfl
    | cons byte rest =>
        have isEnd := ends byte rfl
        simp [isEnd]
  have dropped : rest.dropWhile (fun byte => !isPrimitiveEnd byte) = rest := by
    cases rest with
    | nil => rfl
    | cons byte rest =>
        have isEnd := ends byte rfl
        simp [isEnd]
  have printable : text.all (fun byte => 32 ≤ byte && byte < 127) = true := by
    refine List.all_eq_true.mpr fun byte member => ?_
    simpa using (isWordByte_plain (word.2 byte member)).2.2
  simp only [jsmnParsePrimitive, List.takeWhile_append_of_pos open_,
    List.dropWhile_append_of_pos open_, taken, dropped, List.append_nil,
    if_pos printable]

theorem jsmnParsePrimitive_text {text token rest : Bytes}
    (parsed : jsmnParsePrimitive text = some (token, rest)) :
    text = token ++ rest := by
  simp only [jsmnParsePrimitive, Option.ite_none_right_eq_some,
    Option.some.injEq, Prod.mk.injEq] at parsed
  obtain ⟨-, rfl, rfl⟩ := parsed
  exact List.takeWhile_append_dropWhile.symm

theorem jsmnParsePrimitive_length {text token rest : Bytes}
    (notEnd : isPrimitiveEnd byte = false)
    (parsed : jsmnParsePrimitive (byte :: text) = some (token, rest)) :
    rest.length ≤ text.length := by
  simp only [jsmnParsePrimitive, Option.ite_none_right_eq_some,
    Option.some.injEq, Prod.mk.injEq] at parsed
  obtain ⟨-, -, rfl⟩ := parsed
  rw [List.dropWhile_cons_of_pos (by simp [notEnd])]
  exact (List.dropWhile_suffix _).length_le

theorem isPrimitiveEnd_eq_false (noBracket : ¬(byte = 125 ∨ byte = 93))
    (noSeparator : ¬isJsonSeparator byte = true) :
    isPrimitiveEnd byte = false := by
  obtain ⟨noBrace, noBracket⟩ := not_or.mp noBracket
  simp [isPrimitiveEnd, noSeparator, noBrace, noBracket]

theorem jsmnContainer_cons (fuel depth : Nat) (byte : UInt8) (rest : Bytes) :
    jsmnContainer (fuel + 1) depth (byte :: rest) =
      if byte = 0 then none
      else if byte = 123 ∨ byte = 91 then
        prepend [byte] (jsmnContainer fuel (depth + 1) rest)
      else if byte = 125 ∨ byte = 93 then
        match depth with
        | 0 => some ([], byte == 125, rest)
        | depth + 1 => prepend [byte] (jsmnContainer fuel depth rest)
      else if byte = 34 then
        match jsmnParseString rest with
        | none => none
        | some (text, rest) =>
            prepend (34 :: (text ++ [34])) (jsmnContainer fuel depth rest)
      else if isJsonSeparator byte then
        prepend [byte] (jsmnContainer fuel depth rest)
      else
        match jsmnParsePrimitive (byte :: rest) with
        | none => none
        | some (text, rest) =>
            prepend text (jsmnContainer fuel depth rest) := by
  cases depth <;> rfl

variable {text : Bytes}

theorem jsmnTokens_cons (fuel : Nat) (byte : UInt8) (rest : Bytes) :
    jsmnTokens (fuel + 1) (byte :: rest) =
      if byte = 0 then ([], true)
      else if byte = 123 ∨ byte = 91 then
        match jsmnContainer (rest.length + 1) 0 rest with
        | none => ([], false)
        | some (text, brace, rest) =>
            if brace = (byte == 123) then
              consToken ⟨if byte = 123 then .object else .array, text⟩
                (jsmnTokens fuel rest)
            else ([], false)
      else if byte = 125 ∨ byte = 93 then ([], false)
      else if byte = 34 then
        match jsmnParseString rest with
        | none => ([], false)
        | some (text, rest) =>
            consToken ⟨.string, text⟩ (jsmnTokens fuel rest)
      else if isJsonSeparator byte then jsmnTokens fuel rest
      else
        match jsmnParsePrimitive (byte :: rest) with
        | none => ([], false)
        | some (text, rest) =>
            consToken ⟨.primitive, text⟩ (jsmnTokens fuel rest) :=
  rfl

theorem jsmnContainer_fuel {fuel : Nat} (other depth : Nat)
    (enough : text.length < fuel) (also : text.length < other) :
    jsmnContainer fuel depth text = jsmnContainer other depth text := by
  induction fuel generalizing other depth text with
  | zero => cases enough
  | succ fuel ih =>
      cases other with
      | zero => cases also
      | succ other =>
          cases text with
          | nil => rfl
          | cons byte rest =>
              have less : rest.length < fuel := Nat.lt_of_succ_lt_succ enough
              have less' : rest.length < other := Nat.lt_of_succ_lt_succ also
              have next (depth : Nat) {rest' : Bytes}
                  (shorter : rest'.length ≤ rest.length) :
                  jsmnContainer fuel depth rest' =
                    jsmnContainer other depth rest' := by
                apply ih
                · exact Nat.lt_of_le_of_lt shorter less
                · exact Nat.lt_of_le_of_lt shorter less'
              simp only [jsmnContainer_cons]
              split_ifs with zero opening closing quote separator
              · rfl
              · rw [next _ (Nat.le_refl _)]
              · cases depth with
                | zero => rfl
                | succ depth =>
                    simp only
                    rw [next _ (Nat.le_refl _)]
              · cases parsed : jsmnParseString rest with
                | none => rfl
                | some pair =>
                    simp only
                    rw [next _ (Nat.le_of_lt (jsmnParseString_length parsed))]
              · rw [next _ (Nat.le_refl _)]
              · cases parsed : jsmnParsePrimitive (byte :: rest) with
                | none => rfl
                | some pair =>
                    simp only
                    rw [next _ (jsmnParsePrimitive_length
                      (isPrimitiveEnd_eq_false closing separator) parsed)]

theorem jsmnContainer_text {fuel depth : Nat} {text inner rest : Bytes}
    {brace : Bool}
    (found : jsmnContainer fuel depth text = some (inner, brace, rest)) :
    ∃ closing, text = inner ++ closing :: rest := by
  induction fuel generalizing depth text inner with
  | zero => cases found
  | succ fuel ih =>
      cases text with
      | nil => cases found
      | cons byte text =>
          have next {bytes inner text' : Bytes} {depth : Nat}
              (front : byte :: text = bytes ++ text')
              (found : prepend bytes (jsmnContainer fuel depth text') =
                some (inner, brace, rest)) :
              ∃ closing, byte :: text = inner ++ closing :: rest := by
            obtain ⟨inner, inRest, rfl⟩ := prepend_eq_some found
            obtain ⟨closing, rfl⟩ := ih inRest
            exact ⟨closing, by rw [front, List.append_assoc]⟩
          simp only [jsmnContainer_cons] at found
          split_ifs at found with zero opening closing quote separator
          · exact next rfl found
          · cases depth with
            | zero =>
                cases found
                exact ⟨byte, rfl⟩
            | succ depth => exact next rfl found
          · cases parsed : jsmnParseString text with
            | none => rw [parsed] at found; cases found
            | some pair =>
                rw [parsed] at found
                refine next ?_ found
                rw [jsmnParseString_text parsed, quote]
                simp
          · exact next rfl found
          · cases parsed : jsmnParsePrimitive (byte :: text) with
            | none => rw [parsed] at found; cases found
            | some pair =>
                rw [parsed] at found
                exact next (jsmnParsePrimitive_text parsed) found

theorem jsmnContainer_length {fuel depth : Nat} {text inner rest : Bytes}
    {brace : Bool}
    (found : jsmnContainer fuel depth text = some (inner, brace, rest)) :
    rest.length < text.length := by
  obtain ⟨closing, rfl⟩ := jsmnContainer_text found
  simp
  omega

theorem jsmnTokens_fuel {fuel : Nat} (other : Nat) (enough : text.length < fuel)
    (also : text.length < other) :
    jsmnTokens fuel text = jsmnTokens other text := by
  induction fuel generalizing other text with
  | zero => cases enough
  | succ fuel ih =>
      cases other with
      | zero => cases also
      | succ other =>
          cases text with
          | nil => rfl
          | cons byte rest =>
              have less : rest.length < fuel := Nat.lt_of_succ_lt_succ enough
              have less' : rest.length < other := Nat.lt_of_succ_lt_succ also
              have next {rest' : Bytes}
                  (shorter : rest'.length ≤ rest.length) :
                  jsmnTokens fuel rest' = jsmnTokens other rest' := by
                apply ih
                · exact Nat.lt_of_le_of_lt shorter less
                · exact Nat.lt_of_le_of_lt shorter less'
              simp only [jsmnTokens_cons]
              split_ifs with zero opening isBrace closing quote separator
              · rfl
              · cases found : jsmnContainer (rest.length + 1) 0 rest with
                | none => rfl
                | some triple =>
                    simp only
                    rw [next (Nat.le_of_lt (jsmnContainer_length found))]
              · cases found : jsmnContainer (rest.length + 1) 0 rest with
                | none => rfl
                | some triple =>
                    simp only
                    rw [next (Nat.le_of_lt (jsmnContainer_length found))]
              · rfl
              · cases parsed : jsmnParseString rest with
                | none => rfl
                | some pair =>
                    simp only
                    rw [next (Nat.le_of_lt (jsmnParseString_length parsed))]
              · exact next (Nat.le_refl _)
              · cases parsed : jsmnParsePrimitive (byte :: rest) with
                | none => rfl
                | some pair =>
                    simp only
                    rw [next (jsmnParsePrimitive_length
                      (isPrimitiveEnd_eq_false closing separator) parsed)]

theorem jsmnTokens_length {fuel : Nat} {token : JsmnToken}
    (found : token ∈ (jsmnTokens fuel text).1)
    (isContainer : token.type = .object ∨ token.type = .array) :
    token.text.length < text.length := by
  induction fuel generalizing text with
  | zero => cases found
  | succ fuel ih =>
      cases text with
      | nil => cases found
      | cons byte text =>
          have next {first : JsmnToken} {rest : Bytes}
              (shorter : rest.length ≤ text.length)
              (isShort : token = first →
                token.text.length < (byte :: text).length)
              (found : token ∈ (consToken first (jsmnTokens fuel rest)).1) :
              token.text.length < (byte :: text).length := by
            rcases List.mem_cons.mp found with isFirst | inRest
            · exact isShort isFirst
            · have less := ih inRest
              simp only [List.length_cons]
              omega
          have container {brace : Bool} {type : JsmnType}
              {triple : Bytes × Bool × Bytes}
              (inText : jsmnContainer (text.length + 1) 0 text = some triple)
              (found : token ∈ (if triple.2.1 = brace then
                consToken ⟨type, triple.1⟩ (jsmnTokens fuel triple.2.2)
                else ([], false)).1) :
              token.text.length < (byte :: text).length := by
            obtain ⟨inner, isBrace, rest⟩ := triple
            obtain ⟨closing, isText⟩ := jsmnContainer_text inText
            have lengths := congrArg List.length isText
            simp only [List.length_append, List.length_cons] at lengths
            have shorter : rest.length ≤ text.length := by omega
            split_ifs at found with matching
            · refine next shorter (fun isFirst => ?_) found
              cases isFirst
              simp only [List.length_cons]
              omega
            · cases found
          have noContainer {raw : Bytes} {type : JsmnType}
              (noObject : type ≠ .object) (noArray : type ≠ .array)
              (isFirst : token = ⟨type, raw⟩) :
              token.text.length < (byte :: text).length := by
            cases isFirst
            rcases isContainer with isObject | isArray
            · exact absurd isObject noObject
            · exact absurd isArray noArray
          simp only [jsmnTokens_cons] at found
          split_ifs at found with zero opening isBrace closing quote separator
          · cases found
          · cases inText : jsmnContainer (text.length + 1) 0 text with
            | none => rw [inText] at found; cases found
            | some triple =>
                rw [inText] at found
                exact container inText found
          · cases inText : jsmnContainer (text.length + 1) 0 text with
            | none => rw [inText] at found; cases found
            | some triple =>
                rw [inText] at found
                exact container inText found
          · cases found
          · cases parsed : jsmnParseString text with
            | none => rw [parsed] at found; cases found
            | some pair =>
                rw [parsed] at found
                exact next (Nat.le_of_lt (jsmnParseString_length parsed))
                  (noContainer JsmnType.noConfusion JsmnType.noConfusion) found
          · have less := ih found
            simp only [List.length_cons]
            omega
          · cases parsed : jsmnParsePrimitive (byte :: text) with
            | none => rw [parsed] at found; cases found
            | some pair =>
                rw [parsed] at found
                exact next (jsmnParsePrimitive_length
                    (isPrimitiveEnd_eq_false closing separator) parsed)
                  (noContainer JsmnType.noConfusion JsmnType.noConfusion) found

/-- The loop inside a container, with enough fuel. -/
def inside (depth : Nat) (text : Bytes) : Option (Bytes × Bool × Bytes) :=
  jsmnContainer (text.length + 1) depth text

section Inside

variable (depth : Nat) {rest : Bytes}

theorem inside_open (isOpening : byte = 123 ∨ byte = 91) :
    inside depth (byte :: rest) = prepend [byte] (inside (depth + 1) rest) := by
  have notZero : byte ≠ 0 := by rcases isOpening with rfl | rfl <;> decide
  simp only [inside, List.length_cons, jsmnContainer_cons, if_neg notZero,
    if_pos isOpening]

theorem inside_close (isClosing : byte = 125 ∨ byte = 93) :
    inside (depth + 1) (byte :: rest) = prepend [byte] (inside depth rest) := by
  have others : byte ≠ 0 ∧ ¬(byte = 123 ∨ byte = 91) := by
    rcases isClosing with rfl | rfl <;> decide
  simp only [inside, List.length_cons, jsmnContainer_cons, if_neg others.1,
    if_neg others.2, if_pos isClosing]

theorem inside_end (isClosing : byte = 125 ∨ byte = 93) :
    inside 0 (byte :: rest) = some ([], byte == 125, rest) := by
  have others : byte ≠ 0 ∧ ¬(byte = 123 ∨ byte = 91) := by
    rcases isClosing with rfl | rfl <;> decide
  simp only [inside, List.length_cons, jsmnContainer_cons, if_neg others.1,
    if_neg others.2, if_pos isClosing]

theorem isJsonSeparator_plain (separator : isJsonSeparator byte = true) :
    byte ≠ 0 ∧ ¬(byte = 123 ∨ byte = 91) ∧ ¬(byte = 125 ∨ byte = 93) ∧
      byte ≠ 34 := by
  simp only [isJsonSeparator, isJsonSpace, Bool.or_eq_true, beq_iff_eq]
    at separator
  rcases separator with ((((rfl | rfl) | rfl) | rfl) | rfl) | rfl <;> decide

theorem inside_separator (separator : isJsonSeparator byte = true) :
    inside depth (byte :: rest) = prepend [byte] (inside depth rest) := by
  obtain ⟨notZero, notOpening, notClosing, notQuote⟩ :=
    isJsonSeparator_plain separator
  simp only [inside, List.length_cons, jsmnContainer_cons, if_neg notZero,
    if_neg notOpening, if_neg notClosing, if_neg notQuote, if_pos separator]

theorem inside_separators {bytes : Bytes}
    (separators : ∀ byte ∈ bytes, isJsonSeparator byte = true) :
    inside depth (bytes ++ rest) = prepend bytes (inside depth rest) := by
  induction bytes with
  | nil => rw [List.nil_append, prepend_nil]
  | cons byte bytes ih =>
      rw [List.cons_append, inside_separator depth (separators byte (by simp)),
        ih fun other member => separators other (by simp [member]),
        prepend_prepend]
      rfl

theorem inside_string {raw : Bytes} (isText : isStringText raw = true) :
    inside depth (34 :: (raw ++ 34 :: rest)) =
      prepend (34 :: (raw ++ [34])) (inside depth rest) := by
  have others : (34 : UInt8) ≠ 0 ∧ ¬((34 : UInt8) = 123 ∨ (34 : UInt8) = 91) ∧
      ¬((34 : UInt8) = 125 ∨ (34 : UInt8) = 93) := by decide
  simp only [inside, List.length_cons, jsmnContainer_cons, if_neg others.1,
    if_neg others.2.1, if_neg others.2.2, if_true,
    jsmnParseString_append rest isText]
  rw [jsmnContainer_fuel (rest.length + 1) depth]
  · simp; omega
  · simp

theorem inside_primitive (word : IsWord text) (ends : EndsPrimitive rest) :
    inside depth (text ++ rest) = prepend text (inside depth rest) := by
  have parsed := jsmnParsePrimitive_append word ends
  obtain ⟨nonempty, word⟩ := word
  cases text with
  | nil => exact absurd rfl nonempty
  | cons byte text =>
      obtain ⟨⟨notZero, notQuote, notBrace, notBracket⟩, notEnd, -⟩ :=
        isWordByte_plain (word byte (by simp))
      simp only [isPrimitiveEnd, Bool.or_eq_false_iff, beq_eq_false_iff_ne]
        at notEnd
      obtain ⟨⟨notSeparator, notClosing⟩, notClosing'⟩ := notEnd
      rw [List.cons_append] at parsed ⊢
      simp only [inside, List.length_cons, jsmnContainer_cons, if_neg notZero,
        if_neg (not_or.mpr ⟨notBrace, notBracket⟩),
        if_neg (not_or.mpr ⟨notClosing', notClosing⟩), if_neg notQuote,
        notSeparator, Bool.false_eq_true, if_false, parsed]
      rw [jsmnContainer_fuel (rest.length + 1) depth]
      · rw [List.length_append]
        omega
      · exact Nat.lt_succ_self _

end Inside

section Level

variable {rest : Bytes}

theorem jsmnParse_separator (separator : isJsonSeparator byte = true) :
    jsmnParse (byte :: rest) = jsmnParse rest := by
  obtain ⟨notZero, notOpening, notClosing, notQuote⟩ :=
    isJsonSeparator_plain separator
  simp only [jsmnParse, List.length_cons, jsmnTokens_cons, if_neg notZero,
    if_neg notOpening, if_neg notClosing, if_neg notQuote, if_pos separator]

theorem jsmnParse_separators {bytes : Bytes}
    (separators : ∀ byte ∈ bytes, isJsonSeparator byte = true) :
    jsmnParse (bytes ++ rest) = jsmnParse rest := by
  induction bytes with
  | nil => rw [List.nil_append]
  | cons byte bytes ih =>
      rw [List.cons_append, jsmnParse_separator (separators byte (by simp)),
        ih fun other member => separators other (by simp [member])]

theorem jsmnParse_string {raw : Bytes} (isText : isStringText raw = true) :
    jsmnParse (34 :: (raw ++ 34 :: rest)) =
      consToken ⟨.string, raw⟩ (jsmnParse rest) := by
  have others : (34 : UInt8) ≠ 0 ∧ ¬((34 : UInt8) = 123 ∨ (34 : UInt8) = 91) ∧
      ¬((34 : UInt8) = 125 ∨ (34 : UInt8) = 93) := by decide
  simp only [jsmnParse, List.length_cons, jsmnTokens_cons, if_neg others.1,
    if_neg others.2.1, if_neg others.2.2, if_true,
    jsmnParseString_append rest isText]
  rw [jsmnTokens_fuel (rest.length + 1)]
  · simp; omega
  · simp

theorem jsmnParse_primitive (word : IsWord text) (ends : EndsPrimitive rest) :
    jsmnParse (text ++ rest) =
      consToken ⟨.primitive, text⟩ (jsmnParse rest) := by
  have parsed := jsmnParsePrimitive_append word ends
  obtain ⟨nonempty, word⟩ := word
  cases text with
  | nil => exact absurd rfl nonempty
  | cons byte text =>
      obtain ⟨⟨notZero, notQuote, notBrace, notBracket⟩, notEnd, -⟩ :=
        isWordByte_plain (word byte (by simp))
      simp only [isPrimitiveEnd, Bool.or_eq_false_iff, beq_eq_false_iff_ne]
        at notEnd
      obtain ⟨⟨notSeparator, notClosing⟩, notClosing'⟩ := notEnd
      rw [List.cons_append] at parsed ⊢
      simp only [jsmnParse, List.length_cons, jsmnTokens_cons, if_neg notZero,
        if_neg (not_or.mpr ⟨notBrace, notBracket⟩),
        if_neg (not_or.mpr ⟨notClosing', notClosing⟩), if_neg notQuote,
        notSeparator, Bool.false_eq_true, if_false, parsed]
      rw [jsmnTokens_fuel (rest.length + 1)]
      · rw [List.length_append]
        omega
      · exact Nat.lt_succ_self _

theorem jsmnParse_object {text inner : Bytes}
    (found : inside 0 text = some (inner, true, rest)) :
    jsmnParse (123 :: text) = consToken ⟨.object, inner⟩ (jsmnParse rest) := by
  have same : jsmnTokens (text.length + 1) rest = jsmnParse rest :=
    jsmnTokens_fuel _ (Nat.lt_succ_of_lt (jsmnContainer_length found))
      (Nat.lt_succ_self _)
  have notZero : (123 : UInt8) ≠ 0 := by decide
  unfold inside at found
  simp only [jsmnParse, List.length_cons, jsmnTokens_cons, if_neg notZero,
    true_or, found, BEq.rfl, if_true]
  rw [same, jsmnParse]

theorem jsmnParse_array {text inner : Bytes}
    (found : inside 0 text = some (inner, false, rest)) :
    jsmnParse (91 :: text) = consToken ⟨.array, inner⟩ (jsmnParse rest) := by
  have same : jsmnTokens (text.length + 1) rest = jsmnParse rest :=
    jsmnTokens_fuel _ (Nat.lt_succ_of_lt (jsmnContainer_length found))
      (Nat.lt_succ_self _)
  have others : (91 : UInt8) ≠ 0 ∧ (91 : UInt8) ≠ 123 := by decide
  have notBrace : ((91 : UInt8) == 123) = false := rfl
  unfold inside at found
  simp only [jsmnParse, List.length_cons, jsmnTokens_cons, if_neg others.1,
    or_true, found, notBrace, if_neg others.2, if_true]
  rw [same, jsmnParse]

end Level

theorem isWord_null : IsWord (ascii "null") :=
  ⟨List.cons_ne_nil _ _, List.all_eq_true.mp rfl⟩

theorem isWord_bool (value : Bool) :
    IsWord (if value then ascii "true" else ascii "false") := by
  cases value with
  | true => exact ⟨List.cons_ne_nil _ _, List.all_eq_true.mp rfl⟩
  | false => exact ⟨List.cons_ne_nil _ _, List.all_eq_true.mp rfl⟩

theorem JsonInteger.isWord (number : JsonInteger) : IsWord number.text := by
  constructor
  · exact fun empty => number.nonempty (List.append_eq_nil_iff.mp empty).2
  · intro byte member
    rcases List.mem_append.mp member with sign | digit
    · cases negative : number.negative with
      | false => simp [negative] at sign
      | true =>
          have isMinus : byte = 45 := by simpa [negative] using sign
          subst isMinus
          decide
    · simp [isWordByte, number.areDigits byte digit]

theorem JsonSpace.isSeparator (space : JsonSpace) :
    ∀ byte ∈ space.bytes, isJsonSeparator byte = true := by
  intro byte member
  simp [isJsonSeparator, space.isSpace byte member]

theorem comma_isSeparator {Part : Type} (parts : List Part) :
    ∀ byte ∈ comma parts, isJsonSeparator byte = true := by
  cases parts with
  | nil => nofun
  | cons part parts =>
      intro byte member
      cases List.mem_singleton.mp member
      decide

theorem EndsPrimitive.separators {bytes rest : Bytes}
    (separators : ∀ byte ∈ bytes, isJsonSeparator byte = true)
    (ends : EndsPrimitive rest) : EndsPrimitive (bytes ++ rest) := by
  cases bytes with
  | nil => exact ends
  | cons byte bytes =>
      intro first isFirst
      cases isFirst
      simp [isPrimitiveEnd, separators byte (by simp)]

theorem EndsPrimitive.comma {Part : Type} (parts : List Part)
    {text rest : Bytes} (empty : parts = [] → text = [])
    (ends : EndsPrimitive rest) :
    EndsPrimitive (comma parts ++ (text ++ rest)) := by
  cases parts with
  | nil => simpa [IotivityLite.comma, empty rfl] using ends
  | cons part parts =>
      intro first isFirst
      cases isFirst
      decide

theorem endsPrimitive_close {byte : UInt8} (isClosing : byte = 125 ∨ byte = 93)
    (rest : Bytes) : EndsPrimitive (byte :: rest) := by
  intro first isFirst
  cases isFirst
  rcases isClosing with rfl | rfl <;> decide

theorem itemsText_nil {items : JsonItems} (empty : items = []) :
    itemsText items = [] := by
  cases empty
  rw [itemsText]

theorem membersText_nil {members : JsonMembers} (empty : members = []) :
    membersText members = [] := by
  cases empty
  rw [membersText]

theorem inside_key (key : JsonKey) (depth : Nat) (rest : Bytes) :
    inside depth (key.text ++ rest) = prepend key.text (inside depth rest) := by
  simp only [JsonKey.text, List.append_assoc, List.cons_append]
  rw [inside_separators depth key.before.isSeparator,
    inside_string depth key.name.isText,
    inside_separators depth key.after.isSeparator]
  simp [prepend_prepend]

section Texts

variable {depth : Nat} {rest : Bytes} (inner : JsonSpace)

theorem inside_arrayText {items : JsonItems}
    (passed : inside depth (itemsText items ++ rest) =
      prepend (itemsText items) (inside depth rest)) :
    inside depth (arrayText inner items ++ rest) =
      prepend (arrayText inner items) (inside depth rest) := by
  cases items with
  | nil => exact inside_separators depth inner.isSeparator
  | cons item items => exact passed

theorem inside_objectText {members : JsonMembers}
    (passed : inside depth (membersText members ++ rest) =
      prepend (membersText members) (inside depth rest)) :
    inside depth (objectText inner members ++ rest) =
      prepend (objectText inner members) (inside depth rest) := by
  cases members with
  | nil => exact inside_separators depth inner.isSeparator
  | cons member members => exact passed

end Texts

mutual

/-- A value inside of a container is passed over. -/
theorem JsonSyntax.inside_text (depth : Nat) (rest : Bytes)
    (ends : EndsPrimitive rest) : (value : JsonSyntax) →
    inside depth (value.text ++ rest) =
      prepend value.text (inside depth rest)
  | .null => by
      rw [JsonSyntax.text]
      exact inside_primitive depth isWord_null ends
  | .bool value => by
      rw [JsonSyntax.text]
      exact inside_primitive depth (isWord_bool value) ends
  | .int number => by
      rw [JsonSyntax.text]
      exact inside_primitive depth number.isWord ends
  | .string value => by
      rw [JsonSyntax.text]
      simpa using inside_string depth value.isText
  | .array inner items => by
      rw [JsonSyntax.text_array, List.cons_append, List.append_assoc,
        List.singleton_append, inside_open depth (.inr rfl),
        inside_arrayText inner (inside_itemsText (depth + 1) (93 :: rest)
          (endsPrimitive_close (.inr rfl) rest) items),
        inside_close depth (.inr rfl)]
      simp [prepend_prepend]
  | .object inner members => by
      rw [JsonSyntax.text_object, List.cons_append, List.append_assoc,
        List.singleton_append, inside_open depth (.inl rfl),
        inside_objectText inner (inside_membersText (depth + 1) (125 :: rest)
          (endsPrimitive_close (.inl rfl) rest) members),
        inside_close depth (.inl rfl)]
      simp [prepend_prepend]

theorem inside_itemsText (depth : Nat) (rest : Bytes)
    (ends : EndsPrimitive rest) : (items : JsonItems) →
    inside depth (itemsText items ++ rest) =
      prepend (itemsText items) (inside depth rest)
  | [] => by rw [itemsText, List.nil_append, prepend_nil]
  | (before, value, after) :: items => by
      have follows : EndsPrimitive (after.bytes ++ (comma items ++
          (itemsText items ++ rest))) :=
        .separators after.isSeparator (.comma items itemsText_nil ends)
      simp only [itemsText, List.append_assoc]
      rw [inside_separators depth before.isSeparator,
        JsonSyntax.inside_text depth _ follows value,
        inside_separators depth after.isSeparator,
        inside_separators depth (comma_isSeparator items),
        inside_itemsText depth rest ends items]
      simp [prepend_prepend]

theorem inside_membersText (depth : Nat) (rest : Bytes)
    (ends : EndsPrimitive rest) : (members : JsonMembers) →
    inside depth (membersText members ++ rest) =
      prepend (membersText members) (inside depth rest)
  | [] => by rw [membersText, List.nil_append, prepend_nil]
  | (key, before, value, after) :: members => by
      have follows : EndsPrimitive (after.bytes ++ (comma members ++
          (membersText members ++ rest))) :=
        .separators after.isSeparator (.comma members membersText_nil ends)
      have colon : isJsonSeparator 58 = true := by decide
      simp only [membersText, List.append_assoc, List.cons_append]
      rw [inside_key, inside_separator depth colon,
        inside_separators depth before.isSeparator,
        JsonSyntax.inside_text depth _ follows value,
        inside_separators depth after.isSeparator,
        inside_separators depth (comma_isSeparator members),
        inside_membersText depth rest ends members]
      simp [prepend_prepend]

end

/-- The token of a value. -/
def JsonSyntax.token : JsonSyntax → JsmnToken
  | .null => ⟨.primitive, ascii "null"⟩
  | .bool value => ⟨.primitive, if value then ascii "true" else ascii "false"⟩
  | .int number => ⟨.primitive, number.text⟩
  | .string value => ⟨.string, value.raw⟩
  | .array inner items => ⟨.array, arrayText inner items⟩
  | .object inner members => ⟨.object, objectText inner members⟩

theorem JsonSyntax.jsmnParse_text (value : JsonSyntax) {rest : Bytes}
    (ends : EndsPrimitive rest) :
    jsmnParse (value.text ++ rest) =
      consToken value.token (jsmnParse rest) := by
  cases value with
  | null =>
      rw [JsonSyntax.text]
      exact jsmnParse_primitive isWord_null ends
  | bool value =>
      rw [JsonSyntax.text]
      exact jsmnParse_primitive (isWord_bool value) ends
  | int number =>
      rw [JsonSyntax.text]
      exact jsmnParse_primitive number.isWord ends
  | string value =>
      rw [JsonSyntax.text]
      simpa [JsonSyntax.token] using jsmnParse_string value.isText
  | array inner items =>
      have passed := inside_arrayText inner (inside_itemsText 0 (93 :: rest)
        (endsPrimitive_close (.inr rfl) rest) items)
      rw [inside_end (.inr rfl), prepend_some, List.append_nil] at passed
      rw [JsonSyntax.text_array, List.cons_append, List.append_assoc,
        List.singleton_append, jsmnParse_array passed]
      rfl
  | object inner members =>
      have passed := inside_objectText inner (inside_membersText 0 (125 :: rest)
        (endsPrimitive_close (.inl rfl) rest) members)
      rw [inside_end (.inl rfl), prepend_some, List.append_nil] at passed
      rw [JsonSyntax.text_object, List.cons_append, List.append_assoc,
        List.singleton_append, jsmnParse_object passed]
      rfl

theorem endsPrimitive_nil : EndsPrimitive [] := nofun

theorem jsmnParse_arrayText (inner : JsonSpace) (items : JsonItems) :
    jsmnParse (arrayText inner items) =
      (items.map fun item => item.2.1.token, true) := by
  have items_tokens : jsmnParse (itemsText items) =
      (items.map fun item => item.2.1.token, true) := by
    induction items with
    | nil => rw [itemsText]; rfl
    | cons item items ih =>
        obtain ⟨before, value, after⟩ := item
        have follows := EndsPrimitive.separators after.isSeparator
          (.comma items itemsText_nil endsPrimitive_nil)
        rw [List.append_nil] at follows
        rw [itemsText, jsmnParse_separators before.isSeparator,
          value.jsmnParse_text follows,
          jsmnParse_separators after.isSeparator,
          jsmnParse_separators (comma_isSeparator items), ih]
        rfl
  cases items with
  | nil =>
      have spaces := @jsmnParse_separators [] inner.bytes inner.isSeparator
      rw [List.append_nil] at spaces
      exact spaces
  | cons item items => exact items_tokens

/-- The tokens of the members of an object: keys and values. -/
def memberTokens (members : JsonMembers) : List JsmnToken :=
  members.flatMap fun (key, _, value, _) =>
    [⟨.string, key.name.raw⟩, value.token]

theorem jsmnParse_objectText (inner : JsonSpace) (members : JsonMembers) :
    jsmnParse (objectText inner members) = (memberTokens members, true) := by
  have members_tokens :
      jsmnParse (membersText members) = (memberTokens members, true) := by
    induction members with
    | nil => rw [membersText]; rfl
    | cons member members ih =>
        obtain ⟨key, before, value, after⟩ := member
        have colon : isJsonSeparator 58 = true := by decide
        have follows := EndsPrimitive.separators after.isSeparator
          (.comma members membersText_nil endsPrimitive_nil)
        rw [List.append_nil] at follows
        simp only [membersText, JsonKey.text, List.append_assoc,
          List.cons_append]
        rw [jsmnParse_separators key.before.isSeparator,
          jsmnParse_string key.name.isText,
          jsmnParse_separators key.after.isSeparator,
          jsmnParse_separator colon,
          jsmnParse_separators before.isSeparator,
          value.jsmnParse_text follows,
          jsmnParse_separators after.isSeparator,
          jsmnParse_separators (comma_isSeparator members), ih]
        rfl
  cases members with
  | nil =>
      have spaces := @jsmnParse_separators [] inner.bytes inner.isSeparator
      rw [List.append_nil] at spaces
      exact spaces
  | cons member members => exact members_tokens

end IotivityLite
