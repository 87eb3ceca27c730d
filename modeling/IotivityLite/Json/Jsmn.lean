import IotivityLite.Security.Rep

/-!
# The tokenizer jsmn

`jsmn.c` as it is in the repository.  A text is split into the tokens of its
outermost level, and every token is handed to a callback; the text inside a
container is one token, which the callback may split again.  Separators are
skipped wherever they stand.
-/

namespace IotivityLite

inductive JsmnType where
  | object
  | array
  | string
  | primitive
  deriving DecidableEq

/-- A token with its text, without quotes or brackets around it. -/
structure JsmnToken where
  type : JsmnType
  text : Bytes
  deriving DecidableEq

/-- Tab, carriage return, line feed and blank. -/
def isJsonSpace (byte : UInt8) : Bool :=
  byte == 9 || byte == 13 || byte == 10 || byte == 32

/-- White space, colon and comma. -/
def isJsonSeparator (byte : UInt8) : Bool :=
  isJsonSpace byte || byte == 58 || byte == 44

/-- What ends a primitive. -/
def isPrimitiveEnd (byte : UInt8) : Bool :=
  isJsonSeparator byte || byte == 93 || byte == 125

/-- `isxdigit` -/
def isXdigit (byte : UInt8) : Bool :=
  (48 ≤ byte && byte ≤ 57) || (65 ≤ byte && byte ≤ 70) ||
    (97 ≤ byte && byte ≤ 102)

/-- What may follow a backslash, apart from the letter u. -/
def isJsonEscape (byte : UInt8) : Bool :=
  byte == 34 || byte == 47 || byte == 92 || byte == 98 || byte == 102 ||
    byte == 114 || byte == 110 || byte == 116

/-- Bytes in front of a text that was taken from the input. -/
def prepend {Rest : Type} (bytes : Bytes) :
    Option (Bytes × Rest) → Option (Bytes × Rest) :=
  Option.map fun (text, rest) => (bytes ++ text, rest)

/-- `jsmn_parse_string` behind the starting quote: the text in front of the
ending quote and what stands behind this. -/
def jsmnParseString : Bytes → Option (Bytes × Bytes)
  | [] => none
  | byte :: rest =>
      if byte = 0 then none
      else if byte = 34 then some ([], rest)
      else if byte = 92 then
        match rest with
        | [] => none
        | escaped :: rest =>
            if escaped = 117 then
              match rest with
              | first :: second :: third :: fourth :: rest =>
                  if [first, second, third, fourth].all isXdigit then
                    prepend [92, 117, first, second, third, fourth]
                      (jsmnParseString rest)
                  else none
              | _ => none
            else if isJsonEscape escaped then
              prepend [92, escaped] (jsmnParseString rest)
            else none
      else prepend [byte] (jsmnParseString rest)

/-- `jsmn_parse_primitive` -/
def jsmnParsePrimitive (text : Bytes) : Option (Bytes × Bytes) :=
  let token := text.takeWhile fun byte => !isPrimitiveEnd byte
  if token.all fun byte => 32 ≤ byte && byte < 127 then
    some (token, text.dropWhile fun byte => !isPrimitiveEnd byte)
  else none

/-- The loop of `jsmn_parse` inside a container, in which `depth` further ones
are open: the text in front of the closing bracket, whether this is a brace,
and what stands behind it. -/
def jsmnContainer : (fuel depth : Nat) → Bytes → Option (Bytes × Bool × Bytes)
  | 0, _, _ => none
  | _ + 1, _, [] => none
  | fuel + 1, depth, byte :: rest =>
      if byte = 0 then none
      else if byte = 123 ∨ byte = 91 then
        prepend [byte] (jsmnContainer fuel (depth + 1) rest)
      else if byte = 125 ∨ byte = 93 then
        match depth with
        | 0 => some ([], byte == 125, rest)
        | depth + 1 => prepend [byte] (jsmnContainer fuel depth rest)
      else if byte = 34 then
        match jsmnParseString rest with
        | none => none
        | some (text, rest) =>
            prepend (34 :: (text ++ [34])) (jsmnContainer fuel depth rest)
      else if isJsonSeparator byte then
        prepend [byte] (jsmnContainer fuel depth rest)
      else
        match jsmnParsePrimitive (byte :: rest) with
        | none => none
        | some (text, rest) => prepend text (jsmnContainer fuel depth rest)

/-- A token in front of others. -/
def consToken (token : JsmnToken) :
    List JsmnToken × Bool → List JsmnToken × Bool :=
  Prod.map (token :: ·) id

/-- The loop of `jsmn_parse`: the tokens up to the end or to an error, and
whether there was none. -/
def jsmnTokens : (fuel : Nat) → Bytes → List JsmnToken × Bool
  | 0, _ => ([], false)
  | _ + 1, [] => ([], true)
  | fuel + 1, byte :: rest =>
      if byte = 0 then ([], true)
      else if byte = 123 ∨ byte = 91 then
        match jsmnContainer (rest.length + 1) 0 rest with
        | none => ([], false)
        | some (text, brace, rest) =>
            if brace = (byte == 123) then
              consToken ⟨if byte = 123 then .object else .array, text⟩
                (jsmnTokens fuel rest)
            else ([], false)
      else if byte = 125 ∨ byte = 93 then ([], false)
      else if byte = 34 then
        match jsmnParseString rest with
        | none => ([], false)
        | some (text, rest) =>
            consToken ⟨.string, text⟩ (jsmnTokens fuel rest)
      else if isJsonSeparator byte then jsmnTokens fuel rest
      else
        match jsmnParsePrimitive (byte :: rest) with
        | none => ([], false)
        | some (text, rest) =>
            consToken ⟨.primitive, text⟩ (jsmnTokens fuel rest)

/-- `jsmn_parse` without a callback -/
def jsmnParse (text : Bytes) : List JsmnToken × Bool :=
  jsmnTokens (text.length + 1) text

/-- The callback is called with the tokens in turn, as long as it succeeds. -/
def runTokens {State : Type} (callback : JsmnToken → State → Bool × State) :
    List JsmnToken → State → Bool × State
  | [], state => (true, state)
  | token :: tokens, state =>
      match callback token state with
      | (false, state) => (false, state)
      | (true, state) => runTokens callback tokens state

end IotivityLite
