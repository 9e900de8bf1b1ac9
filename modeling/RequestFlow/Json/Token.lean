import RequestFlow.Json.Syntax
import RequestFlow.Text.Digits
import RequestFlow.Text.Utf8

/-!
# Tokens of data texts

A data text is a sequence of marks (`[`, `]`, `{`, `}`, `,` and `:`) and leaves,
with blanks between them.  Every token knows the text from its first character on,
so that a fault can be located.  The first leaf that is not well formed is a token
of its own, and the last one.
-/

namespace RequestFlow.Json

/-- What can be wrong with a data text. -/
inductive Fault where
  | expectedValue
  | expectedWord
  | endInValue
  | endInList
  | endInObject
  | endInText
  | trailingCharacters
  | trailingComma
  | invalidNumber
  | numberOutOfRange
  | nameNotText
  | expectedColon
  | expectedListEnd
  | expectedObjectEnd
  | invalidEscape
  | endInEscape
  | loneSurrogate
  | controlCharacter
  | tooDeep
  deriving DecidableEq

/-- The wording of a fault. -/
def Fault.message : Fault → String
  | expectedValue => "expected value"
  | expectedWord => "expected ident"
  | endInValue => "EOF while parsing a value"
  | endInList => "EOF while parsing a list"
  | endInObject => "EOF while parsing an object"
  | endInText => "EOF while parsing a string"
  | trailingCharacters => "trailing characters"
  | trailingComma => "trailing comma"
  | invalidNumber => "invalid number"
  | numberOutOfRange => "number out of range"
  | nameNotText => "key must be a string"
  | expectedColon => "expected `:`"
  | expectedListEnd => "expected `,` or `]`"
  | expectedObjectEnd => "expected `,` or `\x7d`"
  | invalidEscape => "invalid escape"
  | endInEscape => "unexpected end of hex escape"
  | loneSurrogate => "lone leading surrogate in hex escape"
  | controlCharacter =>
      "control character (\\u0000-\\u001F) found while parsing a string"
  | tooDeep => "recursion limit exceeded"

/-- A fault and its place: so many bytes into the rest of the text. -/
structure Failure where
  fault : Fault
  /-- The text from the place on. -/
  rest : List Char
  /-- Bytes of the rest that were read before the fault was seen. -/
  ahead : Nat
  deriving DecidableEq

/-- The line and the column, in bytes, after so many bytes of a text. -/
def placeAfter : Nat → Nat × Nat → List Char → Nat × Nat
  | 0, place, _ => place
  | _ + 1, place, [] => place
  | bytes + 1, (line, column), character :: text =>
      if character = '\n' then placeAfter bytes (line + 1, 0) text
      else if character.utf8Size ≤ bytes + 1 then
        placeAfter (bytes + 1 - character.utf8Size)
          (line, column + character.utf8Size) text
      else (line, column + bytes + 1)
termination_by _ _ text => text.length

/-- The line and the column of a failure in the text in which it occurred. -/
def Failure.place (failure : Failure) (text : List Char) : Nat × Nat :=
  placeAfter (Text.byteCount text - Text.byteCount failure.rest + failure.ahead)
    (1, 0) text

/-- The wording of a failure in the text in which it occurred. -/
def Failure.message (failure : Failure) (text : List Char) : String :=
  let place := failure.place text
  s!"{failure.fault.message} at line {place.1} column {place.2}"

/-- How strictly leaves are read. -/
inductive Strictness where
  /-- A leaf that stands for no value is a fault. -/
  | strict
  /-- A leaf that stands for no value is absent. -/
  | lenient
  deriving DecidableEq

/-- The four hexadecimal digits of an escape. -/
def scanHex (text : List Char) : Except Failure (Nat × List Char) :=
  let digits := text.take 4
  match digits.mapM (Text.digit? 16) with
  | some [first, second, third, fourth] =>
      .ok (((first * 16 + second) * 16 + third) * 16 + fourth, text.drop 4)
  | _ =>
      if 4 ≤ Text.byteCount digits then .error ⟨.invalidEscape, text, 4⟩
      else .error ⟨.endInText, [], 0⟩

/-- The first half of a surrogate pair. -/
def isLeading (code : Nat) : Bool :=
  0xD800 ≤ code && code ≤ 0xDBFF

/-- The second half of a surrogate pair. -/
def isTrailing (code : Nat) : Bool :=
  0xDC00 ≤ code && code ≤ 0xDFFF

/-- The code of a surrogate pair. -/
def pairCode (leading trailing : Nat) : Nat :=
  (leading - 0xD800) * 0x400 + (trailing - 0xDC00) + 0x10000

/-- The code that a one-letter escape stands for. -/
def escapeCode? : Char → Option Nat
  | '"' => some 0x22
  | '\\' => some 0x5C
  | '/' => some 0x2F
  | 'b' => some 0x08
  | 'f' => some 0x0C
  | 'n' => some 0x0A
  | 'r' => some 0x0D
  | 't' => some 0x09
  | _ => none

/-- The second half of a surrogate pair, which must follow at once. -/
def scanTrailing (leading : Nat) : List Char → Except Failure (Nat × List Char)
  | [] => .error ⟨.endInText, [], 0⟩
  | '\\' :: [] => .error ⟨.endInText, [], 0⟩
  | '\\' :: 'u' :: text =>
      match scanHex text with
      | .error failure => .error failure
      | .ok (trailing, rest) =>
          if isTrailing trailing then .ok (pairCode leading trailing, rest)
          else .error ⟨.loneSurrogate, rest, 0⟩
  | '\\' :: text => .error ⟨.endInEscape, text, 1⟩
  | text => .error ⟨.endInEscape, text, 1⟩

/-- What follows a backslash.  Strictly, surrogates are paired here. -/
def scanEscape (strictness : Strictness) :
    List Char → Except Failure (Nat × List Char)
  | [] => .error ⟨.endInText, [], 0⟩
  | 'u' :: text =>
      match scanHex text with
      | .error failure => .error failure
      | .ok (code, rest) =>
          if strictness = .lenient then .ok (code, rest)
          else if isTrailing code then .error ⟨.loneSurrogate, rest, 0⟩
          else if isLeading code then scanTrailing code rest
          else .ok (code, rest)
  | letter :: text =>
      match escapeCode? letter with
      | some code => .ok (code, text)
      | none => .error ⟨.invalidEscape, letter :: text, 1⟩

theorem scanHex_length_le {text rest : List Char} {code : Nat}
    (scanned : scanHex text = .ok (code, rest)) : rest.length ≤ text.length := by
  simp only [scanHex] at scanned
  split at scanned
  · simp only [Except.ok.injEq, Prod.mk.injEq] at scanned
    simp [← scanned.2]
  · split at scanned <;> simp at scanned

theorem scanTrailing_length_le {leading code : Nat} {text rest : List Char}
    (scanned : scanTrailing leading text = .ok (code, rest)) :
    rest.length ≤ text.length := by
  unfold scanTrailing at scanned
  split at scanned
  · simp at scanned
  · simp at scanned
  · next text =>
      split at scanned
      · simp at scanned
      · next trailing middle found =>
          have shorter := scanHex_length_le found
          split at scanned
          · simp only [Except.ok.injEq, Prod.mk.injEq] at scanned
            simp only [List.length_cons, ← scanned.2]
            omega
          · simp at scanned
  · simp at scanned
  · simp at scanned

theorem scanEscape_length_le {strictness : Strictness} {text rest : List Char}
    {code : Nat} (scanned : scanEscape strictness text = .ok (code, rest)) :
    rest.length ≤ text.length := by
  unfold scanEscape at scanned
  split at scanned
  · simp at scanned
  · next text =>
      split at scanned
      · simp at scanned
      · next unit middle found =>
          have shorter := scanHex_length_le found
          split at scanned
          · simp only [Except.ok.injEq, Prod.mk.injEq] at scanned
            simp only [List.length_cons, ← scanned.2]
            omega
          · split at scanned
            · simp at scanned
            · split at scanned
              · have further := scanTrailing_length_le scanned
                simp only [List.length_cons]
                omega
              · simp only [Except.ok.injEq, Prod.mk.injEq] at scanned
                simp only [List.length_cons, ← scanned.2]
                omega
  · split at scanned
    · simp only [Except.ok.injEq, Prod.mk.injEq] at scanned
      simp [← scanned.2]
    · simp at scanned

/-- The codes of a quoted text up to its closing quote. -/
def scanText (strictness : Strictness) :
    List Char → Except Failure (List Nat × List Char)
  | [] => .error ⟨.endInText, [], 0⟩
  | '"' :: text => .ok ([], text)
  | '\\' :: text =>
      match scanned : scanEscape strictness text with
      | .error failure => .error failure
      | .ok (code, rest) =>
          have : rest.length ≤ text.length := scanEscape_length_le scanned
          match scanText strictness rest with
          | .error failure => .error failure
          | .ok (codes, rest) => .ok (code :: codes, rest)
  | character :: text =>
      if character.toNat < 0x20 then
        .error ⟨.controlCharacter, character :: text, 1⟩
      else
        match scanText strictness text with
        | .error failure => .error failure
        | .ok (codes, rest) => .ok (character.toNat :: codes, rest)
termination_by text => text.length
decreasing_by
  · simp only [List.length_cons]
    omega
  · simp

/-- The characters of a list of codes, if every surrogate in it is half of a
pair. -/
def charactersOf? : List Nat → Option (List Char)
  | [] => some []
  | [code] =>
      if isLeading code || isTrailing code then none else some [Char.ofNat code]
  | code :: next :: codes =>
      if isLeading code then
        if isTrailing next then
          (charactersOf? codes).map (Char.ofNat (pairCode code next) :: ·)
        else none
      else if isTrailing code then none
      else (charactersOf? (next :: codes)).map (Char.ofNat code :: ·)

/-- Digits behind a point or in an exponent: at least one. -/
def scanDigits (text : List Char) (ahead : Nat) :
    Except Failure (List Char × List Char) :=
  let digits := text.takeWhile Char.isDigit
  let rest := text.dropWhile Char.isDigit
  if digits.isEmpty then
    match rest with
    | [] => .error ⟨.endInValue, [], 0⟩
    | _ :: _ => .error ⟨.invalidNumber, rest, ahead⟩
  else .ok (digits, rest)

/-- The whole part of a number: a lone zero or digits without a zero in front. -/
def scanWhole : List Char → Except Failure (List Char × List Char)
  | [] => .error ⟨.endInValue, [], 0⟩
  | '0' :: text =>
      if (text.head?.map Char.isDigit).getD false then
        .error ⟨.invalidNumber, text, 1⟩
      else .ok (['0'], text)
  | text => scanDigits text 1

/-- The fraction of a number, if there is one. -/
def scanFraction : List Char → Except Failure (Option (List Char) × List Char)
  | '.' :: text =>
      (scanDigits text 1).map fun scanned => (some scanned.1, scanned.2)
  | text => .ok (none, text)

/-- The digits of an exponent after its sign. -/
def scanSigned (text : List Char) :
    Except Failure (Option (Bool × List Char) × List Char) :=
  let negative := text.head? == some '-'
  let digits := if negative || text.head? == some '+' then text.drop 1 else text
  (scanDigits digits 1).map fun scanned => (some (negative, scanned.1), scanned.2)

/-- The exponent of a number, if there is one. -/
def scanExponent :
    List Char → Except Failure (Option (Bool × List Char) × List Char)
  | 'e' :: text => scanSigned text
  | 'E' :: text => scanSigned text
  | text => .ok (none, text)

/-- A number as it is written. -/
def scanNumeral (text : List Char) : Except Failure (Numeral × List Char) :=
  let negative := text.head? == some '-'
  match scanWhole (if negative then text.drop 1 else text) with
  | .error failure => .error failure
  | .ok (whole, text) =>
      match scanFraction text with
      | .error failure => .error failure
      | .ok (fraction, text) =>
          match scanExponent text with
          | .error failure => .error failure
          | .ok (exponent, text) =>
              .ok (⟨negative, whole, fraction, exponent⟩, text)

/-- Where a number beyond the range is noticed: at its end, or as soon as its
exponent does not fit into 31 bits. -/
def Numeral.noticed (numeral : Numeral) (rest : List Char) : List Char :=
  match numeral.exponent with
  | some (false, digits) => (accumulate (twoTo 31 - 1) 0 digits).2.drop 1 ++ rest
  | _ => rest

/-- A word that must follow letter by letter. -/
def scanWord : List Char → List Char → Except Failure (List Char)
  | [], text => .ok text
  | _ :: _, [] => .error ⟨.endInValue, [], 0⟩
  | letter :: word, character :: text =>
      if letter = character then scanWord word text
      else .error ⟨.expectedWord, character :: text, 1⟩

/-- A leaf and the text after it. -/
def scanLeaf (strictness : Strictness) (first : Char) (text : List Char) :
    Except Failure (Syntax × List Char) :=
  if first = '"' then
    (scanText strictness text).map fun scanned =>
      (.string ((charactersOf? scanned.1).map String.ofList), scanned.2)
  else if first = '-' || first.isDigit then
    match scanNumeral (first :: text) with
    | .error failure => .error failure
    | .ok (numeral, rest) =>
        match numeral.value? with
        | none =>
            if strictness = .strict then
              .error ⟨.numberOutOfRange, numeral.noticed rest, 0⟩
            else .ok (.number none, rest)
        | some value => .ok (.number (some value), rest)
  else if first = 'n' then
    (scanWord ['u', 'l', 'l'] text).map fun rest => (.null, rest)
  else if first = 't' then
    (scanWord ['r', 'u', 'e'] text).map fun rest => (.bool true, rest)
  else if first = 'f' then
    (scanWord ['a', 'l', 's', 'e'] text).map fun rest => (.bool false, rest)
  else .error ⟨.expectedValue, first :: text, 1⟩

/-- What a token is. -/
inductive Kind where
  /-- One of the six marks. -/
  | mark (symbol : Char)
  | leaf (value : Syntax)
  /-- A leaf that is not well formed. -/
  | broken (failure : Failure)

/-- A token and the text from its first character on. -/
structure Token where
  kind : Kind
  /-- The text from its first character on. -/
  rest : List Char

/-- The characters that may stand between tokens. -/
def isSpacing (character : Char) : Bool :=
  character == ' ' || character == '\n' || character == '\t' || character == '\r'

/-- The characters that are tokens by themselves. -/
def isMark (character : Char) : Bool :=
  character == '[' || character == ']' || character == '{' || character == '}' ||
    character == ',' || character == ':'

/-- The tokens of a text, with steps for one token each. -/
def tokensWithin (strictness : Strictness) : Nat → List Char → List Token
  | 0, _ => []
  | _ + 1, [] => []
  | steps + 1, character :: text =>
      if isSpacing character then tokensWithin strictness steps text
      else if isMark character then
        ⟨.mark character, character :: text⟩ :: tokensWithin strictness steps text
      else
        match scanLeaf strictness character text with
        | .error failure => [⟨.broken failure, character :: text⟩]
        | .ok (value, rest) =>
            ⟨.leaf value, character :: text⟩ :: tokensWithin strictness steps rest

/-- The tokens of a text. -/
def tokens (strictness : Strictness) (text : List Char) : List Token :=
  tokensWithin strictness text.length text

end RequestFlow.Json
