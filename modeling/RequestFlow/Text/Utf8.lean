/-!
# Characters from bytes

Reading UTF-8.  A run of bytes that begins a character but does not complete it
stands for one missing character.  `decodeLossy` writes U+FFFD for each missing
character, `decode?` refuses a text that has one.
-/

namespace RequestFlow.Text

/-- The number of bytes of a text. -/
def byteCount (text : List Char) : Nat :=
  text.foldl (fun count character => count + character.utf8Size) 0

namespace Utf8

/-- The bytes that may follow a leading byte, as a lowest and a highest value for
the first of them and the number of further ones. -/
structure Lead where
  /-- Bits that the leading byte gives to the character. -/
  bits : Nat
  /-- Lowest value of the second byte. -/
  lowest : Nat
  /-- Highest value of the second byte. -/
  highest : Nat
  /-- Bytes after the second one. -/
  further : Nat

/-- What a leading byte of a character of several bytes asks of the bytes after
it. -/
def lead? (byte : Nat) : Option Lead :=
  if 0xC2 ≤ byte && byte ≤ 0xDF then some ⟨byte - 0xC0, 0x80, 0xBF, 0⟩
  else if byte == 0xE0 then some ⟨0, 0xA0, 0xBF, 1⟩
  else if byte == 0xED then some ⟨0xD, 0x80, 0x9F, 1⟩
  else if 0xE1 ≤ byte && byte ≤ 0xEF then some ⟨byte - 0xE0, 0x80, 0xBF, 1⟩
  else if byte == 0xF0 then some ⟨0, 0x90, 0xBF, 2⟩
  else if 0xF1 ≤ byte && byte ≤ 0xF3 then some ⟨byte - 0xF0, 0x80, 0xBF, 2⟩
  else if byte == 0xF4 then some ⟨4, 0x80, 0x8F, 2⟩
  else none

/-- Reads `count` continuation bytes into `code`, as far as there are such
bytes. -/
def continuation : Nat → Nat → List UInt8 → Option Nat × List UInt8
  | 0, code, bytes => (some code, bytes)
  | _ + 1, _, [] => (none, [])
  | count + 1, code, byte :: bytes =>
      let value := byte.toNat
      if 0x80 ≤ value && value ≤ 0xBF then
        continuation count (code * 64 + (value - 0x80)) bytes
      else (none, byte :: bytes)

/-- Reads the rest of a character after its leading byte. -/
def afterLead (lead : Lead) : List UInt8 → Option Nat × List UInt8
  | [] => (none, [])
  | byte :: bytes =>
      let value := byte.toNat
      if lead.lowest ≤ value && value ≤ lead.highest then
        continuation lead.further (lead.bits * 64 + (value - 0x80)) bytes
      else (none, byte :: bytes)

theorem continuation_length_le (count code : Nat) (bytes : List UInt8) :
    (continuation count code bytes).2.length ≤ bytes.length := by
  induction count generalizing code bytes with
  | zero => simp [continuation]
  | succ count hypothesis =>
      cases bytes with
      | nil => simp [continuation]
      | cons byte bytes =>
          simp only [continuation]
          split
          · exact Nat.le_succ_of_le (hypothesis _ _)
          · simp

theorem afterLead_length_le (lead : Lead) (bytes : List UInt8) :
    (afterLead lead bytes).2.length ≤ bytes.length := by
  cases bytes with
  | nil => simp [afterLead]
  | cons byte bytes =>
      simp only [afterLead]
      split
      · exact Nat.le_succ_of_le (continuation_length_le _ _ _)
      · simp

/-- The characters that the bytes stand for, `none` where one is missing. -/
def characters : List UInt8 → List (Option Char)
  | [] => []
  | byte :: bytes =>
      if byte.toNat < 0x80 then some (Char.ofNat byte.toNat) :: characters bytes
      else
        match lead? byte.toNat with
        | none => none :: characters bytes
        | some lead =>
            (afterLead lead bytes).1.map Char.ofNat ::
              characters (afterLead lead bytes).2
termination_by bytes => bytes.length
decreasing_by
  · simp
  · simp
  · exact Nat.lt_succ_of_le (afterLead_length_le _ _)

/-- The text of the bytes, with U+FFFD for every missing character. -/
def decodeLossy (bytes : List UInt8) : String :=
  String.ofList ((characters bytes).map fun character => character.getD '\uFFFD')

/-- The text of the bytes, if no character is missing. -/
def decode? (bytes : List UInt8) : Option String :=
  ((characters bytes).mapM id).map String.ofList

/-- The bytes of a text. -/
def encode (text : String) : List UInt8 :=
  text.toUTF8.toList

end Utf8

end RequestFlow.Text
