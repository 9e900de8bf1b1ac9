/-!
# Blank characters

The characters that separate words: the `White_Space` property of Unicode.  `trim`
removes them from both ends of a text.  The main statements say that trimming is
idempotent at each end and that a text without blank characters is left alone.
-/

namespace RequestFlow.Text

/-- A character carries the Unicode property `White_Space`. -/
def isBlank (character : Char) : Bool :=
  let code := character.toNat
  (9 ≤ code && code ≤ 13) || code == 32 || code == 0x85 || code == 0xA0 ||
    code == 0x1680 || (0x2000 ≤ code && code ≤ 0x200A) || code == 0x2028 ||
    code == 0x2029 || code == 0x202F || code == 0x205F || code == 0x3000

/-- The ASCII space, tab, line feed and carriage return are blank. -/
theorem isBlank_of_isWhitespace {character : Char}
    (whitespace : character.isWhitespace = true) : isBlank character = true := by
  simp only [Char.isWhitespace, Bool.or_eq_true, decide_eq_true_eq] at whitespace
  rcases whitespace with ((rfl | rfl) | rfl) | rfl <;> rfl

/-- Drops the blank characters at the front. -/
def trimStart (text : List Char) : List Char :=
  text.dropWhile isBlank

/-- Drops the blank characters at the end. -/
def trimEnd (text : List Char) : List Char :=
  (text.reverse.dropWhile isBlank).reverse

/-- Drops the blank characters at both ends. -/
def trim (text : List Char) : List Char :=
  trimEnd (trimStart text)

@[simp] theorem trimStart_nil : trimStart [] = [] := rfl

@[simp] theorem trimEnd_nil : trimEnd [] = [] := rfl

@[simp] theorem trim_nil : trim [] = [] := rfl

theorem trimStart_length_le (text : List Char) :
    (trimStart text).length ≤ text.length :=
  (List.dropWhile_sublist _).length_le

theorem trimEnd_length_le (text : List Char) :
    (trimEnd text).length ≤ text.length := by
  simpa [trimEnd]
    using (List.dropWhile_sublist (l := text.reverse) isBlank).length_le

theorem trim_length_le (text : List Char) : (trim text).length ≤ text.length :=
  Nat.le_trans (trimEnd_length_le _) (trimStart_length_le _)

/-- A text whose first character is not blank keeps its front. -/
theorem trimStart_cons_of_not_blank {character : Char} (rest : List Char)
    (visible : isBlank character = false) :
    trimStart (character :: rest) = character :: rest := by
  simp [trimStart, visible]

theorem trimEnd_prefix_self (text : List Char) : trimEnd text <+: text := by
  have suffix := List.dropWhile_suffix (l := text.reverse) isBlank
  rw [← List.reverse_prefix, List.reverse_reverse] at suffix
  exact suffix

theorem trim_sublist (text : List Char) : (trim text).Sublist text :=
  (trimEnd_prefix_self _).sublist.trans (List.dropWhile_sublist _)

/-- A text that begins as a trimmed one does has no blank characters at its
front. -/
theorem trimStart_of_prefix {text whole : List Char}
    (begins : text <+: trimStart whole) : trimStart text = text := by
  rcases begins with ⟨rest, equal⟩
  cases text with
  | nil => rfl
  | cons character others =>
      have visible := List.head?_dropWhile_not isBlank whole
      rw [← trimStart, ← equal] at visible
      exact trimStart_cons_of_not_blank others visible

/-- Trimming a trimmed text changes nothing. -/
theorem trim_trim (text : List Char) : trim (trim text) = trim text := by
  have front : trimStart (trim text) = trim text :=
    trimStart_of_prefix (trimEnd_prefix_self _)
  have back :
      trimStart (trimStart (trimStart text).reverse) =
        trimStart (trimStart text).reverse :=
    trimStart_of_prefix List.prefix_rfl
  rw [trim, front, trim, trimEnd, trimEnd, List.reverse_reverse]
  exact congrArg List.reverse back

/-- The text without the blank characters at its two ends. -/
def trimmed (text : String) : String :=
  String.ofList (trim text.toList)

/-- The text holds nothing but blank characters. -/
def isAllBlank (text : String) : Bool :=
  text.toList.all isBlank

end RequestFlow.Text
