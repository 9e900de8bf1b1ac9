import RequestFlow.Json.Printer
import RequestFlow.Json.Reading
import RequestFlow.Proofs.Bytes

/-!
# Leaves that are read back

A written text, integer or word is read as the leaf that it was written from,
wherever a fence follows: the end of the text, a blank or a mark.  Main
statements: `readsLeaf_quote`, `readsLeaf_integer`, `readsLeaf_bool` and
`readsLeaf_null`.
-/

namespace RequestFlow.Json

variable {strictness : Strictness}

/-! ## Texts -/

/-- An ordinary character of a string stands for its own code. -/
theorem scanText_ordinary {character : Char} (plain : character ≠ '"')
    (straight : character ≠ '\\') (large : 0x20 ≤ character.toNat)
    (text : List Char) :
    scanText strictness (character :: text) =
      (scanText strictness text).map fun scanned =>
        (character.toNat :: scanned.1, scanned.2) := by
  rw [scanText, if_neg (Nat.not_lt.mpr large)]
  · cases scanText strictness text <;> rfl
  · exact plain
  · exact straight

/-- An escape stands for the code that is read from it. -/
theorem scanText_backslash {text rest : List Char} {code : Nat}
    (scanned : scanEscape strictness text = .ok (code, rest)) :
    scanText strictness ('\\' :: text) =
      (scanText strictness rest).map fun scanned =>
        (code :: scanned.1, scanned.2) := by
  rw [scanText]
  split
  · next failure failed => cases failed.symm.trans scanned
  · next other later found =>
      cases found.symm.trans scanned
      dsimp only
      cases scanText strictness rest <;> rfl

/-- Hexadecimal digits are read back. -/
theorem digit?_hexDigit :
    ∀ value < 16, Text.digit? 16 (hexDigit value) = some value := by
  decide

/-- The escape of a control character is read as its code. -/
theorem scanEscape_control {code : Nat} (control : code < 0x20)
    (text : List Char) :
    scanEscape strictness
        ('u' :: '0' :: '0' :: hexDigit (code / 16) :: hexDigit (code % 16) ::
          text) = .ok (code, text) := by
  have digits :
      ['0', '0', hexDigit (code / 16), hexDigit (code % 16)].mapM
          (Text.digit? 16) =
        some [0, 0, code / 16, code % 16] := by
    have zero : Text.digit? 16 '0' = some 0 := by decide
    simp only [List.mapM_cons, List.mapM_nil, zero,
      digit?_hexDigit _ (show code / 16 < 16 by omega),
      digit?_hexDigit _ (show code % 16 < 16 by omega)]
    rfl
  have scanned :
      scanHex
          ('0' :: '0' :: hexDigit (code / 16) :: hexDigit (code % 16) :: text) =
        .ok (code, text) := by
    rw [scanHex]
    simp only [List.take_succ_cons, List.take_zero, digits, List.drop_succ_cons,
      List.drop_zero]
    congr 2
    omega
  have neither : isTrailing code = false ∧ isLeading code = false := by
    simp only [isTrailing, isLeading, Bool.and_eq_false_iff,
      decide_eq_false_iff_not]
    omega
  rw [scanEscape, scanned]
  simp only [neither.1, neither.2]
  cases strictness <;> rfl

/-- An escaped character is read as its code. -/
theorem scanText_escape (character : Char) (text : List Char) :
    scanText strictness (escape character ++ text) =
      (scanText strictness text).map fun scanned =>
        (character.toNat :: scanned.1, scanned.2) := by
  rw [escape]
  iterate 7
    split
    · next same =>
        subst same
        exact scanText_backslash rfl
  split
  · next control => exact scanText_backslash (scanEscape_control control text)
  · next plain straight _ _ _ _ _ large =>
      exact scanText_ordinary plain straight (Nat.le_of_not_lt large) text

/-- An escaped text is scanned up to its closing quote, as the codes of its
characters; the induction is on the text. -/
theorem scanText_quoted (text : List Char) (rest : List Char) :
    scanText strictness (text.flatMap escape ++ '"' :: rest) =
      .ok (text.map Char.toNat, rest) := by
  induction text with
  | nil => rw [List.flatMap_nil, List.nil_append, scanText, List.map_nil]
  | cons character text hypothesis =>
      rw [List.flatMap_cons, List.append_assoc, scanText_escape, hypothesis]
      rfl

/-- The codes of characters stand for the characters. -/
theorem charactersOf?_toNat (text : List Char) :
    charactersOf? (text.map Char.toNat) = some text := by
  have neither (character : Char) :
      isLeading character.toNat = false ∧ isTrailing character.toNat = false := by
    have paired := Text.Utf8.toNat_paired character
    simp only [isLeading, isTrailing, Bool.and_eq_false_iff,
      decide_eq_false_iff_not]
    omega
  induction text with
  | nil => rfl
  | cons character text hypothesis =>
      cases text with
      | nil =>
          rw [List.map_cons, List.map_nil, charactersOf?, (neither character).1,
            (neither character).2, Char.ofNat_toNat]
          rfl
      | cons next text =>
          rw [List.map_cons, List.map_cons, charactersOf?, (neither character).1,
            (neither character).2, ← List.map_cons, hypothesis, Char.ofNat_toNat]
          rfl


/-! ## Digits -/

theorem digitValue_digitChar :
    ∀ digit < 10, digitValue (Nat.digitChar digit) = digit := by
  decide

theorem digitsValue_append (digits : List Char) (digit : Char) :
    digitsValue (digits ++ [digit]) =
      digitsValue digits * 10 + digitValue digit := by
  rw [digitsValue, List.foldl_append]
  rfl

/-- The decimal digits of a number have it as their value. -/
theorem digitsValue_toDigits (value : Nat) :
    digitsValue (Nat.toDigits 10 value) = value := by
  induction value using Nat.strongRecOn with
  | ind value hypothesis =>
      by_cases small : value < 10
      · rw [Nat.toDigits_of_lt_base small]
        exact (Nat.zero_add _).trans (digitValue_digitChar value small)
      · rw [Nat.toDigits_of_base_le (by decide) (by omega), digitsValue_append,
          hypothesis (value / 10) (by omega),
          digitValue_digitChar (value % 10) (by omega)]
        omega

/-- Digits are read as a whole if their value is within the bound. -/
theorem accumulate_append {bound : Nat} {digits : List Char} :
    ∀ {start : Nat},
      digits.foldl (fun value digit => value * 10 + digitValue digit) start ≤
          bound →
        accumulate bound start digits =
          (digits.foldl (fun value digit => value * 10 + digitValue digit) start,
            []) := by
  have grows (digits : List Char) (start : Nat) :
      start ≤
        digits.foldl (fun value digit => value * 10 + digitValue digit) start := by
    induction digits generalizing start with
    | nil => exact Nat.le_refl _
    | cons digit digits hypothesis =>
        rw [List.foldl_cons]
        exact Nat.le_trans (by omega) (hypothesis _)
  -- The value grows with every digit, so if it is within the bound in the end it
  -- was so all the time.
  induction digits with
  | nil => exact fun _ => rfl
  | cons digit digits hypothesis =>
      intro start within
      rw [List.foldl_cons] at within
      rw [accumulate, if_neg (Nat.not_lt.mpr (Nat.le_trans (grows _ _) within)),
        hypothesis within, List.foldl_cons]

/-- A text ends, or goes on with a character that cannot belong to a number. -/
def Fenced (text : List Char) : Prop :=
  ∀ character ∈ text.head?, (isSpacing character || isMark character) = true

theorem Fenced.cons {character : Char}
    (fence : (isSpacing character || isMark character) = true) (text : List Char) :
    Fenced (character :: text) := by
  intro other member
  rcases Option.some.inj member with rfl
  exact fence

/-- The characters that a number may go on with are no fences. -/
theorem Fenced.head_ne {text : List Char} (fenced : Fenced text) (character : Char)
    (numeric : (isSpacing character || isMark character) = false) :
    text.head? ≠ some character := by
  intro head
  cases numeric.symm.trans (fenced character head)

/-- A digit goes on with a number and ends none. -/
theorem not_fence_of_isDigit {character : Char}
    (digit : character.isDigit = true) :
    (isSpacing character || isMark character) = false := by
  simp only [isSpacing, isMark, Bool.or_eq_false_iff, beq_eq_false_iff_ne]
  refine
    ⟨⟨⟨⟨?_, ?_⟩, ?_⟩, ?_⟩, ⟨⟨⟨⟨?_, ?_⟩, ?_⟩, ?_⟩, ?_⟩, ?_⟩ <;> rintro rfl <;>
      cases digit

/-- In front of a fence exactly the digits are taken. -/
theorem Fenced.takeWhile_isDigit {digits rest : List Char}
    (all : ∀ digit ∈ digits, digit.isDigit = true) (fenced : Fenced rest) :
    (digits ++ rest).takeWhile Char.isDigit = digits ∧
      (digits ++ rest).dropWhile Char.isDigit = rest := by
  have stops :
      rest.takeWhile Char.isDigit = [] ∧ rest.dropWhile Char.isDigit = rest := by
    cases rest with
    | nil => exact ⟨rfl, rfl⟩
    | cons character rest =>
        have other : ¬ character.isDigit = true := fun digit =>
          fenced.head_ne _ (not_fence_of_isDigit digit) rfl
        rw [List.takeWhile_cons_of_neg other, List.dropWhile_cons_of_neg other]
        exact ⟨rfl, rfl⟩
  rw [List.takeWhile_append_of_pos all, List.dropWhile_append_of_pos all, stops.1,
    stops.2, List.append_nil]
  exact ⟨rfl, rfl⟩

/-- Digits without a needless zero in front. -/
theorem toDigits_cases (value : Nat) :
    Nat.toDigits 10 value = ['0'] ∨
      ∃ digit digits, Nat.toDigits 10 value = digit :: digits ∧ digit ≠ '0' := by
  induction value using Nat.strongRecOn with
  | ind value hypothesis =>
      by_cases small : value < 10
      · rw [Nat.toDigits_of_lt_base small]
        by_cases zero : value = 0
        · exact .inl (zero ▸ rfl)
        · refine .inr ⟨_, _, rfl, ?_⟩
          intro same
          have read := digitValue_digitChar value small
          rw [same] at read
          exact zero read.symm
      · rw [Nat.toDigits_of_base_le (by decide) (by omega)]
        rcases hypothesis (value / 10) (by omega) with
          zero | ⟨digit, digits, equal, nonzero⟩
        · have read := digitsValue_toDigits (value / 10)
          rw [zero] at read
          change 0 = _ at read
          omega
        · exact .inr ⟨digit, digits ++ [_], by rw [equal]; rfl, nonzero⟩

/-- The digits of a number are scanned as a whole, and neither a fraction nor an
exponent behind them. -/
theorem scanWhole_toDigits (value : Nat) {rest : List Char}
    (fenced : Fenced rest) :
    scanWhole (Nat.toDigits 10 value ++ rest) =
      .ok (Nat.toDigits 10 value, rest) := by
  rcases toDigits_cases value with zero | ⟨digit, digits, equal, nonzero⟩
  · have other : (rest.head?.map Char.isDigit).getD false = false := by
      cases rest with
      | nil => rfl
      | cons character rest =>
          apply Bool.eq_false_iff.mpr
          intro digit
          exact fenced.head_ne _ (not_fence_of_isDigit digit) rfl
    rw [zero, List.singleton_append, scanWhole, other]
    rfl
  · have numeric : ∀ digit ∈ Nat.toDigits 10 value, digit.isDigit = true :=
      fun _ => Nat.isDigit_of_mem_toDigits (by decide) (by decide)
    rcases Fenced.takeWhile_isDigit numeric fenced with ⟨taken, left⟩
    rw [equal] at taken left ⊢
    rw [List.cons_append] at taken left ⊢
    rw [scanWhole, scanDigits, taken, left]
    · rfl
    · exact nofun
    · rintro text ⟨⟩
      exact nonzero rfl

theorem scanFraction_of_fenced {rest : List Char} (fenced : Fenced rest) :
    scanFraction rest = .ok (none, rest) := by
  rw [scanFraction]
  rintro text rfl
  exact fenced.head_ne '.' (by decide) rfl

theorem scanExponent_of_fenced {rest : List Char} (fenced : Fenced rest) :
    scanExponent rest = .ok (none, rest) := by
  rw [scanExponent]
  · rintro text rfl
    exact fenced.head_ne 'e' (by decide) rfl
  · rintro text rfl
    exact fenced.head_ne 'E' (by decide) rfl

/-- The digits of a number, with a minus sign or without, are read as a numeral. -/
theorem scanNumeral_toDigits (value : Nat) {rest : List Char}
    (fenced : Fenced rest) :
    scanNumeral (Nat.toDigits 10 value ++ rest) =
        .ok (⟨false, Nat.toDigits 10 value, none, none⟩, rest) ∧
      scanNumeral ('-' :: (Nat.toDigits 10 value ++ rest)) =
        .ok (⟨true, Nat.toDigits 10 value, none, none⟩, rest) := by
  have unsigned : ((Nat.toDigits 10 value ++ rest).head? == some '-') = false := by
    cases digits : Nat.toDigits 10 value with
    | nil => exact (Nat.toDigits_ne_nil digits).elim
    | cons digit others =>
        apply beq_eq_false_iff_ne.mpr
        intro same
        rcases Option.some.inj same with rfl
        have numeric : '-'.isDigit = true :=
          Nat.isDigit_of_mem_toDigits (by decide) (by decide)
            (digits ▸ List.mem_cons_self)
        cases numeric
  constructor
  · rw [scanNumeral]
    simp only [unsigned, Bool.false_eq_true, if_false,
      scanWhole_toDigits value fenced, scanFraction_of_fenced fenced,
      scanExponent_of_fenced fenced]
  · rw [scanNumeral]
    simp only [List.head?_cons, beq_self_eq_true, if_true, List.drop_succ_cons,
      List.drop_zero, scanWhole_toDigits value fenced,
      scanFraction_of_fenced fenced, scanExponent_of_fenced fenced]

/-- An integer is within the signed or unsigned 64-bit range. -/
def Number.InRange (value : Int) : Prop :=
  -(twoTo 63 : Int) ≤ value ∧ value < twoTo 64

/-- A numeral of digits alone is an integer if it is within range. -/
theorem Numeral.value?_toDigits {value : Nat} :
    (value < twoTo 64 →
        Numeral.value? ⟨false, Nat.toDigits 10 value, none, none⟩ =
          some (.integer value)) ∧
      (0 < value → value ≤ twoTo 63 →
        Numeral.value? ⟨true, Nat.toDigits 10 value, none, none⟩ =
          some (.integer (-(value : Int)))) := by
  have whole (within : value ≤ significandBound) :
      accumulate significandBound 0 (Nat.toDigits 10 value) = (value, []) := by
    have read := digitsValue_toDigits value
    rw [digitsValue] at read
    rw [accumulate_append (by rw [read]; exact within), read]
  constructor
  · intro small
    rw [Numeral.value?, whole (Nat.le_sub_one_of_lt small)]
    rfl
  · intro positive small
    rw [Numeral.value?, whole (Nat.le_trans small (by decide))]
    simp [positive, small]

/-! ## Leaves -/

/-- A text is read as a leaf if a fence follows. -/
def ReadsLeaf (strictness : Strictness) (text : List Char) (leaf : Syntax) :
    Prop :=
  ∃ first more, text = first :: more ∧ (isSpacing first || isMark first) = false ∧
    ∀ rest,
      Fenced rest → scanLeaf strictness first (more ++ rest) = .ok (leaf, rest)

/-- Each leaf is read back from its text in front of a fence; one lemma for each
kind of leaf. -/
theorem readsLeaf_quote (text : String) :
    ReadsLeaf strictness (quote text) (.string (some text)) := by
  refine ⟨'"', text.toList.flatMap escape ++ ['"'], rfl, rfl, ?_⟩
  intro rest _
  rw [List.append_assoc, List.singleton_append, scanLeaf, if_pos rfl,
    scanText_quoted, Except.map, charactersOf?_toNat, Option.map_some,
    String.ofList_toList]

theorem readsLeaf_null : ReadsLeaf strictness ['n', 'u', 'l', 'l'] .null :=
  ⟨'n', ['u', 'l', 'l'], rfl, rfl, fun _ _ => rfl⟩

theorem readsLeaf_bool (value : Bool) :
    ReadsLeaf strictness
      (if value then ['t', 'r', 'u', 'e'] else ['f', 'a', 'l', 's', 'e'])
      (.bool value) := by
  cases value with
  | false => exact ⟨'f', ['a', 'l', 's', 'e'], rfl, rfl, fun _ _ => rfl⟩
  | true => exact ⟨'t', ['r', 'u', 'e'], rfl, rfl, fun _ _ => rfl⟩

/-- A numeral that has a value is read as a leaf. -/
theorem readsLeaf_of_scanNumeral {first : Char} {more : List Char}
    {numeral : Numeral} {number : Number}
    (numeric : first = '-' ∨ first.isDigit = true)
    (scanned : ∀ rest,
        Fenced rest → scanNumeral (first :: (more ++ rest)) = .ok (numeral, rest))
    (valued : numeral.value? = some number) :
    ReadsLeaf strictness (first :: more) (.number (some number)) := by
  have plain : (isSpacing first || isMark first) = false := by
    rcases numeric with rfl | digit
    · rfl
    · exact not_fence_of_isDigit digit
  have unquoted : first ≠ '"' := by
    rintro rfl
    rcases numeric with same | digit
    · cases same
    · cases digit
  refine ⟨first, more, rfl, plain, ?_⟩
  intro rest fenced
  rw [scanLeaf, if_neg unquoted, if_pos (by simpa using numeric),
    scanned rest fenced]
  dsimp only
  rw [valued]

theorem readsLeaf_integer {value : Int} (within : Number.InRange value) :
    ReadsLeaf strictness (Number.integer value).text.toList
      (.number (some (.integer value))) := by
  cases value with
  | ofNat value =>
      have digits :
          (Number.integer (Int.ofNat value)).text.toList = Nat.toDigits 10 value :=
        String.toList_ofList
      have small : value < twoTo 64 := Int.ofNat_lt.mp within.2
      have scanned {rest : List Char} (fenced : Fenced rest) :=
        (scanNumeral_toDigits value fenced).1
      rw [digits]
      cases equal : Nat.toDigits 10 value with
      | nil => exact (Nat.toDigits_ne_nil equal).elim
      | cons digit others =>
          have numeric : digit.isDigit = true :=
            Nat.isDigit_of_mem_toDigits (by decide) (by decide)
              (equal ▸ List.mem_cons_self)
          apply readsLeaf_of_scanNumeral (.inr numeric)
          · intro rest fenced
            rw [← List.cons_append, ← equal]
            exact scanned fenced
          · exact Numeral.value?_toDigits.1 small
  | negSucc value =>
      have digits : (Number.integer (Int.negSucc value)).text.toList =
          '-' :: Nat.toDigits 10 (value + 1) := by
        change ("-" ++ String.ofList (Nat.toDigits 10 (value + 1))).toList = _
        rw [String.toList_append]
        exact congrArg ('-' :: ·) String.toList_ofList
      have small : value + 1 ≤ twoTo 63 := by
        have least := within.1
        omega
      rw [digits]
      apply readsLeaf_of_scanNumeral (.inl rfl)
      · intro rest fenced
        exact (scanNumeral_toDigits (value + 1) fenced).2
      · exact Numeral.value?_toDigits.2 (Nat.succ_pos _) small

end RequestFlow.Json
