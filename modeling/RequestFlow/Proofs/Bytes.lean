import RequestFlow.Text.Utf8

/-!
# Texts as bytes

Main statement: what is read from the bytes of a text is the text again.
-/

namespace RequestFlow.Text.Utf8

/-! ## The bytes of a text -/

theorem toList_loop (bytes : ByteArray) (index : Nat) (done : List UInt8) :
    ByteArray.toList.loop bytes index done =
      done.reverse ++ bytes.data.toList.drop index := by
  fun_induction ByteArray.toList.loop bytes index done with
  | case1 index done inside hypothesis =>
      have bounded : index < bytes.data.size := inside
      have head : bytes.get! index = bytes.data.toList[index] :=
        getElem!_pos bytes.data index bounded
      rw [hypothesis, List.reverse_cons, List.append_assoc, head,
        List.singleton_append, List.getElem_cons_drop]
  | case2 index done outside =>
      rw [List.drop_eq_nil_of_le (Nat.le_of_not_lt outside), List.append_nil]

/-- The bytes of a text are those of its characters, one after the other. -/
theorem encode_eq (text : String) :
    encode text = text.toList.flatMap String.utf8EncodeChar := by
  rw [encode, ByteArray.toList, toList_loop, String.toUTF8,
    ← String.utf8Encode_toList, List.utf8Encode, List.toList_data_toByteArray]
  rfl

/-! ## The characters of bytes -/

/-- A first byte says that bytes follow, and what the character's code begins
with. -/
def Leads (first second bits further : Nat) : Prop :=
  ∃ lead, lead? first = some lead ∧ lead.bits = bits ∧ lead.further = further ∧
    lead.lowest ≤ second ∧ second ≤ lead.highest

variable {code : Nat}

/-- The part of a code that a byte after the first one tells. -/
def tailByte (part : Nat) : Nat := part % 64 + 128

theorem leads_two (low : 0x80 ≤ code) (high : code ≤ 0x7FF) :
    Leads (code / 64 % 32 + 192) (tailByte code) (code / 64) 0 := by
  rw [Leads, lead?, if_pos, tailByte]
  · refine ⟨_, rfl, ?_, rfl, ?_, ?_⟩ <;> dsimp only <;> omega
  · simp only [Bool.and_eq_true, decide_eq_true_eq]
    omega

theorem leads_three (low : 0x800 ≤ code) (high : code ≤ 0xFFFF)
    (paired : code < 0xD800 ∨ 0xDFFF < code) :
    Leads (code / 4096 % 16 + 224) (tailByte (code / 64)) (code / 4096) 1 := by
  rw [Leads, lead?, tailByte]
  simp only [Bool.and_eq_true, decide_eq_true_eq, beq_iff_eq]
  rw [if_neg (by omega)]
  -- 0xE0 and 0xED admit fewer second bytes than the others: what two bytes can
  -- tell and the surrogates are left out.
  split
  · refine ⟨_, rfl, ?_, rfl, ?_, ?_⟩ <;> dsimp only <;> omega
  · split
    · refine ⟨_, rfl, ?_, rfl, ?_, ?_⟩ <;> dsimp only <;> omega
    · rw [if_pos (by omega)]
      refine ⟨_, rfl, ?_, rfl, ?_, ?_⟩ <;> dsimp only <;> omega

theorem leads_four (low : 0x10000 ≤ code) (high : code ≤ 0x10FFFF) :
    Leads (code / 262144 % 8 + 240) (tailByte (code / 4096)) (code / 262144)
      2 := by
  rw [Leads, lead?, tailByte]
  simp only [Bool.and_eq_true, decide_eq_true_eq, beq_iff_eq]
  rw [if_neg (by omega), if_neg (by omega), if_neg (by omega), if_neg (by omega)]
  split
  · refine ⟨_, rfl, ?_, rfl, ?_, ?_⟩ <;> dsimp only <;> omega
  · split
    · refine ⟨_, rfl, ?_, rfl, ?_, ?_⟩ <;> dsimp only <;> omega
    · rw [if_pos (by omega)]
      refine ⟨_, rfl, ?_, rfl, ?_, ?_⟩ <;> dsimp only <;> omega

theorem tailByte_lt (part : Nat) : tailByte part < 256 := by
  rw [tailByte]
  omega

/-- A byte after the second one gives its part to the code. -/
theorem continuation_tailByte (count code part : Nat) (bytes : List UInt8) :
    continuation (count + 1) code (UInt8.ofNat (tailByte part) :: bytes) =
      continuation count (code * 64 + part % 64) bytes := by
  rw [continuation, UInt8.toNat_ofNat_of_lt' (tailByte_lt part)]
  rw [if_pos, tailByte, Nat.add_sub_cancel]
  rw [tailByte]
  simp only [Bool.and_eq_true, decide_eq_true_eq]
  omega

/-- A character of several bytes. -/
theorem characters_of_leads {first part bits further : Nat}
    {bytes rest : List UInt8} {value : Nat}
    (leads : Leads first (tailByte part) bits further) (large : 0x80 ≤ first)
    (small : first < 256)
    (rest_of :
      continuation further (bits * 64 + part % 64) bytes = (some value, rest)) :
    characters (UInt8.ofNat first :: UInt8.ofNat (tailByte part) :: bytes) =
      some (Char.ofNat value) :: characters rest := by
  rcases leads with ⟨lead, found, rfl, rfl, lowest, highest⟩
  have after :
      afterLead lead (UInt8.ofNat (tailByte part) :: bytes) =
        (some value, rest) := by
    rw [afterLead, UInt8.toNat_ofNat_of_lt' (tailByte_lt part)]
    rw [if_pos, tailByte, Nat.add_sub_cancel]
    · exact rest_of
    · simp only [Bool.and_eq_true, decide_eq_true_eq]
      exact ⟨lowest, highest⟩
  rw [characters, UInt8.toNat_ofNat_of_lt' small, if_neg (Nat.not_lt.mpr large),
    found]
  dsimp only
  rw [after]
  rfl

/-- The codes of characters are not those of halves of surrogate pairs. -/
theorem toNat_paired (character : Char) :
    character.toNat < 0xD800 ∨
      0xDFFF < character.toNat ∧ character.toNat ≤ 0x10FFFF := by
  rcases character.valid with low | ⟨high, bounded⟩
  · exact .inl low
  · exact .inr ⟨high, Nat.le_of_lt_succ bounded⟩

/-- The bytes of a character by its code. -/
theorem utf8EncodeChar_eq (character : Char) :
    String.utf8EncodeChar character =
      let code := character.toNat
      let byte (part : Nat) := UInt8.ofNat (tailByte part)
      if code ≤ 0x7F then [UInt8.ofNat code]
      else if code ≤ 0x7FF then [UInt8.ofNat (code / 64 % 32 + 192), byte code]
      else if code ≤ 0xFFFF then
        [UInt8.ofNat (code / 4096 % 16 + 224), byte (code / 64), byte code]
      else
        [UInt8.ofNat (code / 262144 % 8 + 240), byte (code / 4096),
          byte (code / 64), byte code] :=
  rfl

/-- A character is read from its bytes, whatever follows. -/
theorem characters_utf8EncodeChar (character : Char) (rest : List UInt8) :
    characters (String.utf8EncodeChar character ++ rest) =
      some character :: characters rest := by
  have paired := toNat_paired character
  have same : Char.ofNat character.toNat = character := Char.ofNat_toNat character
  rw [utf8EncodeChar_eq]
  generalize character.toNat = code at paired same ⊢
  subst same
  dsimp only
  split
  · have small : code < 256 := by omega
    rw [List.singleton_append, characters, UInt8.toNat_ofNat_of_lt' small,
      if_pos (by omega)]
  · split
    · apply characters_of_leads (leads_two (by omega) (by omega)) (by omega)
        (by omega)
      rw [continuation, Nat.div_add_mod']
      rfl
    · split
      · apply characters_of_leads (leads_three (by omega) (by omega) (by omega))
          (by omega) (by omega)
        rw [List.append_eq, List.cons_append, continuation_tailByte, continuation,
          List.nil_append]
        congr 2
        omega
      · apply characters_of_leads (leads_four (by omega) (by omega)) (by omega)
          (by omega)
        rw [List.append_eq, List.cons_append, List.cons_append,
          continuation_tailByte, continuation_tailByte, continuation,
          List.nil_append]
        congr 2
        omega

/-- What is read from the bytes of a text is the text. -/
theorem decode?_encode (text : String) : decode? (encode text) = some text := by
  have read (text : List Char) :
      characters (text.flatMap String.utf8EncodeChar) = text.map some := by
    induction text with
    | nil => rw [List.flatMap_nil, characters, List.map_nil]
    | cons character text hypothesis =>
        rw [List.flatMap_cons, characters_utf8EncodeChar, hypothesis,
          List.map_cons]
  have present (text : List Char) : (text.map some).mapM id = some text := by
    induction text with
    | nil => rfl
    | cons character text hypothesis =>
        rw [List.map_cons, List.mapM_cons, hypothesis]
        rfl
  rw [decode?, encode_eq, read, present, Option.map_some, String.ofList_toList]

end RequestFlow.Text.Utf8
