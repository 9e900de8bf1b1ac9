import RequestFlow.History.Store
import RequestFlow.Proofs.Rereading

/-!
# Records that are read back

A record that a file can hold is written as a tree, and the tree is read as the
record.  Main statement: the file of a log is read as the log.
-/

namespace RequestFlow.History

open RequestFlow.Json

/-- An entry whose duration is a number of 64 bits. -/
def Entry.Sound (entry : Entry) : Prop :=
  entry.duration < Text.naturalBound

instance : DecidablePred Entry.Sound :=
  fun entry => Nat.decLt entry.duration _

/-- A moment that can be read. -/
def IsMoment (seconds : Int) : Prop :=
  earliest ≤ seconds ∧ seconds ≤ latest

instance : DecidablePred IsMoment :=
  fun _ => instDecidableAnd

/-- A record that a file can hold. -/
structure Record.Sound (record : Record) : Prop where
  entry : record.entry.Sound
  moment : IsMoment record.recordedAt

theorem Log.sound_redacted {entry : Entry} (sound : entry.Sound) :
    (redacted entry).Sound :=
  sound

/-! ## Parts of a record -/

/-- Naturals within their bound are read back, and nothing else is read as one. -/
theorem natural?_ofInt {value : Nat} (small : value < Text.naturalBound) :
    (Syntax.ofInt value).natural? = some value := by
  have within :
      (0 ≤ (value : Int) && (value : Int) < Text.naturalBound) = true := by
    simp only [Bool.and_eq_true, decide_eq_true_eq]
    omega
  rw [Syntax.natural?, Syntax.ofInt, Syntax.integer?, Option.bind_some, within]
  rfl

theorem lt_of_natural? {tree : Syntax} {value : Nat}
    (read : tree.natural? = some value) : value < Text.naturalBound := by
  rcases Option.bind_eq_some_iff.mp read with ⟨integer, _, bounded⟩
  split at bounded
  · next within =>
      rw [Bool.and_eq_true, decide_eq_true_eq, decide_eq_true_eq] at within
      cases bounded
      omega
  · cases bounded

/-- Seconds are read back if they are those of a moment. -/
theorem moment?_ofInt {seconds : Int} (moment : IsMoment seconds) :
    moment? (Syntax.ofInt seconds) = some seconds := by
  rw [moment?, Syntax.ofInt, Syntax.integer?, Option.filter_some, if_pos]
  simp only [Bool.and_eq_true, decide_eq_true_eq]
  exact moment

theorem isMoment_of_moment? {tree : Syntax} {seconds : Int}
    (read : moment? tree = some seconds) : IsMoment seconds := by
  have within := (Option.filter_eq_some_iff.mp read).2
  rw [Bool.and_eq_true, decide_eq_true_eq, decide_eq_true_eq] at within
  exact within

/-- Parts that are read back one by one are read back as a list. -/
theorem mapM_map_eq {Part Written : Type} {write : Part → Written}
    {read : Written → Option Part} {parts : List Part}
    (reads : ∀ part ∈ parts, read (write part) = some part) :
    (parts.map write).mapM read = some parts := by
  induction parts with
  | nil => rfl
  | cons part parts hypothesis =>
      rw [List.map_cons, List.mapM_cons, reads part List.mem_cons_self,
        hypothesis fun other member => reads other (List.mem_cons_of_mem _ member)]
      rfl

/-- What is read as a list was read one by one. -/
theorem forall_of_mapM {Part Written : Type} {read : Written → Option Part}
    {valid : Part → Prop}
    (sound : ∀ written part, read written = some part → valid part)
    {written : List Written} {parts : List Part}
    (reads : written.mapM read = some parts) : ∀ part ∈ parts, valid part := by
  induction written generalizing parts with
  | nil =>
      cases reads
      exact fun _ member => (List.not_mem_nil member).elim
  | cons first others hypothesis =>
      rw [List.mapM_cons] at reads
      rcases Option.bind_eq_some_iff.mp reads with ⟨part, readsFirst, reads⟩
      rcases Option.bind_eq_some_iff.mp reads with ⟨later, readsLater, equal⟩
      cases equal
      intro other member
      rcases List.mem_cons.mp member with rfl | member
      · exact sound first other readsFirst
      · exact hypothesis readsLater other member

theorem optionalText?_ofOptionalText (text : Option String) :
    optionalText? (Syntax.ofOptionalText text) = some text := by
  cases text <;> rfl

/-- The fields of a record are read back under their names. -/
theorem fields?_ofPairs (fields : List (String × Syntax)) :
    (Syntax.ofPairs fields).fields? = some fields := by
  rw [Syntax.ofPairs, Syntax.fields?]
  exact mapM_map_eq fun field _ => rfl

/-! ## Records -/

theorem areFieldsSound_tree {fields : List (String × Syntax)}
    (names : fields.map Prod.fst = recordFields) :
    areFieldsSound fields = true := by
  rw [areFieldsSound, names, Bool.and_eq_true]
  constructor
  · decide
  · apply List.all_eq_true.mpr
    intro field member
    have known : field.1 ∈ recordFields := names ▸ List.mem_map_of_mem member
    rw [List.contains_iff_mem.mpr known]
    rfl

/-- A record is read from its parts. -/
theorem Record.read?_of_parts {tree : Syntax} {fields : List (String × Syntax)}
    {record : Record} (present : tree.fields? = some fields)
    (sound : areFieldsSound fields = true)
    (name : (fields.lookup "name").bind Syntax.text? = some record.entry.name)
    (summary :
      (fields.lookup "status_summary").bind Syntax.text? =
        some record.entry.summary)
    (duration :
      (fields.lookup "duration_ms").bind Syntax.natural? =
        some record.entry.duration)
    (definition :
      (fields.lookup "definition_text").bind Syntax.text? =
        some record.entry.definition)
    (tags :
      fieldOr fields "tags" []
          (fun tree => tree.items?.bind fun items => items.mapM Syntax.text?) =
        some record.entry.tags)
    (description :
      fieldOr fields "description" none optionalText? =
        some record.entry.description)
    (moment :
      (fields.lookup "recorded_at").bind moment? = some record.recordedAt) :
    Record.read? tree = some record := by
  rcases Option.bind_eq_some_iff.mp name with ⟨nameTree, nameField, nameText⟩
  rcases Option.bind_eq_some_iff.mp summary with
    ⟨summaryTree, summaryField, summaryText⟩
  rcases Option.bind_eq_some_iff.mp duration with
    ⟨durationTree, durationField, durationNumber⟩
  rcases Option.bind_eq_some_iff.mp definition with
    ⟨definitionTree, definitionField, definitionText⟩
  rcases Option.bind_eq_some_iff.mp moment with ⟨momentTree, momentField, seconds⟩
  rw [read?, present]
  simp only [Option.bind_eq_bind, Option.bind_some, sound, nameField, nameText,
    summaryField, summaryText, durationField, durationNumber, definitionField,
    definitionText, tags, description, momentField, seconds]
  rfl

/-- A record is read back from its tree. -/
theorem Record.read?_tree {record : Record} (sound : record.Sound) :
    Record.read? record.tree = some record := by
  have field {name : String} {fields : List (String × Syntax)} {tree : Syntax}
      {Part : Type} {read : Syntax → Option Part} {part : Part}
      (found : fields.lookup name = some tree) (reads : read tree = some part) :
      (fields.lookup name).bind read = some part := by
    rw [found]
    exact reads
  refine read?_of_parts (fields?_ofPairs _) (areFieldsSound_tree rfl) ?_ ?_ ?_ ?_
    ?_ ?_ ?_
  · exact field rfl rfl
  · exact field rfl rfl
  · exact field rfl (natural?_ofInt sound.entry)
  · exact field rfl rfl
  · have texts : (record.entry.tags.map Syntax.ofText).mapM Syntax.text? =
        some record.entry.tags :=
      mapM_map_eq fun tag _ => rfl
    exact texts
  · exact optionalText?_ofOptionalText record.entry.description
  · exact field rfl (moment?_ofInt sound.moment)

/-- What is read as a record is one that a file can hold. -/
theorem Record.sound_of_read? {tree : Syntax} {record : Record}
    (read : Record.read? tree = some record) : record.Sound := by
  rw [read?] at read
  rcases Option.bind_eq_some_iff.mp read with ⟨fields, present, read⟩
  split at read
  · cases read
  · simp only [Option.bind_eq_bind, Option.bind_eq_some_iff] at read
    rcases read with
      ⟨_, _, _, _, _, _, _, _, _, _, duration, natural, _, _, _, _, _, _, _, _, _,
        _, seconds, moment, equal⟩
    cases equal
    constructor
    · exact lt_of_natural? natural
    · exact isMoment_of_moment? moment

/-! ## The file -/

theorem readable_ofPairs {depth : Nat} {fields : List (String × Syntax)}
    (each : ∀ field ∈ fields, field.2.Readable depth) :
    (Syntax.ofPairs fields).Readable (depth + 1) := by
  apply Syntax.Readable.object
  · intro field member
    rcases List.mem_map.mp member with ⟨pair, _, rfl⟩
    rfl
  · intro field member
    rcases List.mem_map.mp member with ⟨pair, among, rfl⟩
    exact each pair among

theorem readable_ofInt {depth : Nat} {value : Int}
    (within : Number.InRange value) : (Syntax.ofInt value).Readable depth :=
  .integer within

/-- A record is nested at most twice, which every reader allows. -/
theorem Record.readable_tree {record : Record} (sound : record.Sound) :
    record.tree.Readable 2 := by
  have duration : Number.InRange record.entry.duration := by
    have small := sound.entry
    rw [Entry.Sound, Text.naturalBound] at small
    constructor
    · omega
    · exact Int.ofNat_lt.mpr small
  have moment : Number.InRange record.recordedAt :=
    ⟨Int.le_trans (by decide) sound.moment.1,
      Int.lt_of_le_of_lt sound.moment.2 (by decide)⟩
  apply readable_ofPairs
  simp only [List.forall_mem_cons]
  refine ⟨.text _, .text _, readable_ofInt duration, .text _, ?_, ?_,
    readable_ofInt moment, nofun⟩
  · apply Syntax.Readable.array
    intro item member
    rcases List.mem_map.mp member with ⟨tag, _, rfl⟩
    exact .text tag
  · cases record.entry.description with
    | none => exact .null
    | some description => exact .text description

theorem entriesOf?_ofPairs (entries : Syntax) :
    entriesOf? (Syntax.ofPairs [("entries", entries)]) = some entries := by
  rw [entriesOf?, fields?_ofPairs]
  · rfl
  · rintro tree ⟨⟩
  · rintro items ⟨⟩

/-- The file of a log is read as the log. -/
theorem Log.read?_text {log : Log} (sound : ∀ record ∈ log.records, record.Sound) :
    Log.read? log.text.toList = some log := by
  have readable :
      (Syntax.ofPairs [("entries", treeOfRecords log.records)]).Readable 4 := by
    apply readable_ofPairs
    intro field member
    rcases List.mem_singleton.mp member with rfl
    apply Syntax.Readable.array
    intro tree member
    rcases List.mem_map.mp member with ⟨record, among, rfl⟩
    exact Record.readable_tree (sound record among)
  have records :
      (log.records.map Record.tree).mapM Record.read? = some log.records :=
    mapM_map_eq fun record among => Record.read?_tree (sound record among)
  rw [read?, text,
    Syntax.read_pretty readable fun strict => Strictness.noConfusion strict]
  dsimp only
  rw [entriesOf?_ofPairs, Option.bind_some, treeOfRecords, Syntax.items?,
    Option.bind_some, records]
  rfl

/-- The bytes of a log's file hold the log. -/
theorem Store.logOf?_encode {log : Log}
    (sound : ∀ record ∈ log.records, record.Sound) :
    Store.logOf? (Text.Utf8.encode log.text) = some log := by
  rw [logOf?, Text.Utf8.decode?_encode, Option.map_some, Log.read?_text sound,
    Option.getD_some]

/-- The records that a file holds are sound. -/
theorem Store.sound_of_logOf? {content : List UInt8} {log : Log}
    (held : Store.logOf? content = some log) :
    ∀ record ∈ log.records, record.Sound := by
  rw [logOf?] at held
  rcases Option.map_eq_some_iff.mp held with ⟨text, decoded, rfl⟩
  cases read : Log.read? text.toList with
  | none => exact fun _ member => (List.not_mem_nil member).elim
  | some log =>
      rw [Option.getD_some]
      rw [Log.read?] at read
      split at read
      · cases read
      · rcases Option.map_eq_some_iff.mp read with ⟨records, found, rfl⟩
        rcases Option.bind_eq_some_iff.mp found with ⟨items, _, reads⟩
        exact forall_of_mapM (fun _ _ => Record.sound_of_read?) reads

end RequestFlow.History
