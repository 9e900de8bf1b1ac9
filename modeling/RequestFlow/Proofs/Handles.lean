import RequestFlow.Proofs.Keeping

/-!
# Several stores of one file

Each store reads the file once, when it is opened, and later writes the whole file
from its own log. Main statement: as long as the limit is not reached, a store
that is opened in the end lists all that was kept exactly if no run was kept
through a store behind whose back another one had kept a run; if one was, the list
is shorter.
-/

namespace RequestFlow.History

/-- What is done with a file through several stores. -/
inductive Move where
  /-- One more store is opened. -/
  | enter
  /-- A run is kept through the store of an index. -/
  | append (index : Nat) (entry : Entry) (now : Int)

namespace Move

/-- The record of a run that is kept. -/
def kept? : Move → Option Record
  | enter => none
  | append _ entry now => some ⟨Log.redacted entry, now⟩

/-- Durations are numbers of 64 bits, and runs are kept at moments that can be
written. -/
def Sound : Move → Prop
  | enter => True
  | append _ entry now => entry.Sound ∧ IsMoment now

instance : DecidablePred Sound
  | enter => .isTrue trivial
  | append _ _ _ => instDecidableAnd

/-- Runs are kept through stores that are open, of which there are so many in the
beginning. -/
def Placed : Nat → List Move → Prop
  | _, [] => True
  | count, enter :: moves => Placed (count + 1) moves
  | count, append index _ _ :: moves => index < count ∧ Placed count moves

/-- No run is kept through a store behind whose back another one has kept a run.
A store is fresh from its opening on, or from the time when it kept a run itself,
until another one keeps a run. -/
def Serial : List Bool → List Move → Prop
  | _, [] => True
  | fresh, enter :: moves => Serial (fresh ++ [true]) moves
  | fresh, append index _ _ :: moves =>
      fresh[index]? = some true ∧
        Serial (fresh.mapIdx fun other _ => other == index) moves

instance decidePlaced :
    (count : Nat) → (moves : List Move) → Decidable (Placed count moves)
  | _, [] => .isTrue trivial
  | count, enter :: moves => decidePlaced (count + 1) moves
  | count, append _ _ _ :: moves =>
      have := decidePlaced count moves
      instDecidableAnd

instance decideSerial :
    (fresh : List Bool) → (moves : List Move) → Decidable (Serial fresh moves)
  | _, [] => .isTrue trivial
  | fresh, enter :: moves => decideSerial (fresh ++ [true]) moves
  | fresh, append index _ _ :: moves =>
      have := decideSerial (fresh.mapIdx fun other _ => other == index) moves
      instDecidableAnd

end Move

/-- A disk and the stores of one of its files, in the order in which they were
opened. -/
structure Shared where
  disk : Disk
  stores : List Store

namespace Shared

/-- The disk and the stores after a move; nothing where the store is not there or
the disk fails. -/
def move? (path : String) (limit : Nat) (shared : Shared) : Move → Option Shared
  | .enter =>
      (Store.load? shared.disk path limit).map fun store =>
        ⟨shared.disk, shared.stores ++ [store]⟩
  | .append index entry now =>
      shared.stores[index]?.bind fun store =>
        let appended := store.append shared.disk entry now
        if appended.fault = none then
          some ⟨appended.disk, shared.stores.set index appended.store⟩
        else none

/-- The disk and the stores after several moves. -/
def run? (path : String) (limit : Nat) (shared : Shared) (moves : List Move) :
    Option Shared :=
  moves.foldlM (move? path limit) shared

end Shared

/-! ## Plain lists -/

/-- What a file and the stores list. -/
structure Ledger where
  file : List Record
  held : List (List Record)

namespace Ledger

/-- What is listed after a move. -/
def move (limit : Nat) (ledger : Ledger) : Move → Ledger
  | .enter => ⟨ledger.file, ledger.held ++ [ledger.file]⟩
  | .append index entry now =>
      let records :=
        (⟨Log.redacted entry, now⟩ :: ledger.held[index]?.getD []).take limit
      ⟨records, ledger.held.set index records⟩

/-- What is listed after several moves. -/
def run (limit : Nat) (ledger : Ledger) (moves : List Move) : Ledger :=
  moves.foldl (move limit) ledger

theorem placed_move {ledger : Ledger} (limit : Nat) {move : Move}
    {moves : List Move} (placed : Move.Placed ledger.held.length (move :: moves)) :
    Move.Placed (ledger.move limit move).held.length moves := by
  cases move with
  | enter =>
      rw [Ledger.move, List.length_append]
      exact placed
  | append index entry now =>
      rw [Ledger.move, List.length_set]
      exact placed.2

/-- The store that is opened lists what the file does. -/
theorem forall_held_enter {ledger : Ledger} {valid : List Record → Prop}
    (file : valid ledger.file) (held : ∀ list ∈ ledger.held, valid list) :
    ∀ list ∈ ledger.held ++ [ledger.file], valid list := by
  intro list member
  rcases List.mem_append.mp member with member | member
  · exact held list member
  · rcases List.mem_singleton.mp member with rfl
    exact file

/-- Keeping a run changes what one store lists. -/
theorem forall_held_set {ledger : Ledger} {valid : List Record → Prop}
    {index : Nat} {records : List Record} (held : ∀ list ∈ ledger.held, valid list)
    (changed : valid records) :
    ∀ list ∈ ledger.held.set index records, valid list := by
  intro list member
  rcases List.mem_or_eq_of_mem_set member with member | rfl
  · exact held list member
  · exact changed

end Ledger

/-- The stores and the file list what the ledger says, and the disk takes the
file. -/
structure Shared.Shows (shared : Shared) (path : String) (limit : Nat)
    (ledger : Ledger) : Prop where
  stores : shared.stores = ledger.held.map fun records => ⟨path, ⟨records⟩, limit⟩
  accepts : shared.disk.Accepts path
  holds : Store.Holds shared.disk path ledger.file
  sound : ∀ records ∈ ledger.held, ∀ record ∈ records, record.Sound

namespace Shared.Shows

variable {shared : Shared} {path : String} {limit : Nat} {ledger : Ledger}

/-- The step lemma: the shared file and the handles go along with a move of the
ledger. -/
theorem move? (shows : shared.Shows path limit ledger) {move : Move}
    (sound : move.Sound) {moves : List Move}
    (placed : Move.Placed ledger.held.length (move :: moves)) :
    ∃ after, shared.move? path limit move = some after ∧
      after.Shows path limit (ledger.move limit move) := by
  rcases shared with ⟨disk, stores⟩
  rcases shows with ⟨rfl, accepts, holds, all⟩
  cases move with
  | enter =>
      refine ⟨⟨disk,
          (ledger.held ++ [ledger.file]).map fun records =>
            ⟨path, ⟨records⟩, limit⟩⟩, ?_, rfl, accepts, holds,
        Ledger.forall_held_enter holds.sound all⟩
      rw [Shared.move?, holds.load? limit, List.map_append]
      rfl
  | append index entry now =>
      have inside := placed.1
      have there : ledger.held[index]? = some ledger.held[index] :=
        List.getElem?_eq_getElem inside
      have held : ∀ record ∈ ledger.held[index], record.Sound :=
        all _ (List.getElem_mem inside)
      rcases Store.append_holds ⟨path, ⟨ledger.held[index]⟩, limit⟩ accepts held
          sound.1 sound.2 with
        ⟨after, appended, again, holding⟩
      have after_eq :
          ledger.move limit (.append index entry now) =
            ⟨(Log.push ⟨ledger.held[index]⟩ limit entry now).records,
              ledger.held.set index
                (Log.push ⟨ledger.held[index]⟩ limit entry now).records⟩ := by
        rw [Ledger.move, there]
        rfl
      rw [after_eq]
      refine ⟨⟨after, _⟩, ?_, rfl, again, holding,
        Ledger.forall_held_set all holding.sound⟩
      rw [Shared.move?, List.getElem?_map, there, Option.map_some,
        Option.bind_some, appended, List.map_set]
      rfl

/-- The run lemma, by induction on the moves. -/
theorem run? (shows : shared.Shows path limit ledger) {moves : List Move}
    (sound : ∀ move ∈ moves, move.Sound)
    (placed : Move.Placed ledger.held.length moves) :
    ∃ after, shared.run? path limit moves = some after ∧
      after.Shows path limit (ledger.run limit moves) := by
  induction moves generalizing shared ledger with
  | nil => exact ⟨shared, rfl, shows⟩
  | cons move moves hypothesis =>
      rcases shows.move? (sound move List.mem_cons_self) placed with
        ⟨next, moved, shown⟩
      rcases hypothesis shown
          (fun other member => sound other (List.mem_cons_of_mem _ member))
          (Ledger.placed_move limit placed) with
        ⟨after, run, last⟩
      refine ⟨after, ?_, last⟩
      rw [Shared.run?, List.foldlM_cons, moved]
      exact run

end Shared.Shows

/-! ## What a list knows -/

section Lists

variable {records news list : List Record}

/-- A list has some of the news, in their order, in front of the records of the
beginning. -/
def Knows (records news list : List Record) : Prop :=
  ∃ known, known.Sublist news ∧ list = known ++ records

theorem Knows.cons (knows : Knows records news list) (record : Record) :
    Knows records (record :: news) list := by
  rcases knows with ⟨known, some, rfl⟩
  exact ⟨known, some.cons record, rfl⟩

/-- A handle that keeps a record knows it. -/
theorem Knows.push (knows : Knows records news list) (record : Record) :
    Knows records (record :: news) (record :: list) := by
  rcases knows with ⟨known, some, rfl⟩
  exact ⟨record :: known, some.cons_cons record, rfl⟩

/-- It knows no more than there is. -/
theorem Knows.length_le (knows : Knows records news list) :
    list.length ≤ records.length + news.length := by
  rcases knows with ⟨known, some, rfl⟩
  have fewer := some.length_le
  rw [List.length_append]
  omega

end Lists

namespace Ledger

variable {ledger : Ledger} {records news : List Record} {limit total : Nat}
  {flags : List Bool}

/-- The file and the stores know some of the news. -/
structure Informed (ledger : Ledger) (records news : List Record) : Prop where
  file : Knows records news ledger.file
  held : ∀ list ∈ ledger.held, Knows records news list

/-- Within the limit a run is put in front of all that the store lists. -/
theorem Informed.move_append (informed : ledger.Informed records news)
    {index : Nat} (inside : index < ledger.held.length)
    (room : records.length + news.length < limit) (entry : Entry) (now : Int) :
    ledger.move limit (.append index entry now) =
      ⟨⟨Log.redacted entry, now⟩ :: ledger.held[index],
        ledger.held.set index
          (⟨Log.redacted entry, now⟩ :: ledger.held[index])⟩ := by
  have short := (informed.held _ (List.getElem_mem inside)).length_le
  have whole : (⟨Log.redacted entry, now⟩ :: ledger.held[index]).take limit =
      ⟨Log.redacted entry, now⟩ :: ledger.held[index] :=
    List.take_of_length_le (Nat.lt_of_le_of_lt short room)
  rw [move, List.getElem?_eq_getElem inside, Option.getD_some, whole]

theorem Informed.enter (informed : ledger.Informed records news) :
    (ledger.move limit .enter).Informed records news :=
  ⟨informed.file, forall_held_enter informed.file informed.held⟩

/-- Where there is room, appending adds its record to the news. -/
theorem Informed.append (informed : ledger.Informed records news) {index : Nat}
    (inside : index < ledger.held.length)
    (room : records.length + news.length < limit) (entry : Entry) (now : Int) :
    (ledger.move limit (.append index entry now)).Informed records
      (⟨Log.redacted entry, now⟩ :: news) := by
  have pushed :=
    (informed.held _ (List.getElem_mem inside)).push ⟨Log.redacted entry, now⟩
  rw [informed.move_append inside room]
  exact ⟨pushed,
    forall_held_set (fun list member => (informed.held list member).cons _) pushed⟩

/-- What is kept in the course of several moves, the newest first, in front of
earlier news. -/
def newsAfter (news : List Record) (moves : List Move) : List Record :=
  (moves.filterMap Move.kept?).reverse ++ news

theorem newsAfter_append (news : List Record) (index : Nat) (entry : Entry)
    (now : Int) (moves : List Move) :
    newsAfter news (.append index entry now :: moves) =
      newsAfter (⟨Log.redacted entry, now⟩ :: news) moves := by
  rw [newsAfter, List.filterMap_cons, Move.kept?, List.reverse_cons,
    List.append_assoc]
  rfl

/-- A fresh store lists what the file does, and another one lists less. -/
def Stands (file list : List Record) : Bool → Prop
  | true => list = file
  | false => list.length < file.length

/-- A list that stands in a file is no longer than the file. -/
theorem Stands.length_le {file list : List Record} {flag : Bool}
    (stands : Stands file list flag) : list.length ≤ file.length := by
  cases flag with
  | true => exact Nat.le_of_eq (congrArg List.length stands)
  | false => exact Nat.le_of_lt stands

/-- All the news are in the file and in the stores that are fresh. -/
structure Level (ledger : Ledger) (records news : List Record)
    (flags : List Bool) : Prop where
  file : ledger.file = news ++ records
  same : flags.length = ledger.held.length
  stands :
    ∀ {index : Nat} {flag : Bool} {list : List Record}, flags[index]? = some flag →
      ledger.held[index]? = some list → Stands ledger.file list flag

theorem Level.length_le (level : ledger.Level records news flags)
    {list : List Record} (member : list ∈ ledger.held) :
    list.length ≤ ledger.file.length := by
  rcases List.mem_iff_getElem?.mp member with ⟨index, there⟩
  have inside : index < flags.length :=
    level.same ▸ (List.getElem?_eq_some_iff.mp there).1
  exact (level.stands (List.getElem?_eq_getElem inside) there).length_le

/-- A new handle is level with the file that it has just read. -/
theorem Level.enter (level : ledger.Level records news flags) :
    (ledger.move limit .enter).Level records news (flags ++ [true]) := by
  refine ⟨level.file, ?_, ?_⟩
  · rw [move, List.length_append, List.length_append, level.same]
    rfl
  · intro index flag list raised there
    rw [move] at there ⊢
    rw [List.getElem?_append] at raised there
    rw [level.same] at raised
    split at there
    · next inside =>
        rw [if_pos inside] at raised
        exact level.stands raised there
    · next outside =>
        rw [if_neg outside] at raised
        rcases List.mem_singleton.mp (List.mem_of_getElem? raised) with rfl
        exact List.mem_singleton.mp (List.mem_of_getElem? there)

/-- A run that is kept through a fresh store is in front of all the news. -/
theorem Level.append (level : ledger.Level records news flags) {index : Nat}
    (inside : index < ledger.held.length) (fresh : flags[index]? = some true)
    (record : Record) :
    Level
      ⟨record :: ledger.held[index],
        ledger.held.set index (record :: ledger.held[index])⟩ records
      (record :: news) (flags.mapIdx fun other _ => other == index) := by
  have equal : ledger.held[index] = ledger.file :=
    level.stands fresh (List.getElem?_eq_getElem inside)
  rw [equal]
  refine ⟨?_, ?_, ?_⟩
  · rw [level.file]
    rfl
  · rw [List.length_mapIdx, List.length_set, level.same]
  · intro other flag list raised there
    rw [List.getElem?_mapIdx] at raised
    rcases Option.map_eq_some_iff.mp raised with ⟨_, _, rfl⟩
    by_cases same : other = index
    · subst same
      rw [List.getElem?_set_self inside] at there
      rw [beq_self_eq_true]
      exact (Option.some.inj there).symm
    · rw [List.getElem?_set_ne (Ne.symm same)] at there
      rw [beq_eq_false_iff_ne.mpr same]
      exact Nat.lt_succ_of_le (level.length_le (List.mem_of_getElem? there))

/-- The file and all stores list less than so many records. -/
structure Short (ledger : Ledger) (total : Nat) : Prop where
  file : ledger.file.length < total
  held : ∀ list ∈ ledger.held, list.length < total

/-- A run that is kept through a store that is not fresh drives another one out of
the file. -/
theorem Level.short (level : ledger.Level records news flags) {index : Nat}
    (inside : index < ledger.held.length) (stale : flags[index]? = some false)
    (record : Record) :
    Short
      ⟨record :: ledger.held[index],
        ledger.held.set index (record :: ledger.held[index])⟩
      (records.length + news.length + 1) := by
  have fewer : ledger.held[index].length < ledger.file.length :=
    level.stands stale (List.getElem?_eq_getElem inside)
  have size : ledger.file.length = records.length + news.length := by
    rw [level.file, List.length_append, Nat.add_comm]
  have pushed :
      (record :: ledger.held[index]).length <
        records.length + news.length + 1 := by
    rw [List.length_cons]
    omega
  refine ⟨pushed, forall_held_set (fun list member => ?_) pushed⟩
  have bounded := level.length_le member
  omega

/-- What was driven out of the file does not come back. -/
theorem Short.run (short : ledger.Short total) (moves : List Move) :
    (ledger.run limit moves).Short
      (total + (moves.filterMap Move.kept?).length) := by
  induction moves generalizing ledger total with
  | nil => exact short
  | cons move moves hypothesis =>
      cases move with
      | enter =>
          exact hypothesis ⟨short.file, forall_held_enter short.file short.held⟩
      | append index entry now =>
          rw [List.filterMap_cons, Move.kept?, List.length_cons,
            ← Nat.succ_add_eq_add_succ]
          apply hypothesis
          have fewer : (ledger.held[index]?.getD []).length < total := by
            cases there : ledger.held[index]? with
            | none => exact Nat.lt_of_le_of_lt (Nat.zero_le _) short.file
            | some list => exact short.held list (List.mem_of_getElem? there)
          have pushed :
              ((⟨Log.redacted entry, now⟩ :: ledger.held[index]?.getD []).take
                  limit).length < total + 1 :=
            Nat.lt_of_le_of_lt (List.length_take_le' _ _) (Nat.succ_lt_succ fewer)
          exact ⟨pushed, forall_held_set
            (fun list member => Nat.lt_succ_of_lt (short.held list member)) pushed⟩

/-- Along a run with room for all that it keeps, the handles stay informed. -/
theorem Informed.run (informed : ledger.Informed records news) {moves : List Move}
    (placed : Move.Placed ledger.held.length moves)
    (room :
      records.length + news.length + (moves.filterMap Move.kept?).length ≤ limit) :
    (ledger.run limit moves).Informed records (newsAfter news moves) := by
  induction moves generalizing ledger news with
  | nil => exact informed
  | cons move moves hypothesis =>
      have later := placed_move limit placed
      cases move with
      | enter => exact hypothesis informed.enter later room
      | append index entry now =>
          rw [List.filterMap_cons, Move.kept?, List.length_cons] at room
          rw [newsAfter_append]
          refine hypothesis (informed.append placed.1 ?_ entry now) later ?_
          · omega
          · rw [List.length_cons]
            omega

/-- Whether all the news are in the file in the end. -/
theorem Level.run (level : ledger.Level records news flags)
    (informed : ledger.Informed records news) {moves : List Move}
    (placed : Move.Placed ledger.held.length moves)
    (room :
      records.length + news.length + (moves.filterMap Move.kept?).length ≤ limit) :
    (Move.Serial flags moves →
        (ledger.run limit moves).file = newsAfter news moves ++ records) ∧
      (¬ Move.Serial flags moves →
        (ledger.run limit moves).file.length <
          records.length + (newsAfter news moves).length) := by
  -- As long as every store that writes is fresh the ledger stays level.  The
  -- first one that is not makes it short, and by its length alone it can never be
  -- whole again.
  induction moves generalizing ledger news flags with
  | nil => exact ⟨fun _ => level.file, fun lost => (lost trivial).elim⟩
  | cons move moves hypothesis =>
      have later := placed_move limit placed
      cases move with
      | enter => exact hypothesis level.enter informed.enter later room
      | append index entry now =>
          rw [List.filterMap_cons, Move.kept?, List.length_cons] at room
          have free : records.length + news.length < limit := by omega
          have moved := informed.move_append placed.1 free entry now
          have inside : index < flags.length := level.same ▸ placed.1
          have raised : flags[index]? = some flags[index] :=
            List.getElem?_eq_getElem inside
          rw [newsAfter_append]
          cases flag : flags[index] with
          | true =>
              rw [flag] at raised
              have levelled :=
                level.append placed.1 raised ⟨Log.redacted entry, now⟩
              rw [← moved] at levelled
              rcases hypothesis levelled (informed.append placed.1 free entry now)
                  later (by rw [List.length_cons]; omega) with
                ⟨kept, lost⟩
              exact ⟨fun serial => kept serial.2,
                fun other => lost fun serial => other ⟨raised, serial⟩⟩
          | false =>
              rw [flag] at raised
              have short := level.short placed.1 raised ⟨Log.redacted entry, now⟩
              rw [← moved] at short
              refine ⟨fun serial => ?_, fun _ => ?_⟩
              · cases raised.symm.trans serial.1
              · refine Nat.lt_of_lt_of_eq (short.run moves).file ?_
                rw [newsAfter, List.length_append, List.length_reverse,
                  List.length_cons]
                omega

end Ledger

/-- The file lists all that was kept exactly if no run was kept through a store
that was not fresh. -/
theorem keeps_all_iff_serial {disk : Disk} {path : String} {records : List Record}
    (holds : Store.Holds disk path records) (accepts : disk.Accepts path)
    {limit : Nat} {moves : List Move} (sound : ∀ move ∈ moves, move.Sound)
    (placed : Move.Placed 0 moves)
    (within : records.length + (moves.filterMap Move.kept?).length ≤ limit) :
    ∃ shared store, (Shared.mk disk []).run? path limit moves = some shared ∧
      Store.load? shared.disk path limit = some store ∧
      Knows records (moves.filterMap Move.kept?).reverse store.log.records ∧
      (store.log.records = (moves.filterMap Move.kept?).reverse ++ records ↔
        Move.Serial [] moves) := by
  have shows : (Shared.mk disk []).Shows path limit ⟨records, []⟩ :=
    ⟨rfl, accepts, holds, fun _ member => (List.not_mem_nil member).elim⟩
  have informed : Ledger.Informed ⟨records, []⟩ records [] := by
    refine ⟨⟨[], List.Sublist.refl _, rfl⟩,
      fun _ member => (List.not_mem_nil member).elim⟩
  have level : Ledger.Level ⟨records, []⟩ records [] [] := by
    refine ⟨rfl, rfl, ?_⟩
    intro index flag list raised
    cases raised
  have room :
      records.length + ([] : List Record).length +
          (moves.filterMap Move.kept?).length ≤ limit :=
    within
  have news : Ledger.newsAfter [] moves = (moves.filterMap Move.kept?).reverse :=
    List.append_nil _
  rcases shows.run? sound placed with ⟨shared, run, last⟩
  have knows := (informed.run placed room).file
  have outcome := level.run informed placed room
  rw [news] at knows outcome
  refine ⟨shared, _, run, last.holds.load? limit, knows, ?_⟩
  refine ⟨fun whole => ?_, outcome.1⟩
  by_cases serial : Move.Serial [] moves
  · exact serial
  · have fewer := outcome.2 serial
    dsimp only at whole
    rw [whole, List.length_append] at fewer
    omega

/-- A run of a workflow. -/
def runOf (name : String) : Entry :=
  ⟨name, "1/1 steps passed", 7, "name: smoke", [], none⟩

/-- Each store is opened after the one before it has kept its run. -/
theorem keeps_all_iff_serial_inTurn :
    let disk := Disk.bare "/home"
    let moves : List Move :=
      [.enter, .append 0 (runOf "first") 5, .enter, .append 1 (runOf "second") 6]
    Store.Holds disk "history.json" [] ∧ disk.Accepts "history.json" ∧
      (∀ move ∈ moves, move.Sound) ∧ Move.Placed 0 moves ∧
      ∃ shared store,
        (Shared.mk disk []).run? "history.json" 2 moves = some shared ∧
          Store.load? shared.disk "history.json" 2 = some store ∧
          store.log.records = [⟨runOf "second", 6⟩, ⟨runOf "first", 5⟩] := by
  intro disk moves
  have holds : Store.Holds disk "history.json" [] := .inr ⟨rfl, rfl⟩
  have accepts : disk.Accepts "history.json" := ⟨[], _, rfl⟩
  have sound : ∀ move ∈ moves, move.Sound := by decide
  have placed : Move.Placed 0 moves := by decide
  have kept :
      (moves.filterMap Move.kept?).reverse =
        [⟨runOf "second", 6⟩, ⟨runOf "first", 5⟩] := by
    decide +kernel
  have within :
      ([] : List Record).length + (moves.filterMap Move.kept?).length ≤ 2 := by
    decide
  rcases keeps_all_iff_serial holds accepts sound placed within with
    ⟨shared, store, run, opens, _, whole⟩
  refine ⟨holds, accepts, sound, placed, shared, store, run, opens, ?_⟩
  rw [whole.mpr (by decide), kept]
  rfl

/-- Two stores are opened, and then each keeps a run: the first run is not in the
file in the end. -/
theorem not_keeps_all_atOnce :
    let moves : List Move :=
      [.enter, .enter, .append 0 (runOf "first") 5, .append 1 (runOf "second") 6]
    ∃ shared store,
      (Shared.mk (Disk.bare "/home") []).run? "history.json" 10 moves =
          some shared ∧ Store.load? shared.disk "history.json" 10 = some store ∧
        (moves.filterMap Move.kept?).length ≤ 10 ∧
        ¬ ∀ record ∈ moves.filterMap Move.kept?, record ∈ store.log.records := by
  intro moves
  have shows :
      (Shared.mk (Disk.bare "/home") []).Shows "history.json" 10 ⟨[], []⟩ :=
    ⟨rfl, ⟨[], _, rfl⟩, .inr ⟨rfl, rfl⟩,
      fun _ member => (List.not_mem_nil member).elim⟩
  have sound : ∀ move ∈ moves, move.Sound := by decide
  have placed : Move.Placed 0 moves := by decide
  rcases shows.run? sound placed with ⟨shared, run, last⟩
  have file : (Ledger.run 10 ⟨[], []⟩ moves).file = [⟨runOf "second", 6⟩] := by
    decide +kernel
  refine ⟨shared, _, run, last.holds.load? 10, by decide, ?_⟩
  rw [file]
  decide +kernel

end RequestFlow.History
