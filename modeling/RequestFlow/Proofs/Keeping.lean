import RequestFlow.Proofs.Folders
import RequestFlow.Proofs.Records

/-!
# A history in use

Runs are kept, the newest ones are asked for, and the history is opened again.
Main statement: on a disk that takes the file, the answers are those of a plain
list, which begins as the records of the file and to whose front a run is put
within the limit.
-/

namespace RequestFlow.History

/-- What is done with a history. -/
inductive Use where
  | append (entry : Entry) (now : Int)
  | recent (count : Nat)
  /-- The store is given up and another one opened. -/
  | reopen

/-! ## The plain list -/

namespace Use

/-- The record of a run that is kept. -/
def kept? : Use → Option Record
  | append entry now => some ⟨Log.redacted entry, now⟩
  | _ => none

/-- The plain list after a use. -/
def after (limit : Nat) (records : List Record) : Use → List Record
  | append entry now => (⟨Log.redacted entry, now⟩ :: records).take limit
  | _ => records

/-- What is answered from the plain list. -/
def answer? (records : List Record) : Use → Option (List Record)
  | recent count => some (records.take count)
  | _ => none

/-- The plain list after several uses. -/
def afterAll (limit : Nat) (records : List Record) (uses : List Use) :
    List Record :=
  uses.foldl (after limit) records

/-- What is answered from the plain list in the course of several uses. -/
def answers (limit : Nat) : List Record → List Use → List (List Record)
  | _, [] => []
  | records, use :: uses =>
      (use.answer? records).toList ++ answers limit (use.after limit records) uses

/-- Durations are numbers of 64 bits, and runs are kept at moments that can be
written. -/
def Sound : Use → Prop
  | append entry now => entry.Sound ∧ IsMoment now
  | _ => True

instance : DecidablePred Sound
  | append _ _ => instDecidableAnd
  | recent _ => .isTrue trivial
  | reopen => .isTrue trivial

theorem take_append_take {Part : Type} (count : Nat) (first second : List Part) :
    (first ++ second.take count).take count = (first ++ second).take count := by
  rw [List.take_append, List.take_append, List.take_take,
    Nat.min_eq_left (Nat.sub_le _ _)]

/-- Below the limit nothing is lost, the newest record stands first, and the
oldest are given up. -/
theorem afterAll_eq (limit : Nat) (records : List Record) (uses : List Use) :
    afterAll limit records uses =
      if uses.filterMap kept? = [] then records
      else ((uses.filterMap kept?).reverse ++ records).take limit := by
  induction uses generalizing records with
  | nil => rfl
  | cons use uses hypothesis =>
      change afterAll limit (use.after limit records) uses = _
      rw [hypothesis, List.filterMap_cons]
      cases use with
      | append entry now =>
          simp only [kept?, after, List.reverse_cons, List.append_assoc,
            List.singleton_append, take_append_take, if_neg (List.cons_ne_nil _ _)]
          split
          · next none =>
              rw [none]
              rfl
          · rfl
      | recent count => rfl
      | reopen => rfl

end Use

/-! ## The store -/

/-- A history in use: the disk, and the store that is open. -/
structure Desk where
  disk : Disk
  store : Store

namespace Desk

/-- What is answered, and the desk afterwards; nothing where the disk fails. -/
def use? (desk : Desk) : Use → Option (Option (List Record) × Desk)
  | .append entry now =>
      let appended := desk.store.append desk.disk entry now
      if appended.fault = none then some (none, ⟨appended.disk, appended.store⟩)
      else none
  | .recent count => some (some (desk.store.recent count), desk)
  | .reopen =>
      (Store.load? desk.disk desk.store.path desk.store.limit).map fun store =>
        (none, ⟨desk.disk, store⟩)

/-- What is answered in the course of several uses, and the desk afterwards. -/
def run? (desk : Desk) : List Use → Option (List (List Record) × Desk)
  | [] => some ([], desk)
  | use :: uses =>
      (desk.use? use).bind fun used =>
        (used.2.run? uses).map fun rest => (used.1.toList ++ rest.1, rest.2)

end Desk

namespace Store

/-- The records that the file of a path holds; a file that is missing holds
none. -/
def Holds (disk : Disk) (path : String) (records : List Record) : Prop :=
  (∃ content, disk.read path = .ok content ∧ logOf? content = some ⟨records⟩) ∨
    disk.read path = .error .missing ∧ records = []

variable {disk : Disk} {path : String} {records : List Record}

theorem Holds.load? (holds : Holds disk path records) (limit : Nat) :
    Store.load? disk path limit = some ⟨path, ⟨records⟩, limit⟩ := by
  rcases holds with ⟨content, read, held⟩ | ⟨missing, rfl⟩
  · rw [Store.load?, read]
    dsimp only
    rw [held, Option.map_some]
  · rw [Store.load?, missing]
    rfl

theorem Holds.sound (holds : Holds disk path records) :
    ∀ record ∈ records, record.Sound := by
  rcases holds with ⟨content, read, held⟩ | ⟨missing, rfl⟩
  · exact sound_of_logOf? held
  · exact fun _ member => (List.not_mem_nil member).elim

/-- A file that is written from a log of sound records holds them. -/
theorem holds_of_read {log : Log} (sound : ∀ record ∈ log.records, record.Sound)
    (read : disk.read path = .ok (Text.Utf8.encode log.text)) :
    Holds disk path log.records :=
  .inl ⟨_, read, logOf?_encode sound⟩

/-- Where the disk takes the file, a run is kept in the log and in the file. -/
theorem append_holds (store : Store) (accepts : disk.Accepts store.path)
    (sound : ∀ record ∈ store.log.records, record.Sound) {entry : Entry}
    {now : Int} (duration : entry.Sound) (moment : IsMoment now) :
    ∃ after,
      store.append disk entry now =
          ⟨{ store with log := store.log.push store.limit entry now }, after,
            none⟩ ∧ after.Accepts store.path ∧
        Holds after store.path (store.log.push store.limit entry now).records := by
  have all :
      ∀ record ∈ (store.log.push store.limit entry now).records, record.Sound := by
    intro record member
    rcases List.mem_cons.mp (List.mem_of_mem_take member) with rfl | member
    · exact ⟨Log.sound_redacted duration, moment⟩
    · exact sound record member
  rcases accepts.create
      (Text.Utf8.encode (store.log.push store.limit entry now).text) with
    ⟨after, created, read, again⟩
  refine ⟨after, ?_, again, holds_of_read all read⟩
  rw [append, save, created]

end Store

namespace Desk

/-- The store is the one of the file, and the disk takes the file. -/
structure Keeps (desk : Desk) (path : String) (limit : Nat)
    (records : List Record) : Prop where
  store : desk.store = ⟨path, ⟨records⟩, limit⟩
  accepts : desk.disk.Accepts path
  holds : Store.Holds desk.disk path records

variable {desk : Desk} {path : String} {limit : Nat} {records : List Record}

theorem Keeps.use? (keeps : desk.Keeps path limit records) {use : Use}
    (sound : use.Sound) :
    ∃ after, desk.use? use = some (use.answer? records, after) ∧
      after.Keeps path limit (use.after limit records) := by
  rcases desk with ⟨disk, store⟩
  rcases keeps with ⟨rfl, accepts, holds⟩
  cases use with
  | append entry now =>
      rcases Store.append_holds ⟨path, ⟨records⟩, limit⟩ accepts holds.sound
          sound.1 sound.2 with
        ⟨after, appended, again, held⟩
      refine ⟨⟨after, _⟩, ?_, rfl, again, held⟩
      rw [Desk.use?, appended]
      rfl
  | recent count => exact ⟨_, rfl, rfl, accepts, holds⟩
  | reopen =>
      refine ⟨⟨disk, _⟩, ?_, rfl, accepts, holds⟩
      rw [Desk.use?, holds.load? limit]
      rfl

theorem Keeps.run? (keeps : desk.Keeps path limit records) {uses : List Use}
    (sound : ∀ use ∈ uses, use.Sound) :
    ∃ after, desk.run? uses = some (Use.answers limit records uses, after) ∧
      after.Keeps path limit (Use.afterAll limit records uses) := by
  induction uses generalizing desk records with
  | nil => exact ⟨desk, rfl, keeps⟩
  | cons use uses hypothesis =>
      rcases keeps.use? (sound use List.mem_cons_self) with ⟨next, used, kept⟩
      rcases hypothesis kept fun other member =>
          sound other (List.mem_cons_of_mem _ member) with
        ⟨after, run, last⟩
      refine ⟨after, ?_, last⟩
      rw [Desk.run?, used, Option.bind_some, run]
      rfl

end Desk

/-- A history that is used answers as a plain list does, and its file holds the
list. -/
theorem uses_answered {disk : Disk} {path : String} {records : List Record}
    (holds : Store.Holds disk path records) (accepts : disk.Accepts path)
    (limit : Nat) {uses : List Use} (sound : ∀ use ∈ uses, use.Sound) :
    ∃ store desk, Store.load? disk path limit = some store ∧
      (Desk.mk disk store).run? uses =
        some (Use.answers limit records uses, desk) ∧
      desk.store.log.records = Use.afterAll limit records uses ∧
      Store.Holds desk.disk path (Use.afterAll limit records uses) ∧
      Use.afterAll limit records uses =
        if uses.filterMap Use.kept? = [] then records
        else ((uses.filterMap Use.kept?).reverse ++ records).take limit := by
  have keeps : (Desk.mk disk ⟨path, ⟨records⟩, limit⟩).Keeps path limit records :=
    ⟨rfl, accepts, holds⟩
  rcases keeps.run? sound with ⟨desk, run, kept⟩
  refine ⟨_, desk, holds.load? limit, run, ?_, kept.holds,
    Use.afterAll_eq limit records uses⟩
  rw [kept.store]

/-- Two runs are kept in a history that is opened again in between, and the limit
is one. -/
theorem uses_answered_keepTwo :
    let disk := Disk.bare "/home"
    let entry (name : String) : Entry :=
      ⟨name, "1/1 steps passed", 7, "token: abc", ["daily"], none⟩
    let uses : List Use :=
      [.append (entry "first") 5, .reopen, .append (entry "second") 6, .recent 9]
    Store.Holds disk "runs/history.json" [] ∧ disk.Accepts "runs/history.json" ∧
      (∀ use ∈ uses, use.Sound) ∧
      ∃ store desk, Store.load? disk "runs/history.json" 1 = some store ∧
        (Desk.mk disk store).run? uses =
          some ([[⟨{ entry "second" with definition := "token: [REDACTED]" }, 6⟩]],
            desk) := by
  intro disk entry uses
  have holds : Store.Holds disk "runs/history.json" [] := .inr ⟨rfl, rfl⟩
  have accepts : disk.Accepts "runs/history.json" := ⟨[], _, rfl⟩
  have sound : ∀ use ∈ uses, use.Sound := by decide
  refine ⟨holds, accepts, sound, ?_⟩
  rcases uses_answered holds accepts 1 sound with ⟨store, desk, opens, run, _⟩
  refine ⟨store, desk, opens, ?_⟩
  have answers : Use.answers 1 [] uses =
      [[⟨{ entry "second" with definition := "token: [REDACTED]" }, 6⟩]] := by
    decide +kernel
  rw [run, answers]

end RequestFlow.History
