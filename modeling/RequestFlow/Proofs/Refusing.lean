import RequestFlow.Proofs.Keeping
import RequestFlow.Proofs.Remnants

/-!
# Runs that cannot be written

A run is put into the log before the file is written, and stays there where the
file cannot be.  Main statement: after a refused run the disk has some more
folders at most, and the store lists the run all the same, unless the log was full
of this very record before; the next run that is written takes the refused one
with it.
-/

namespace RequestFlow.History

/-- A record at the front of a list that is cut to a length changes nothing only
if the list is as long and has no other record. -/
theorem take_cons_eq_self_iff {Part : Type} {limit : Nat} {part : Part}
    {parts : List Part} :
    (part :: parts).take limit = parts ↔ parts = List.replicate limit part := by
  constructor
  · intro same
    induction parts generalizing limit with
    | nil =>
        cases limit with
        | zero => rfl
        | succ limit => cases same
    | cons head parts hypothesis =>
        cases limit with
        | zero => cases same
        | succ limit =>
            rw [List.take_succ_cons, List.cons.injEq] at same
            rcases same with ⟨rfl, rest⟩
            rw [List.replicate_succ, ← hypothesis rest]
  · rintro rfl
    rw [← List.replicate_succ, List.take_replicate,
      Nat.min_eq_left (Nat.le_succ limit)]

/-- What is listed at every length is the whole log. -/
theorem Log.recent_eq_iff {left right : Log} :
    (∀ count, left.recent count = right.recent count) ↔
      left.records = right.records := by
  constructor
  · intro same
    have whole := same (max left.records.length right.records.length)
    rw [recent, recent, List.take_of_length_le (Nat.le_max_left _ _),
      List.take_of_length_le (Nat.le_max_right _ _)] at whole
    exact whole
  · intro same count
    rw [recent, recent, same]

namespace Store

variable {store : Store} {disk : Disk} {entry : Entry} {now : Int}

/-- The log has the run whether the file is written or not. -/
theorem store_append (store : Store) (disk : Disk) (entry : Entry) (now : Int) :
    (store.append disk entry now).store =
      { store with log := store.log.push store.limit entry now } := by
  rw [append]
  split <;> rfl

theorem blocked_of_refused {fault : DiskFault}
    (refused : (store.append disk entry now).fault = some fault) :
    disk.Blocked (store.append disk entry now).disk store.path fault := by
  rw [append] at refused ⊢
  split at refused
  · cases refused
  · next broken failed =>
      rcases Option.some.inj refused with rfl
      exact Disk.blocked_of_create failed

/-- A history whose file could not be written opens as it did before, unless the
file was missing and is now kept from being read. -/
theorem load?_of_blocked {after : Disk} {path : String} {fault : DiskFault}
    (blocked : disk.Blocked after path fault) :
    (∀ limit, load? after path limit = load? disk path limit) ↔
      (disk.read path = .error .missing → fault = .missing) := by
  constructor
  · intro same missing
    have opened := same 0
    rw [load?, load?, blocked.read, missing] at opened
    cases fault with
    | missing => rfl
    | notFolder => cases opened
    | isFolder => cases opened
  · intro known limit
    rw [load?, load?, blocked.read]
    rcases blocked.before with same | missing
    · rw [same]
    · rw [missing, known missing]

/-- A run that is refused because its file cannot be written leaves folders at
most on the disk; the history opens as before unless its file was missing and one
of these folders has uncovered another fault.  The store lists the run all the
same, in front of the runs before it and within the limit, so that what is listed
is unchanged only if it was this record as often as the limit allows; and a run
that is written later takes the refused one with it into the file. -/
theorem append_refused {fault : DiskFault}
    (refused : (store.append disk entry now).fault = some fault) :
    let record : Record := ⟨Log.redacted entry, now⟩
    let after := store.append disk entry now
    disk.Blocked after.disk store.path fault ∧
    ((∀ limit, load? after.disk store.path limit = load? disk store.path limit) ↔
      (disk.read store.path = .error .missing → fault = .missing)) ∧
    (∀ count, after.store.recent count =
      ((record :: store.log.records).take store.limit).take count) ∧
    ((∀ count, after.store.recent count = store.recent count) ↔
      store.log.records = List.replicate store.limit record) ∧
    ∀ (later : Disk) (next : Entry) (moment : Int), later.Accepts store.path →
      (∀ kept ∈ record :: store.log.records, kept.Sound) → next.Sound →
      IsMoment moment →
        let written := after.store.append later next moment
        written.fault = none ∧
          Holds written.disk store.path
            ((⟨Log.redacted next, moment⟩ :: record :: store.log.records).take
              store.limit) := by
  intro record after
  have changed :
      after.store = { store with log := store.log.push store.limit entry now } :=
    store_append store disk entry now
  have blocked : disk.Blocked after.disk store.path fault :=
    blocked_of_refused refused
  refine ⟨blocked, load?_of_blocked blocked, ?_, ?_, ?_⟩
  · intro count
    rw [changed]
    rfl
  · rw [← take_cons_eq_self_iff]
    simp only [recent, changed]
    exact Log.recent_eq_iff
  · intro later next moment accepts sound duration known
    rw [changed]
    have kept :
        ∀ kept ∈ (store.log.push store.limit entry now).records, kept.Sound :=
      fun kept member => sound kept (List.mem_of_mem_take member)
    rcases append_holds { store with log := store.log.push store.limit entry now }
        accepts kept duration known with
      ⟨last, appended, -, holds⟩
    rw [appended]
    refine ⟨rfl, ?_⟩
    have both := Use.take_append_take store.limit [⟨Log.redacted next, moment⟩]
      (record :: store.log.records)
    rw [List.singleton_append, List.singleton_append] at both
    rw [← both]
    exact holds

/-- A run that is kept without tags and description. -/
def plainEntry (name : String) : Entry :=
  ⟨name, "1/1 steps passed", 7, "name: smoke", [], none⟩

/-- There is a folder at the path of the history. -/
def blockedDisk : Disk :=
  (Disk.bare "/home").put ["home", "runs.json"] .folder

/-- The oldest of two runs is gone from the list for a run that is in no file,
until a fourth run is written. -/
theorem append_refused_blockedDisk :
    let record (name : String) : Record := ⟨Log.redacted (plainEntry name), 5⟩
    let store : Store := ⟨"runs.json", ⟨[record "second", record "first"]⟩, 2⟩
    let after := store.append blockedDisk (plainEntry "third") 5
    let written := after.store.append (Disk.bare "/home") (plainEntry "fourth") 5
    after.fault = some .isFolder ∧
      (∀ count,
        after.store.recent count = [record "third", record "second"].take count) ∧
      Holds written.disk "runs.json" [record "fourth", record "third"] := by
  intro record store after written
  have refused : after.fault = some .isFolder := by decide +kernel
  have sound (name : String) : (record name).Sound :=
    ⟨show 7 < Text.naturalBound by decide, show IsMoment 5 by decide⟩
  rcases append_refused refused with ⟨-, -, listed, -, later⟩
  have accepts : (Disk.bare "/home").Accepts "runs.json" := ⟨[], _, rfl⟩
  have all : ∀ kept ∈ record "third" :: store.log.records, kept.Sound := by
    simp only [store, List.forall_mem_cons, sound, List.not_mem_nil, false_implies,
      implies_true, and_self]
  exact ⟨refused, listed,
    (later _ (plainEntry "fourth") 5 accepts all (sound "fourth").entry
      (by decide)).2⟩

/-- A store lists a run that it has refused. -/
theorem recent_changed_blockedDisk :
    let store : Store := ⟨"runs.json", .empty, 10⟩
    let after := store.append blockedDisk (plainEntry "refused") 5
    after.fault = some .isFolder ∧ store.recent 500 = [] ∧
      after.store.recent 500 ≠ [] := by
  decide +kernel

end Store

end RequestFlow.History
