import RequestFlow.Disk

/-!
# Files that are written again

A file that was written once can be written again, and each time what was written
is read.  Main statement: `Accepts.create`.
-/

namespace RequestFlow.Disk

variable {disk after : Disk} {place other : List String}

/-! ## What a place holds after another one was written -/

theorem node?_put_of_folder {node : DiskNode}
    (folder : disk.node? other = some .folder)
    (kept : node = .folder ∨ disk.node? place ≠ some .folder) :
    (disk.put place node).node? other = some .folder := by
  rw [node?] at folder ⊢
  split
  · rfl
  · next inside =>
      rw [if_neg inside] at folder
      rw [put, Dictionary.get?_insert]
      split
      · next same =>
          rcases kept with rfl | free
          · rfl
          · rw [node?] at free
            split at free
            · exact (free rfl).elim
            · exact (free (same ▸ folder)).elim
      · exact folder

theorem node?_put_self {node : DiskNode} (free : disk.node? place ≠ some .folder) :
    (disk.put place node).node? place = some node := by
  rw [node?] at free ⊢
  split
  · next root =>
      rw [if_pos root] at free
      exact (free rfl).elim
  · rw [put, Dictionary.get?_insert, if_pos rfl]

/-! ## Folders that are made -/

/-- The other disk has all that the disk has, and besides only folders where
nothing was. -/
structure GrowsTo (disk after : Disk) : Prop where
  folder : after.folder = disk.folder
  places : ∀ place, after.node? place = disk.node? place ∨
    disk.node? place = none ∧ after.node? place = some .folder

theorem GrowsTo.refl (disk : Disk) : disk.GrowsTo disk :=
  ⟨rfl, fun _ => .inl rfl⟩

theorem GrowsTo.trans {last : Disk} (grows : disk.GrowsTo after)
    (further : after.GrowsTo last) : disk.GrowsTo last := by
  refine ⟨further.folder.trans grows.folder, fun place => ?_⟩
  rcases further.places place with same | ⟨free, made⟩
  · rw [same]
    exact grows.places place
  · rcases grows.places place with same | ⟨-, before⟩
    · exact .inr ⟨same.symm.trans free, made⟩
    · rw [before] at free
      cases free

/-- What a place holds it still holds when the disk has grown. -/
theorem GrowsTo.node?_eq (grows : disk.GrowsTo after) {node : DiskNode}
    (holds : disk.node? place = some node) : after.node? place = some node := by
  rcases grows.places place with same | ⟨free, -⟩
  · exact same.trans holds
  · rw [free] at holds
    cases holds

/-- A disk grows by a folder that is put where nothing was. -/
theorem growsTo_put (free : disk.node? place = none) :
    disk.GrowsTo (disk.put place .folder) := by
  have inner : ¬ place.isEmpty = true := by
    intro root
    rw [node?, if_pos root] at free
    cases free
  rw [node?, if_neg inner] at free
  refine ⟨rfl, fun other => ?_⟩
  by_cases root : other.isEmpty = true
  · left
    rw [node?, node?, if_pos root, if_pos root]
  · simp only [node?, if_neg root, put, Dictionary.get?_insert]
    split
    · next same =>
        rw [same]
        exact .inr ⟨free, rfl⟩
    · exact .inl rfl

/-- Folders are made by growing, as far as it goes. -/
theorem makeFrom_grows (disk : Disk) (place : List String) (parts : List String) :
    disk.GrowsTo (left (disk.makeFrom place parts)) := by
  induction parts generalizing disk place with
  | nil => exact .refl disk
  | cons part parts hypothesis =>
      rw [makeFrom]
      split
      · exact .refl disk
      · dsimp only
        split
        · exact .refl disk
        · exact hypothesis disk _
        · next free => exact (growsTo_put free).trans (hypothesis _ _)

theorem growsTo_of_makeFrom {parts : List String}
    (made : disk.makeFrom place parts = .ok after) : disk.GrowsTo after := by
  have grows := makeFrom_grows disk place parts
  rw [made] at grows
  exact grows

theorem growsTo_of_broken {parts : List String} {broken : Broken}
    (failed : disk.makeFrom place parts = .error broken) :
    disk.GrowsTo broken.disk := by
  have grows := makeFrom_grows disk place parts
  rw [failed] at grows
  exact grows

/-- Every place on the way is a folder. -/
def Paved (disk : Disk) (place : List String) : List String → Prop
  | [] => True
  | part :: parts =>
      let next := if part = ".." then place.dropLast else place ++ [part]
      disk.node? place = some .folder ∧ disk.node? next = some .folder ∧
        disk.Paved next parts

theorem enter_of_folder (folder : disk.node? place = some .folder) :
    disk.enter place = .ok place := by
  rw [enter, folder]

theorem eq_of_enter {found : List String}
    (entered : disk.enter place = .ok found) :
    disk.node? place = some .folder ∧ found = place := by
  rw [enter] at entered
  split at entered
  · next folder => exact ⟨folder, (Except.ok.inj entered).symm⟩
  · cases entered
  · cases entered

theorem makeFrom_of_paved {parts : List String} (paved : disk.Paved place parts) :
    disk.makeFrom place parts = .ok disk := by
  induction parts generalizing place with
  | nil => rfl
  | cons part parts hypothesis =>
      rw [makeFrom, enter_of_folder paved.1]
      dsimp only
      rw [paved.2.1]
      exact hypothesis paved.2.2

theorem Paved.mono {parts : List String} (paved : disk.Paved place parts)
    (keeps : ∀ other,
        disk.node? other = some .folder → after.node? other = some .folder) :
    after.Paved place parts := by
  induction parts generalizing place with
  | nil => trivial
  | cons part parts hypothesis =>
      exact ⟨keeps _ paved.1, keeps _ paved.2.1, hypothesis paved.2.2⟩

/-- Where the folders of a path could be made, they are there. -/
theorem paved_of_makeFrom {parts : List String}
    (made : disk.makeFrom place parts = .ok after) : after.Paved place parts := by
  induction parts generalizing disk place with
  | nil => trivial
  | cons part parts hypothesis =>
      have grows := growsTo_of_makeFrom made
      rw [makeFrom] at made
      split at made
      · cases made
      · next inside entered =>
          rcases eq_of_enter entered with ⟨folder, rfl⟩
          dsimp only at made
          split at made
          · cases made
          · next there =>
              exact ⟨grows.node?_eq folder, grows.node?_eq there, hypothesis made⟩
          · next free =>
              refine ⟨grows.node?_eq folder,
                (growsTo_of_makeFrom made).node?_eq ?_, hypothesis made⟩
              apply node?_put_self
              rw [free]
              exact nofun

/-! ## A path that is followed -/

theorem follow_of_isPart {piece : String}
    (folder : disk.node? place = some .folder) (part : Path.isPart piece = true)
    (pieces : List String) :
    disk.follow place (piece :: pieces) =
      disk.follow (if piece = ".." then place.dropLast else place ++ [piece])
        pieces := by
  rw [follow, enter_of_folder folder]
  dsimp only
  rw [if_pos part]
  split <;> rfl

theorem follow_of_not_isPart {piece : String}
    (folder : disk.node? place = some .folder) (blank : ¬ Path.isPart piece = true)
    (pieces : List String) :
    disk.follow place (piece :: pieces) = disk.follow place pieces := by
  have stays : piece ≠ ".." := by
    rintro rfl
    exact blank rfl
  rw [follow, enter_of_folder folder]
  dsimp only
  rw [if_neg stays, if_neg blank]

/-- From a folder a piece of a path leads to the same place on every disk. -/
theorem exists_next (place : List String) (piece : String) :
    ∃ next, ∀ (disk : Disk) (pieces : List String),
      disk.node? place = some .folder →
        disk.follow place (piece :: pieces) = disk.follow next pieces := by
  by_cases part : Path.isPart piece = true
  · exact ⟨_, fun _ pieces folder => follow_of_isPart folder part pieces⟩
  · exact ⟨place, fun _ pieces folder => follow_of_not_isPart folder part pieces⟩

/-- What is not a folder cannot be gone through. -/
theorem follow_of_enter {fault : DiskFault}
    (closed : disk.enter place = .error fault) {pieces : List String}
    (more : pieces ≠ []) : disk.follow place pieces = .error fault := by
  cases pieces with
  | nil => exact (more rfl).elim
  | cons piece pieces => rw [follow, closed]

/-- A path leads to the same place as long as the folders are kept. -/
theorem follow_mono {pieces : List String} {found : List String}
    (followed : disk.follow place pieces = .ok found)
    (keeps : ∀ other,
        disk.node? other = some .folder → after.node? other = some .folder) :
    after.follow place pieces = .ok found := by
  induction pieces generalizing place with
  | nil => exact followed
  | cons piece pieces hypothesis =>
      cases entered : disk.enter place with
      | error fault =>
          rw [follow_of_enter entered (List.cons_ne_nil _ _)] at followed
          cases followed
      | ok inside =>
          rcases eq_of_enter entered with ⟨folder, rfl⟩
          rcases exists_next inside piece with ⟨next, leads⟩
          rw [leads disk pieces folder] at followed
          rw [leads after pieces (keeps _ folder)]
          exact hypothesis followed

theorem locate_mono {path : String} {found : List String}
    (located : disk.locate path = .ok found) (same : after.folder = disk.folder)
    (keeps : ∀ other,
        disk.node? other = some .folder → after.node? other = some .folder) :
    after.locate path = .ok found := by
  rw [locate] at located ⊢
  split
  · next blank =>
      rw [if_pos blank] at located
      cases located
  · next present =>
      rw [if_neg present] at located
      rw [origin, same]
      exact follow_mono located keeps

/-! ## Files that are written again -/

/-- The folders of a path are there, and the path leads to a place that is no
folder. -/
structure Settled (disk : Disk) (path : String) (place : List String) : Prop where
  paved :
    disk.Paved (disk.origin (Path.parent path)) (Path.parts (Path.parent path))
  located : disk.locate path = .ok place
  free : disk.node? place ≠ some .folder

variable {path : String} {content : List UInt8}

theorem Settled.create (settled : disk.Settled path place) (content : List UInt8) :
    disk.create path content = .ok (disk.put place (.file content)) := by
  rw [Disk.create, makeFolders, makeFrom_of_paved settled.paved]
  dsimp only
  have written :
      disk.write path content = .ok (disk.put place (.file content)) := by
    rw [write, settled.located]
    dsimp only
    split
    · next folder => exact (settled.free folder).elim
    · rfl
  rw [written]

/-- After a file was written its path still leads to the same place. -/
theorem Settled.put (settled : disk.Settled path place) (content : List UInt8) :
    (disk.put place (.file content)).Settled path place := by
  have keeps : ∀ other, disk.node? other = some .folder →
      (disk.put place (.file content)).node? other = some .folder :=
    fun _ folder => node?_put_of_folder folder (.inr settled.free)
  refine ⟨settled.paved.mono keeps, locate_mono settled.located rfl keeps, ?_⟩
  rw [node?_put_self settled.free]
  exact nofun

theorem Settled.read (settled : disk.Settled path place) (content : List UInt8) :
    (disk.put place (.file content)).read path = .ok content := by
  rw [Disk.read, (settled.put content).located]
  dsimp only
  rw [node?_put_self settled.free]

/-- A file that is written is put at the place of its path. -/
theorem put_of_write (written : disk.write path content = .ok after) :
    ∃ place, disk.locate path = .ok place ∧ disk.node? place ≠ some .folder ∧
      after = disk.put place (.file content) := by
  rw [write] at written
  cases locating : disk.locate path with
  | error fault =>
      rw [locating] at written
      cases written
  | ok place =>
      rw [locating] at written
      dsimp only at written
      split at written
      · cases written
      · next free => exact ⟨place, rfl, free, (Except.ok.inj written).symm⟩

/-- To write a file is to make its folders and then to put it at its place. -/
theorem settled_of_create (created : disk.create path content = .ok after) :
    ∃ made place, disk.makeFolders (Path.parent path) = .ok made ∧
      made.Settled path place ∧ after = made.put place (.file content) := by
  rw [create] at created
  split at created
  · cases created
  · next made making =>
      split at created
      · cases created
      · next written writing =>
          rcases put_of_write writing with ⟨place, located, free, rfl⟩
          refine ⟨made, place, making, ⟨?_, located, free⟩,
            (Except.ok.inj created).symm⟩
          rw [origin, (growsTo_of_makeFrom making).folder]
          exact paved_of_makeFrom making

/-- A disk on which the file of a path can be written. -/
def Accepts (disk : Disk) (path : String) : Prop :=
  ∃ content after, disk.create path content = .ok after

/-- Whether a file can be written does not depend on its content; it is read back,
and it can be written again. -/
theorem Accepts.create (accepts : disk.Accepts path) (content : List UInt8) :
    ∃ after, disk.create path content = .ok after ∧ after.read path = .ok content ∧
      after.Accepts path := by
  rcases accepts with ⟨first, after, created⟩
  rcases settled_of_create created with ⟨made, place, making, settled, rfl⟩
  refine ⟨made.put place (.file content), ?_, settled.read content, ?_⟩
  · -- The folders are made before the content is looked at, and on the disk with
    -- these folders nothing is left to make.
    rw [Disk.create, making]
    have again := settled.create content
    rw [Disk.create, makeFolders, makeFrom_of_paved settled.paved] at again
    exact again
  · exact ⟨content, _, (settled.put content).create content⟩

end RequestFlow.Disk
