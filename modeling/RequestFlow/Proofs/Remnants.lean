import RequestFlow.Proofs.Folders

/-!
# What a write that fails leaves behind

The folders of a file are made one in the other and then the file is written.
Where that is broken off, the folders made so far stay.  Main statement: the disk
has grown by folders at most, the file cannot be read for the very fault that
broke off the write, and if it could not be read for another reason before, it was
missing.
-/

namespace RequestFlow

/-! ## The folder of a path -/

namespace Path

/-- A slash between two paths puts their parts one behind the other. -/
theorem parts_append_slash (front rest : String) :
    parts (front ++ "/" ++ rest) = parts front ++ parts rest := by
  have text :
      (front ++ "/" ++ rest).toList = front.toList ++ '/' :: rest.toList := by
    simp only [String.toList_append, List.append_assoc]
    rfl
  rw [parts, pieces, text, Text.splitAt_append_cons rfl, List.map_append,
    List.filter_append]
  rfl

/-- A name of a folder or a file. -/
structure IsName (name : String) : Prop where
  part : isPart name = true
  whole : '/' ∉ name.toList

theorem isName_of_mem_parts {path name : String} (member : name ∈ parts path) :
    IsName name := by
  rcases List.mem_filter.mp member with ⟨among, part⟩
  rcases List.mem_map.mp among with ⟨piece, split, rfl⟩
  refine ⟨part, fun slash => ?_⟩
  rw [String.toList_ofList] at slash
  have kept := Text.not_separator_of_mem_splitAt split '/' slash
  cases kept

theorem IsName.parts_eq {name : String} (valid : IsName name) :
    parts name = [name] := by
  have whole : ∀ character ∈ name.toList, (character == '/') = false := by
    intro character member
    apply beq_eq_false_iff_ne.mpr
    rintro rfl
    exact valid.whole member
  rw [parts, pieces, Text.splitAt_eq_singleton whole, List.map_singleton,
    String.ofList_toList, List.filter_cons_of_pos valid.part, List.filter_nil]

theorem IsName.isAbsolute_append {name : String} (valid : IsName name)
    (rest : String) : isAbsolute (name ++ rest) = false := by
  rw [isAbsolute, String.toList_append, List.head?_append]
  cases letters : name.toList with
  | nil =>
      rcases String.toList_eq_nil_iff.mp letters with rfl
      cases valid.part
  | cons first others =>
      apply beq_eq_false_iff_ne.mpr
      intro same
      rcases Option.some.inj same with rfl
      exact valid.whole (letters ▸ List.mem_cons_self)

section Names

variable {names : List String}

/-- A path made of names has them as its parts. -/
theorem parts_intercalate (valid : ∀ name ∈ names, IsName name) :
    parts ("/".intercalate names) = names := by
  induction names with
  | nil => rfl
  | cons name names hypothesis =>
      rw [List.forall_mem_cons] at valid
      cases names with
      | nil => rw [String.intercalate_singleton, valid.1.parts_eq]
      | cons next names =>
          rw [String.intercalate_cons_cons, parts_append_slash, valid.1.parts_eq,
            hypothesis valid.2]
          rfl

theorem isAbsolute_intercalate (valid : ∀ name ∈ names, IsName name) :
    isAbsolute ("/".intercalate names) = false := by
  cases names with
  | nil => rfl
  | cons name names =>
      have first := valid name List.mem_cons_self
      cases names with
      | nil =>
          rw [String.intercalate_singleton]
          simpa using first.isAbsolute_append ""
      | cons next names =>
          rw [String.intercalate_cons_cons, String.append_assoc]
          exact first.isAbsolute_append _

end Names

theorem isName_of_mem_dropLast {path : String} :
    ∀ name ∈ (parts path).dropLast, IsName name :=
  fun _ member => isName_of_mem_parts (List.dropLast_subset _ member)

/-- The folder of a path has the parts of the path but for the last one. -/
theorem parts_parent (path : String) :
    parts (parent path) = (parts path).dropLast := by
  rw [parent]
  split
  · have slash := parts_append_slash "" ("/".intercalate (parts path).dropLast)
    rw [String.empty_append] at slash
    rw [slash, parts_intercalate isName_of_mem_dropLast]
    rfl
  · rw [String.empty_append, parts_intercalate isName_of_mem_dropLast]

theorem isAbsolute_parent (path : String) :
    isAbsolute (parent path) = isAbsolute path := by
  rw [parent]
  split
  · next absolute =>
      rw [absolute, isAbsolute, String.toList_append]
      rfl
  · next relative =>
      rw [String.empty_append, isAbsolute_intercalate isName_of_mem_dropLast]
      exact (Bool.eq_false_iff.mpr relative).symm

end Path

namespace Disk

variable {disk after : Disk} {path : String} {place : List String}

/-- A path and its parent are followed from the same folder. -/
theorem origin_parent (disk : Disk) (path : String) :
    disk.origin (Path.parent path) = disk.origin path := by
  rw [origin, origin, Path.isAbsolute_parent]

/-! ## Paths that lead nowhere -/

/-- A file cannot be entered. -/
theorem enter_of_file {content : List UInt8}
    (file : disk.node? place = some (.file content)) :
    disk.enter place = .error .notFolder := by
  rw [enter, file]

/-- On a disk that has grown a path fails for the same fault as before, unless
something was missing on its way. -/
theorem GrowsTo.follow_error (grows : disk.GrowsTo after) {pieces : List String}
    {fault : DiskFault} (failed : disk.follow place pieces = .error fault) :
    after.follow place pieces = .error fault ∨ fault = .missing := by
  induction pieces generalizing place with
  | nil => cases failed
  | cons piece pieces hypothesis =>
      have more := List.cons_ne_nil piece pieces
      cases holds : disk.node? place with
      | none =>
          rw [follow_of_enter (by rw [enter, holds]) more] at failed
          exact .inr (Except.error.inj failed).symm
      | some node =>
          have still := grows.node?_eq holds
          cases node with
          | file content =>
              rw [follow_of_enter (enter_of_file holds) more] at failed
              rw [follow_of_enter (enter_of_file still) more]
              exact .inl failed
          | folder =>
              rcases exists_next place piece with ⟨next, leads⟩
              rw [leads disk pieces holds] at failed
              rw [leads after pieces still]
              exact hypothesis failed

/-- Where the folders of a path cannot be made, nothing that lies in them can be
reached. -/
theorem follow_of_broken {parts rest pieces : List String} {broken : Broken}
    (failed : disk.makeFrom place parts = .error broken)
    (same : pieces.filter Path.isPart = parts ++ rest) (inside : rest ≠ []) :
    broken.disk.follow place pieces = .error broken.fault := by
  -- Over the pieces of the path, of which those that say something are the
  -- folders to be made.
  induction pieces generalizing disk place parts with
  | nil => exact (inside (List.append_eq_nil_iff.mp same.symm).2).elim
  | cons piece pieces hypothesis =>
      cases parts with
      | nil => cases failed
      | cons part parts =>
          have grows := growsTo_of_broken failed
          cases entered : disk.enter place with
          | error fault =>
              rw [makeFrom, entered] at failed
              rcases Except.error.inj failed with rfl
              exact follow_of_enter entered (List.cons_ne_nil _ _)
          | ok place =>
              rcases eq_of_enter entered with ⟨folder, rfl⟩
              have still := grows.node?_eq folder
              by_cases named : Path.isPart piece = true
              · rw [List.filter_cons_of_pos named, List.cons_append,
                  List.cons.injEq] at same
                rcases same with ⟨rfl, same⟩
                rw [follow_of_isPart still named]
                rw [makeFrom, entered] at failed
                dsimp only at failed
                split at failed
                · next content file =>
                    rcases Except.error.inj failed with rfl
                    apply follow_of_enter (enter_of_file file)
                    rintro rfl
                    exact inside (List.append_eq_nil_iff.mp same.symm).2
                · exact hypothesis failed same
                · exact hypothesis failed same
              · rw [List.filter_cons_of_neg named] at same
                rw [follow_of_not_isPart still named]
                exact hypothesis failed same

/-! ## Files that cannot be written -/

/-- What is left where a file could not be written. -/
structure Blocked (disk after : Disk) (path : String) (fault : DiskFault) :
    Prop where
  /-- Folders may have been made. -/
  grows : disk.GrowsTo after
  /-- The file cannot be read either. -/
  read : after.read path = .error fault
  /-- So it was before, unless it was missing. -/
  before : disk.read path = .error fault ∨ disk.read path = .error .missing

/-- New folders do not mend a path, unless a missing folder was its fault. -/
theorem GrowsTo.locate_error (grows : disk.GrowsTo after) {fault : DiskFault}
    (failed : disk.locate path = .error fault) :
    after.locate path = .error fault ∨ fault = .missing := by
  rw [locate] at failed ⊢
  split at failed
  · exact .inr (Except.error.inj failed).symm
  · next present =>
      rw [if_neg present, origin, grows.folder]
      exact grows.follow_error failed

/-- A file that cannot be read on a disk that has grown could not be read before
for the same fault, unless it was missing. -/
theorem GrowsTo.read_before (grows : disk.GrowsTo after) {fault : DiskFault}
    (unread : after.read path = .error fault) :
    disk.read path = .error fault ∨ disk.read path = .error .missing := by
  cases located : disk.locate path with
  | error earlier =>
      have failed : disk.read path = .error earlier := by rw [read, located]
      rcases grows.locate_error located with same | rfl
      · have again : after.read path = .error earlier := by rw [read, same]
        rw [failed, ← again]
        exact .inl unread
      · exact .inr failed
  | ok place =>
      have found :=
        locate_mono located grows.folder fun _ folder => grows.node?_eq folder
      rw [read, found] at unread
      rw [read, located]
      dsimp only at unread ⊢
      cases holds : disk.node? place with
      | none => exact .inr rfl
      | some node =>
          rw [grows.node?_eq holds] at unread
          exact .inl unread

/-- Where the folders of a path could not be made, reading the path comes to the
same fault. -/
theorem read_of_makeFolders {broken : Broken}
    (failed : disk.makeFolders (Path.parent path) = .error broken) :
    broken.disk.read path = .error broken.fault := by
  have grows := growsTo_of_broken failed
  rw [makeFolders, origin_parent, Path.parts_parent] at failed
  have some : Path.parts path ≠ [] := by
    intro none
    rw [none] at failed
    cases failed
  have present : ¬ path.isEmpty = true := by
    intro empty
    rcases String.isEmpty_iff.mp empty with rfl
    exact some rfl
  have split : (Path.pieces path).filter Path.isPart =
      (Path.parts path).dropLast ++ [(Path.parts path).getLast some] :=
    (List.dropLast_concat_getLast some).symm
  have reached := follow_of_broken failed split (List.cons_ne_nil _ _)
  rw [read, locate, if_neg present, origin, grows.folder]
  rw [origin] at reached
  rw [reached]

/-- Nor is anything read where nothing could be written: both follow the path in
the same way. -/
theorem read_of_write {fault : DiskFault} {content : List UInt8}
    (failed : disk.write path content = .error fault) :
    disk.read path = .error fault := by
  rw [write] at failed
  rw [read]
  cases located : disk.locate path with
  | error earlier =>
      rw [located] at failed
      exact congrArg Except.error (Except.error.inj failed)
  | ok place =>
      rw [located] at failed
      dsimp only at failed ⊢
      split at failed
      · next folder =>
          rw [folder]
          exact congrArg Except.error (Except.error.inj failed)
      · cases failed

/-- A write that fails leaves folders at most, and the file cannot be read for the
same fault. -/
theorem blocked_of_create {content : List UInt8} {broken : Broken}
    (failed : disk.create path content = .error broken) :
    disk.Blocked broken.disk path broken.fault := by
  rw [create] at failed
  split at failed
  · next earlier making =>
      rcases Except.error.inj failed with rfl
      have read := read_of_makeFolders making
      have grows := growsTo_of_broken making
      exact ⟨grows, read, grows.read_before read⟩
  · next made making =>
      have grows := growsTo_of_makeFrom making
      split at failed
      · next fault writing =>
          rcases Except.error.inj failed with rfl
          have read := read_of_write writing
          exact ⟨grows, read, grows.read_before read⟩
      · cases failed

/-- A folder is made on the way to a place where a folder stands already. -/
example :
    let disk := (bare "/home").put ["home", "runs.json"] .folder
    let after := left (disk.create "new/../runs.json" [])
    disk.read "new/../runs.json" = .error .missing ∧
      after.node? ["home", "new"] = some .folder ∧
        after.read "new/../runs.json" = .error .isFolder :=
  ⟨rfl, rfl, rfl⟩

end Disk

end RequestFlow
