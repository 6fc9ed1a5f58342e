import TypeSurface.Declaration.OrderedMap
import TypeSurface.FileTree.Path

/-!
# File trees

A file tree holds the files and directories that a run can see, each at the names that lead to it
from the root.  The root is always there.  A path is followed name by name, as an operating system
does it: every name but the last has to be that of a directory, and there is a limit to the length
of a name and of a path.
-/

namespace TypeSurface

/-- The names that lead from the root to an entry. -/
abbrev Location := List String

inductive FileEntry where
  | directory
  | file (text : String)
deriving DecidableEq, Repr

structure FileTree where
  entries : OrderedMap Location FileEntry

/-- Why a file or directory cannot be had. -/
inductive FileFault where
  | missing
  | occupied
  | notDirectory
  | isDirectory
  | nameTooLong
  | nulInName
deriving DecidableEq, Repr

def FileFault.message : FileFault → String
  | missing => "No such file or directory (os error 2)"
  | occupied => "File exists (os error 17)"
  | notDirectory => "Not a directory (os error 20)"
  | isDirectory => "Is a directory (os error 21)"
  | nameTooLong => "File name too long (os error 36)"
  | nulInName => "file name contained an unexpected NUL byte"

/-- The most bytes in the name of an entry. -/
def maxNameLength : Nat := 255

/-- The most bytes in a path. -/
def maxPathLength : Nat := 4095

/-- What is wrong with a path wherever it leads. -/
def Path.fault? (p : Path) : Option FileFault :=
  if p.text.toList.contains '\x00' then some .nulInName
  else if maxPathLength < p.text.utf8ByteSize then some .nameTooLong
  else none

/-- The steps that a path takes from the root.  A slash at its end is a step on the spot. -/
def Path.steps (p : Path) : List String :=
  p.pieces.filter (· ≠ "") ++ if p.endsInSlash then ["."] else []

/-- The absolute path of a location. -/
def Location.path (location : Location) : Path := .ofPieces true location

namespace FileTree

def empty : FileTree := ⟨.empty⟩

def get? (t : FileTree) (location : Location) : Option FileEntry :=
  if location = [] then some .directory else t.entries.get? location

def set (t : FileTree) (location : Location) (entry : FileEntry) : FileTree :=
  ⟨t.entries.insert location entry⟩

@[simp] theorem get?_nil (t : FileTree) : t.get? [] = some .directory := rfl

theorem get?_set_self (t : FileTree) {location : Location} (entry : FileEntry)
    (h : location ≠ []) : (t.set location entry).get? location = some entry := by
  simp [get?, set, h]

theorem get?_set_of_ne (t : FileTree) {location other : Location} (entry : FileEntry)
    (h : other ≠ location) : (t.set location entry).get? other = t.get? other := by
  unfold get? set
  rw [OrderedMap.get?_insert_of_ne _ _ h]

/-- The entry of a name in a directory, if there is one. -/
def lookUp (t : FileTree) (here : Location) (name : String) :
    Except FileFault (Option FileEntry) :=
  if maxNameLength < name.utf8ByteSize then .error .nameTooLong
  else .ok (t.get? (here ++ [name]))

/-- Where the steps lead from a directory. -/
def follow (t : FileTree) (here : Location) : List String → Except FileFault Location
  | [] => .ok here
  | step :: steps =>
    match t.get? here with
    | some .directory =>
      if step = "." then follow t here steps
      else if step = ".." then follow t here.dropLast steps
      else
        match t.lookUp here step with
        | .error fault => .error fault
        | .ok (some _) => follow t (here ++ [step]) steps
        | .ok none => .error .missing
    | _ => .error .notDirectory

/-- Where an absolute path leads. -/
def locate (t : FileTree) (p : Path) : Except FileFault Location :=
  match p.fault? with
  | some fault => .error fault
  | none => if p.isAbsolute then t.follow [] p.steps else .error .missing

def find? (t : FileTree) (p : Path) : Option FileEntry :=
  match t.locate p with
  | .ok location => t.get? location
  | .error _ => none

def hasEntry (t : FileTree) (p : Path) : Bool := (t.find? p).isSome

def isDirectory (t : FileTree) (p : Path) : Bool := t.find? p = some .directory

def isFile (t : FileTree) (p : Path) : Bool :=
  match t.find? p with
  | some (.file _) => true
  | _ => false

/-- The text of a file, and where the file is. -/
def readAt (t : FileTree) (p : Path) : Except FileFault (Location × String) :=
  match t.locate p with
  | .error fault => .error fault
  | .ok location =>
    match t.get? location with
    | some (.file text) => .ok (location, text)
    | some .directory => .error .isDirectory
    | none => .error .missing

def read (t : FileTree) (p : Path) : Except FileFault String := (t.readAt p).map Prod.snd

/-- The locations of all files. -/
def files (t : FileTree) : List Location :=
  t.entries.entries.filterMap fun (location, entry) ↦
    match entry with
    | .file _ => some location
    | .directory => none

theorem mem_files_of_get? {t : FileTree} {location : Location} {text : String}
    (h : t.get? location = some (.file text)) : location ∈ t.files := by
  unfold get? at h
  split at h
  · cases h
  · simp only [OrderedMap.get?, Option.map_eq_some_iff, Prod.exists, exists_eq_right] at h
    obtain ⟨key, found⟩ := h
    have same := List.find?_some found
    simp only [decide_eq_true_eq] at same
    subst same
    exact List.mem_filterMap.2 ⟨_, List.mem_of_find?_eq_some found, rfl⟩

theorem mem_files_of_readAt {t : FileTree} {p : Path} {location : Location} {text : String}
    (h : t.readAt p = .ok (location, text)) : location ∈ t.files := by
  unfold readAt at h
  split at h
  · cases h
  · split at h
    · next found =>
      cases h
      exact mem_files_of_get? found
    · cases h
    · cases h

/-- Whether the name of one entry comes before that of another, directory by directory. -/
def comesBefore (a b : Location) : Bool := !decide (b < a)

/-- The files below a directory in the order of their names, each with the names that lead to it
from there. -/
def filesBelow (t : FileTree) (location : Location) : List Location :=
  let below := t.files.filterMap fun file ↦
    if location.isPrefixOf file then some (file.drop location.length) else none
  below.mergeSort comesBefore

end FileTree
end TypeSurface
