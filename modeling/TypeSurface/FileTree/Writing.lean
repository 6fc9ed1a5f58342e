import TypeSurface.FileTree.Basic

/-!
# Writing into a file tree

A file is written into a directory that is there; directories that are missing can be made before.
-/

namespace TypeSurface
namespace FileTree

/-- Whether a step has no name of its own. -/
def isDotted (step : String) : Bool := step == "." || step == ".."

/-- The directory that the steps lead to. -/
def followToDirectory (t : FileTree) (steps : List String) : Except FileFault Location :=
  match t.follow [] steps with
  | .error fault => .error fault
  | .ok location =>
    if t.get? location = some .directory then .ok location else .error .notDirectory

/-- Makes the directory that the last step names. -/
def makeDirectory (t : FileTree) (steps : List String) : Except FileFault FileTree :=
  match steps.getLast? with
  | none => .error .occupied
  | some name =>
    match t.followToDirectory steps.dropLast with
    | .error fault => .error fault
    | .ok above =>
      if isDotted name then .error .occupied
      else
        match t.lookUp above name with
        | .error fault => .error fault
        | .ok (some _) => .error .occupied
        | .ok none => .ok (t.set (above ++ [name]) .directory)

/-- What comes of a directory that could not be made: nothing is lost if it is there. -/
def allowExisting (t : FileTree) (steps : List String) (fault : FileFault) :
    Except FileFault FileTree :=
  match t.followToDirectory steps with
  | .ok _ => .ok t
  | .error _ => .error fault

/-- Makes a directory, given by its steps from the last to the first, and those above it that are
missing. -/
def makeDirectories (t : FileTree) : List String → Except FileFault FileTree
  | [] => .ok t
  | name :: above =>
    let steps := (name :: above).reverse
    match t.makeDirectory steps with
    | .ok t => .ok t
    | .error .missing =>
      match makeDirectories t above with
      | .error fault => .error fault
      | .ok t =>
        match t.makeDirectory steps with
        | .ok t => .ok t
        | .error fault => t.allowExisting steps fault
    | .error fault => t.allowExisting steps fault

/-- Makes the directory that an absolute path names, with all above it. -/
def ensureDirectory (t : FileTree) (p : Path) : Except FileFault FileTree :=
  match p.fault? with
  | some fault => .error fault
  | none => if p.isAbsolute then t.makeDirectories p.components.reverse else .error .missing

/-- Where the file is that an absolute path names, or where it comes to be. -/
def fileLocation (t : FileTree) (p : Path) : Except FileFault Location :=
  match (p.pieces.filter (· ≠ "")).getLast? with
  | none => .error .isDirectory
  | some name =>
    match t.followToDirectory (p.pieces.filter (· ≠ "")).dropLast with
    | .error fault => .error fault
    | .ok above =>
      if isDotted name || p.endsInSlash then .error .isDirectory
      else
        match t.lookUp above name with
        | .error fault => .error fault
        | .ok (some .directory) => .error .isDirectory
        | .ok _ => .ok (above ++ [name])

/-- Writes the file that an absolute path names, in place of what it held before. -/
def write (t : FileTree) (p : Path) (text : String) : Except FileFault FileTree :=
  match p.fault? with
  | some fault => .error fault
  | none =>
    if p.isAbsolute then
      match t.fileLocation p with
      | .error fault => .error fault
      | .ok location => .ok (t.set location (.file text))
    else .error .missing

/-- The tree with the directories that the names lead to, one after the other, from `above` on. -/
def addDirectories (t : FileTree) (above : Location) : List String → FileTree
  | [] => t
  | name :: names =>
    let here := above ++ [name]
    addDirectories (if (t.get? here).isSome then t else t.set here .directory) here names

/-- The tree with a file, and with the directories that lead to it. -/
def addFile (t : FileTree) (location : Location) (text : String) : FileTree :=
  (t.addDirectories [] location.dropLast).set location (.file text)

end FileTree
end TypeSurface
