import TypeSurface.Project.Failure

/-!
# Set roots

A set root is a directory whose files declare sets: the file `x.d.ts`, wherever it lies below the
root, provides the set `x`.  Of several files the first one counts.
-/

namespace TypeSurface

/-- The file that provides each id, in the order in which the ids were found. -/
abbrev SetIndex := OrderedMap String Path

namespace SetIndex

/-- The id that a file of this name provides. -/
def idOf? (name : String) : Option String :=
  let reversed := name.toList.reverse
  (Text.dropPrefix? ".d.ts".toList.reverse reversed).map fun id ↦ String.ofList id.reverse

/-- The index with a file, unless its name is that of no set or its id is taken. -/
def addFile (index : SetIndex) (root : Path) (names : Location) : SetIndex :=
  match names.getLast?.bind idOf? with
  | none => index
  | some id =>
    if index.contains id then index
    else index.insert id (names.foldl (fun path name ↦ path.join ⟨name⟩) root)

def addRoot (t : FileTree) (index : SetIndex) (root : Path) : Except Failure SetIndex :=
  match t.locate root with
  | .error _ => .error (.rootNotDirectory root)
  | .ok location =>
    if t.get? location = some .directory then
      .ok ((t.filesBelow location).foldl (addFile · root) index)
    else .error (.rootNotDirectory root)

/-- The index of all roots; earlier ones go first. -/
def ofRoots (t : FileTree) (roots : List Path) : Except Failure SetIndex :=
  roots.foldlM (addRoot t) OrderedMap.empty

end SetIndex
end TypeSurface
