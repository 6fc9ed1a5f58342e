import TypeSurface.Config.Reader
import TypeSurface.Config.Settings

/-!
# Inherited configurations

A configuration file is read with all the files that it extends, one after the other.  Each file
fixes its own paths before it is joined to the others.  A chain that comes back to one of its files
is refused.
-/

namespace TypeSurface
namespace Config

/-- The configuration with its paths no longer relative to `directory`. -/
def anchor (c : Config) (directory : Path) : Config :=
  { c with
    base := none
    sets := c.sets.map fun texts ↦ texts.map fun text ↦
      match SetSource.ofText text directory with
      | .byFile path => path.text
      | .byId _ => text
    roots := c.roots.map fun roots ↦ roots.map fun root ↦ (directory.join ⟨root⟩).text }

/-- The file that a configuration at `path` extends. -/
def basePath (path : Path) (base : String) : Path :=
  path.directory.join (Path.withExtension ⟨base⟩ "json")

/-- The files that have not been visited. -/
def unvisited (t : FileTree) (visited : List Location) : List Location :=
  t.files.filter (· ∉ visited)

theorem length_unvisited_cons_lt {t : FileTree} {visited : List Location} {location : Location}
    (isFile : location ∈ t.files) (isNew : location ∉ visited) :
    (unvisited t (location :: visited)).length < (unvisited t visited).length := by
  have same : unvisited t (location :: visited) =
      (unvisited t visited).filter (· ≠ location) := by
    simp [unvisited, List.filter_filter, not_or]
  rw [same]
  refine List.length_filter_lt_length_iff_exists.2 ⟨location, ?_, by simp⟩
  exact List.mem_filter.2 ⟨isFile, by simpa using isNew⟩

/-- Reads a file that is extended by those at `visited`. -/
def loadFrom (t : FileTree) (visited : List Location) (path : Path) : Except Failure Config :=
  match _h : t.readAt path with
  | .error fault => .error (.unreadableConfig path fault)
  | .ok (location, text) =>
    if _isOld : location ∈ visited then .error (.cyclicConfig location.path)
    else
      match ofText text with
      | .error fault => .error (.malformedConfig path fault)
      | .ok c =>
        match c.base with
        | none => .ok (c.anchor path.directory)
        | some base =>
          match loadFrom t (location :: visited) (basePath path base) with
          | .error failure => .error failure
          | .ok inherited => .ok ((c.anchor path.directory).inherit inherited)
termination_by (unvisited t visited).length
decreasing_by exact length_unvisited_cons_lt (FileTree.mem_files_of_readAt _h) _isOld

def load (t : FileTree) (path : Path) : Except Failure Config := loadFrom t [] path

/-- The configuration file of a project, which is a file or a directory; without a project, the one
in the current directory, if there is one. -/
def find (t : FileTree) (current : Path) (project : Option Path) : Except Failure (Option Path) :=
  match project with
  | none =>
    let path := current.join ⟨fileName⟩
    .ok (if t.isFile path then some path else none)
  | some project =>
    let named := current.join project
    let path := if t.isDirectory named then named.join ⟨fileName⟩ else named
    if !t.hasEntry path then .error (.missingConfig path)
    else if !t.isFile path then .error (.configNotFile path)
    else .ok (some path)

end Config
end TypeSurface
