/-!
# Configurations

A configuration file says for which mode a surface is built and from what.  It may extend another
file: what it does not say is taken from there.
-/

namespace TypeSurface

structure Config where
  /-- The file that this one extends. -/
  base : Option String
  mode : Option String
  sets : Option (List String)
  roots : Option (List String)
  exclusions : Option (List String)
  hasIndexAudit : Option Bool
deriving DecidableEq, Repr

namespace Config

/-- The name of the file that is looked for in a directory. -/
def fileName : String := "jsmconfig.json"

def blank : Config := ⟨none, none, none, none, none, none⟩

/-- The fields of a configuration file, in their order. -/
inductive Field where
  | base
  | mode
  | sets
  | roots
  | exclusions
  | indexAudit
deriving DecidableEq, Repr

namespace Field

def all : List Field := [.base, .mode, .sets, .roots, .exclusions, .indexAudit]

theorem mem_all (f : Field) : f ∈ all := by
  cases f <;> simp [all]

def name : Field → String
  | base => "extends"
  | mode => "mode"
  | sets => "declarationSets"
  | roots => "setRoots"
  | exclusions => "additionalExclusions"
  | indexAudit => "indexAudit"

def ofName? (name : String) : Option Field := all.find? (·.name == name)

@[simp] theorem ofName?_name (f : Field) : ofName? f.name = some f := by
  cases f <;> rfl

end Field

/-- The names of both lists: those of the first, then those that only the second has. -/
def addNames (names added : List String) : List String :=
  added.foldl (fun all name ↦ if name ∈ all then all else all ++ [name]) names

/-- What `c` says, and for the rest what `inherited` says.  Exclusions add up. -/
def inherit (c inherited : Config) : Config where
  base := none
  mode := c.mode.or inherited.mode
  sets := c.sets.or inherited.sets
  roots := c.roots.or inherited.roots
  exclusions :=
    match inherited.exclusions, c.exclusions with
    | some names, some added => some (addNames names added)
    | names, added => added.or names
  hasIndexAudit := c.hasIndexAudit.or inherited.hasIndexAudit

end Config
end TypeSurface
