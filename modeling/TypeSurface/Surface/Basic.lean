import TypeSurface.Declaration.Set
import TypeSurface.Json.Declarations
import TypeSurface.Json.Printer
import TypeSurface.Surface.Fingerprint
import TypeSurface.Surface.Printer

/-!
# Surfaces

A surface is what is global in one mode: the declarations of the base set and of the set that
realises the mode, merged and validated.
-/

namespace TypeSurface

/-- Which set went into a surface. -/
structure SetInfo where
  id : String
  version : String
  isDeprecated : Bool
deriving DecidableEq

def SetInfo.label (s : SetInfo) : String := s.id ++ "@" ++ s.version

def DeclarationSet.info (s : DeclarationSet) : SetInfo := ⟨s.id, s.version, s.isDeprecated⟩

structure Surface where
  mode : Mode
  sets : List SetInfo
  declarations : Declarations
deriving DecidableEq

namespace Surface

def interface? (s : Surface) (name : String) : Option Interface := s.declarations.interface? name

def declares (s : Surface) (name : String) : Bool := s.declarations.declares name

/-- The name of a member in the namespace of its interface. -/
def memberName (interface : String) (key : MemberKey) : String :=
  match key with
  | .named _ | .construct => interface ++ "." ++ key.text
  | .index _ | .call => interface ++ key.text

/-- The names of all members of interfaces, then those of all values. -/
def memberNames (s : Surface) : List String :=
  (s.declarations.types.values.flatMap fun
    | .interface i => i.members.keys.map (memberName i.name)
    | .typeAlias _ => []) ++ s.declarations.values.keys

def endsInterfaceName (c : Char) : Bool := c == '.' || c == '[' || c == '('

/-- The first member that a name such as `Array.length`, `Array[number]` or `Array()` denotes. -/
def resolveMember? (s : Surface) (name : String) : Option (Interface × Member) :=
  let owner := name.toList.takeWhile (!endsInterfaceName ·)
  let key? := match name.toList.drop owner.length with
    | [] => none
    | '.' :: key => some key
    | key => some key
  match key?, s.interface? (String.ofList owner) with
  | some key, some i =>
    (i.members.entries.find? fun (k, _) ↦ k.text == String.ofList key).map fun (_, m) ↦ (i, m)
  | _, _ => none

/-- A head that names the mode and the sets, then the declarations. -/
def text (s : Surface) : String :=
  lineOf "// jsm global type surface" ++ lineOf ("// mode: " ++ s.mode.text) ++
    lineOf ("// sets: " ++ Text.commaSeparated (s.sets.map SetInfo.label)) ++ lineOf "" ++
    s.declarations.text

def fingerprint (s : Surface) : UInt64 := Fingerprint.ofText s.text

def toJson (s : Surface) : Json :=
  .object [("mode", s.mode.toJson),
    ("sets", .ofList (fun info ↦ .object [("id", info.id), ("version", info.version),
      ("deprecated", info.isDeprecated)]) s.sets),
    ("declarations", s.declarations.toJson)]

end Surface
end TypeSurface
