import TypeSurface.Binding.File
import TypeSurface.Catalog.Base
import TypeSurface.Catalog.HostNative
import TypeSurface.Catalog.Js
import TypeSurface.Catalog.JsLegacy
import TypeSurface.Surface.Stage

/-!
# Catalog

The declaration sets that come with the library, and how a set is found with all the sets it needs:
those first, each once.
-/

namespace TypeSurface

/-- How many references are followed one after the other. -/
def maxReferenceDepth : Nat := 32

structure EmbeddedSet where
  id : String
  file : String
  text : String
deriving DecidableEq

namespace EmbeddedSet

def size (s : EmbeddedSet) : Nat := s.text.utf8ByteSize

end EmbeddedSet

namespace Catalog

def base : EmbeddedSet := ⟨"base", "base.d.ts", baseText⟩
def js : EmbeddedSet := ⟨"js", "js.d.ts", jsText⟩
def jsLegacy : EmbeddedSet := ⟨"js.legacy", "js.legacy.d.ts", jsLegacyText⟩
def hostNative : EmbeddedSet := ⟨"host-native", "host-native.d.ts", hostNativeText⟩

def all : List EmbeddedSet := [base, js, jsLegacy, hostNative]

def get? (id : String) : Option EmbeddedSet := all.find? (·.id == id)

def getByFile? (file : String) : Option EmbeddedSet := all.find? (·.file == file)

/-- The set that realises a mode when no other is asked for. -/
def defaultFor : Mode → EmbeddedSet
  | .js => js
  | .hostNative => hostNative

/-- The id that a line refers to, if it holds a reference. -/
def lineReference? (line : List Char) : Option (List Char) := do
  let tag ← Text.dropPrefix? ['/', '/', '/'] line
  let tag := Text.trimStart tag
  let _ ← Text.dropPrefix? "<reference".toList tag
  let (_, value) ← Text.splitAt? "set=\"".toList tag
  let (id, _) ← Text.splitAt? ['"'] value
  return id

/-- The ids that the lines of three slashes at the head of a text refer to.  Empty lines may stand
between them. -/
def references (text : String) : List String :=
  let trimmed := (Text.lines text.toList).map Text.trim
  let head := (trimmed.filter (!·.isEmpty)).takeWhile fun line ↦
    (Text.dropPrefix? ['/', '/', '/'] line).isSome
  (head.filterMap lineReference?).map String.ofList

def unknownSet (id : String) : Diagnostic := .global .unknownDeclarationSet [id]

/-- What a search has met and what it has resolved. -/
structure Search where
  seen : List String
  resolved : List EmbeddedSet

mutual

/-- A set behind all the sets it needs, unless it has been seen before.  Beyond `depth` references
a set is taken without those it needs. -/
def visit (depth : Nat) (set : EmbeddedSet) (s : Search) : Except Diagnostic Search :=
  if s.seen.contains set.id then .ok s
  else
    let entered : Search := { s with seen := set.id :: s.seen }
    match depth with
    | 0 => .ok { entered with resolved := entered.resolved ++ [set] }
    | depth + 1 =>
      (visitAll depth (references set.text) entered).map fun found ↦
        { found with resolved := found.resolved ++ [set] }
termination_by (depth, 0)

def visitAll (depth : Nat) (ids : List String) (s : Search) : Except Diagnostic Search :=
  match ids with
  | [] => .ok s
  | id :: ids =>
    match get? id with
    | none => .error (unknownSet id)
    | some set =>
      match visit depth set s with
      | .error d => .error d
      | .ok s => visitAll depth ids s
termination_by (depth, ids.length + 1)

end

/-- A set and the sets it needs, those first. -/
def resolve (id : String) : Except Diagnostic (List EmbeddedSet) :=
  match get? id with
  | none => .error (unknownSet id)
  | some set => (visit maxReferenceDepth set ⟨[], []⟩).map (·.resolved)

/-- The parsed sets, in the order of `all`. -/
def parsed : List (EmbeddedSet × Except (List Diagnostic) DeclarationSet) :=
  all.map fun s ↦ (s, DeclarationSet.parse s.file s.text)

def load (id : String) : Except SurfaceError DeclarationSet :=
  match parsed.find? fun (s, _) ↦ s.id == id with
  | none => .error (.configuration [unknownSet id])
  | some (_, .ok set) => .ok set
  | some (_, .error defects) => .error (.unreadable defects)

def loadWithReferences (id : String) : Except SurfaceError (List DeclarationSet) :=
  match resolve id with
  | .error d => .error (.configuration [d])
  | .ok sets => sets.mapM fun s ↦ load s.id

end Catalog
end TypeSurface
