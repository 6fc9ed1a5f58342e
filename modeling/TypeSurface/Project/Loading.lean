import TypeSurface.Catalog.Basic
import TypeSurface.Config.Settings
import TypeSurface.Project.SetIndex
import TypeSurface.Text.Source

/-!
# Loading declaration sets

A set is loaded behind all the sets that it refers to, each set and each file once.  Defects are
gathered, so that all broken sets are reported together; only a file that cannot be read stops the
loading.
-/

namespace TypeSurface

/-- What has been loaded. -/
structure Loading where
  sets : List DeclarationSet
  /-- The ids of the sets that are installed or being installed, with the files they came from. -/
  provided : List (String × String)
  /-- The files that have been read, or looked up in the catalog. -/
  seen : List Path
  sources : List Source
  syntaxErrors : List Diagnostic
  configErrors : List Diagnostic
  /-- The file that stopped the loading. -/
  failure? : Option Failure

namespace Loading

def start : Loading := ⟨[], [], [], [], [], [], none⟩

def provider? (l : Loading) (id : String) : Option String :=
  (l.provided.find? (·.1 == id)).map (·.2)

def hasSeen (l : Loading) (file : Path) : Bool := l.seen.any file.sameAs

/-- The text of a set that has to be parsed, under the name that its diagnostics carry; or what is
loaded already or cannot be loaded at all. -/
inductive Fetched where
  | settled (l : Loading)
  | text (l : Loading) (source : Source)

/-- A file that is seen for the first time, with its text. -/
def enter (l : Loading) (file : Path) (text : String) : Loading :=
  { l with seen := file :: l.seen, sources := l.sources ++ [⟨file.text, text⟩] }

def fetchFile (t : FileTree) (l : Loading) (file : Path) : Fetched :=
  if l.hasSeen file then .settled l
  else
    match t.read file with
    | .ok text => .text (l.enter file text) ⟨file.text, text⟩
    | .error fault => .settled { l with failure? := some (.unreadableSet file fault) }

def fetchEmbedded (l : Loading) (id : String) : Fetched :=
  match Catalog.get? id with
  | none => .settled { l with configErrors := l.configErrors ++ [Catalog.unknownSet id] }
  | some set =>
    if l.hasSeen ⟨set.file⟩ then .settled l
    else .text (l.enter ⟨set.file⟩ set.text) ⟨set.file, set.text⟩

/-- An id that is provided already is not looked up again; set roots go before the catalog.  Nothing
is looked up once the loading has stopped. -/
def fetch (t : FileTree) (index : SetIndex) (l : Loading) (source : SetSource) : Fetched :=
  if l.failure?.isSome then .settled l
  else
    match source with
    | .byFile file => l.fetchFile t file
    | .byId id =>
      if (l.provider? id).isSome then .settled l
      else
        match index.get? id with
        | some file => l.fetchFile t file
        | none => l.fetchEmbedded id

def duplicateId (id first second : String) : Diagnostic :=
  .global .duplicateSetId [id, first, second]

def provide (l : Loading) (set : DeclarationSet) : Loading :=
  { l with provided := (set.id, set.file) :: l.provided }

/-- A set whose references are loaded, unless the loading has stopped at one of them. -/
def add (l : Loading) (set : DeclarationSet) : Loading :=
  if l.failure?.isSome then l else { l with sets := l.sets ++ [set] }

/-- Installs a set behind those that it refers to, which `follow` loads. -/
def install (l : Loading) (set : DeclarationSet) (follow : SetSource → Loading → Loading) :
    Loading :=
  match l.provider? set.id with
  | some first => { l with configErrors := l.configErrors ++ [duplicateId set.id first set.file] }
  | none =>
    let references := set.references.map SetSource.byId
    (references.foldl (fun l source ↦ follow source l) (l.provide set)).add set

/-- Loads a set behind those that it refers to.  Nothing is loaded at depth zero. -/
def load (t : FileTree) (index : SetIndex) : Nat → SetSource → Loading → Loading
  | 0, _, l => l
  | depth + 1, source, l =>
    match l.fetch t index source with
    | .settled l => l
    | .text l source =>
      match DeclarationSet.parse source.file source.text with
      | .error defects => { l with syntaxErrors := l.syntaxErrors ++ defects }
      | .ok set => l.install set (load t index depth)

/-- The depth at which a set is loaded that is asked for, so that `maxReferenceDepth` references are
followed one after the other. -/
def firstDepth : Nat := maxReferenceDepth + 1

def run (t : FileTree) (index : SetIndex) (sources : List SetSource) : Loading :=
  sources.foldl (fun l source ↦ load t index firstDepth source l) start

/-- The defects of the sets, those of their texts before all others. -/
def error? (l : Loading) : Option SurfaceError :=
  if !l.syntaxErrors.isEmpty then some (.unreadable l.syntaxErrors)
  else if !l.configErrors.isEmpty then some (.configuration l.configErrors)
  else none

/-- What has been loaded, unless the loading has stopped. -/
def result (l : Loading) : Except Failure Loading :=
  match l.failure? with
  | some failure => .error failure
  | none => .ok l

end Loading
end TypeSurface
