import TypeSurface.CommandLine.Listing
import TypeSurface.CommandLine.Options
import TypeSurface.Config.Inheritance
import TypeSurface.FileTree.Writing
import TypeSurface.Json.Profile
import TypeSurface.Project.Build

/-!
# Runs

A run does what the options ask for in a file tree.  Its outcome holds what is printed, what is
reported, and the tree with the file that was written.
-/

namespace TypeSurface

/-- The settings of the configuration file, if there is one, and what the options put in their
place. -/
def Options.settings (o : Options) (t : FileTree) (current : Path) : Except Failure Settings := do
  let inherited ← match ← Config.find t current o.project with
    | some path => (← Config.load t path).settings path.directory
    | none => pure Settings.default
  let mode ← match o.mode with
    | some text => Mode.ofTextOrFail text
    | none => pure inherited.mode
  return {
    mode
    sets := match o.sets with
      | some texts => (texts.filter fun text ↦ Text.trimmed text ≠ "").map
          fun text ↦ SetSource.ofText text current
      | none => inherited.sets
    roots := inherited.roots ++ o.roots.map current.join
    exclusions := Config.addNames inherited.exclusions o.exclusions
    hasIndexAudit := inherited.hasIndexAudit && !o.skipsIndexAudit
  }

structure Outcome where
  diagnostics : List Diagnostic
  output : String
  sources : List Source
  /-- The file into which the surface was written. -/
  written : Option Path
  files : FileTree

namespace Outcome

/-- An outcome that only prints. -/
def printing (t : FileTree) (output : String) : Outcome := ⟨[], output, [], none, t⟩

def hasErrors (o : Outcome) : Bool := o.diagnostics.any (·.isError)

def exitCode (o : Outcome) : Nat := if o.hasErrors then 1 else 0

end Outcome

def Surface.emitted (s : Surface) (emission : Emission) (isPretty : Bool) : String :=
  match emission with
  | .declarations => s.text
  | .json => lineOf (if isPretty then s.toJson.indented else s.toJson.compact)

def Profile.emitted (p : Profile) (emission : Option Emission) : String :=
  match emission with
  | some .json => lineOf p.toJson.indented
  | _ => p.listing

/-- The tree with a file at `path`, in a directory that is made if it is missing. -/
def FileTree.output (t : FileTree) (path : Path) (text : String) : Except Failure FileTree := do
  let t ← (t.ensureDirectory path.directory).mapError (.outputDirectory path.directory)
  (t.write path text).mapError (.unwritable path)

namespace Options

/-- Builds a surface and prints it, or writes it into a file.  Without a surface there are only
diagnostics. -/
def runBuild (o : Options) (settings : Settings) (t : FileTree) (current : Path) :
    Except Failure Outcome := do
  let built ← settings.build t
  match built.surface? with
  | none => return ⟨built.diagnostics, "", built.sources, none, t⟩
  | some surface =>
    let text := surface.emitted (o.emission.getD .declarations) o.isPretty
    match o.out with
    | none => return ⟨built.diagnostics, text, built.sources, none, t⟩
    | some out =>
      let path := current.join out
      let t ← t.output path text
      return ⟨built.diagnostics, "", built.sources, some path, t⟩

def run (o : Options) (t : FileTree) (current : Path) : Except Failure Outcome := do
  if o.listsSets then return .printing t Catalog.listing
  let settings ← o.settings t current
  if o.showsConfig then return .printing t (lineOf settings.toJson.indented)
  if o.showsProfile then
    let profile := (Profile.standard settings.mode).exclude settings.exclusions
    return .printing t (profile.emitted o.emission)
  o.runBuild settings t current

end Options
end TypeSurface
