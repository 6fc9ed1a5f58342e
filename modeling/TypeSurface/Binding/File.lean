import TypeSurface.Binding.Statement
import TypeSurface.Syntax.Parser.File

/-!
# Binding files

A file becomes a declaration set if it has no error, its head names the set, and its repeated
declarations go together.  Otherwise all its defects are reported at once.
-/

namespace TypeSurface
namespace Binding

/-- What the `<set ... />` directive of a file says. -/
structure Header where
  id : String
  version : String
  mode : Option Mode
  isDeprecated : Bool

/-- The header of files that lack one. -/
def Header.blank : Header := ⟨"", "", none, false⟩

def directiveProblem (f : SourceFile) (d : Directive) (name : String) : Diagnostic :=
  .atSpan .malformedDirective [name] f.file d.span

/-- The mode that a header names, and none if it names none. -/
def headerMode (f : SourceFile) (d : Directive) : Except Diagnostic (Option Mode) :=
  match d.attribute? "mode" with
  | none => .ok none
  | some text =>
    match Mode.ofText? text with
    | some mode => .ok (some mode)
    | none => .error (.atSpan .unknownMode [text, Mode.expectedTexts] f.file d.span)

def header (f : SourceFile) : Except Diagnostic Header :=
  match f.directive? "set" with
  | none => .error (.ofRule .missingSetHeader [f.file] f.file 0 0)
  | some d =>
    match (d.attribute? "id").filter (· ≠ "") with
    | none => .error (directiveProblem f d "set")
    | some id => (headerMode f d).map fun mode ↦
      ⟨id, (d.attribute? "version").getD "0.0.0", mode,
        (d.attribute? "deprecated").any (Text.lowerAscii · == "true")⟩

/-- The id that each `<reference ... />` names, or the defect that it names none. -/
def references (f : SourceFile) : List (Except Diagnostic String) :=
  (f.directives.filter (·.name == "reference")).map fun d ↦
    match d.attribute? "set" with
    | some id => .ok id
    | none => .error (directiveProblem f d "reference")

def problemOf? {α : Type} : Except Diagnostic α → Option Diagnostic
  | .error d => some d
  | .ok _ => none

end Binding

namespace DeclarationSet

open Binding

def ofSourceFile (f : SourceFile) : Except (List Diagnostic) DeclarationSet :=
  let header := Binding.header f
  let head := match header with | .ok h => h | .error _ => .blank
  let references := Binding.references f
  let bound := Binding.statements ⟨head.id, f.file⟩ f.statements
  let problems := f.problems.filter (·.isError) ++ (problemOf? header).toList ++
    references.filterMap problemOf? ++ bound.conflicts
  if problems.isEmpty then
    .ok ⟨head.id, head.version, head.mode, head.isDeprecated, f.file,
      references.filterMap Except.toOption, bound.value⟩
  else .error problems

def parse (file source : String) : Except (List Diagnostic) DeclarationSet :=
  ofSourceFile (.parse file source)

end DeclarationSet
end TypeSurface
