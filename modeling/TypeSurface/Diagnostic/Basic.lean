import TypeSurface.Diagnostic.Rule
import TypeSurface.Diagnostic.Template
import TypeSurface.Text.Span

/-!
# Diagnostics

A diagnostic reports one defect at a place in a file, or at no place when it concerns the
configuration as a whole.  Related information points at the other declarations that take part.
-/

namespace TypeSurface

/-- A further place that a diagnostic refers to. -/
structure Related where
  file : String
  start : Nat
  length : Nat
  message : String
deriving DecidableEq, Repr

structure Diagnostic where
  file : String
  start : Nat
  length : Nat
  message : String
  category : Category
  code : Nat
  related : List Related
deriving DecidableEq, Repr

namespace Diagnostic

def error (file : String) (start length : Nat) (message : String) (code : Nat) : Diagnostic :=
  ⟨file, start, length, message, .error, code, []⟩

def ofRule (rule : Rule) (args : List String) (file : String) (start length : Nat) : Diagnostic :=
  ⟨file, start, length, Template.fill rule.template args, rule.category, rule.code, []⟩

/-- A code without a rule reports its arguments, as an error. -/
def ofCode (code : Nat) (args : List String) (file : String) (start length : Nat) : Diagnostic :=
  match Rule.ofCode? code with
  | some rule => ofRule rule args file start length
  | none => error file start length (" ".intercalate args) code

/-- The rule broken at a span of a file. -/
def atSpan (rule : Rule) (args : List String) (file : String) (span : Span) : Diagnostic :=
  ofRule rule args file span.start span.length

/-- The rule broken by no particular file. -/
def global (rule : Rule) (args : List String) : Diagnostic :=
  ofRule rule args "" 0 0

def withRelated (d : Diagnostic) (r : Related) : Diagnostic :=
  { d with related := d.related ++ [r] }

def isError (d : Diagnostic) : Bool := d.category = .error

def family (d : Diagnostic) : Family := Family.ofCode d.code

@[simp] theorem ofCode_code (rule : Rule) : ofCode rule.code = ofRule rule := by
  funext args file start length
  simp [ofCode]

end Diagnostic
end TypeSurface
