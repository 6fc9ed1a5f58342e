import TypeSurface.Diagnostic.Basic
import TypeSurface.Syntax.Directive
import TypeSurface.Syntax.TypeExpr.Equality

/-!
# Source files

What one declaration file says: its directives, its statements, and the defects found while it was
read.
-/

namespace TypeSurface

inductive VariableKind where
  | var
  | block
  | constant
deriving DecidableEq, Repr

namespace VariableKind

/-- The word that declares such a variable. -/
def text : VariableKind → String
  | var => "var"
  | block => "let"
  | constant => "const"

def ofText? (text : String) : Option VariableKind :=
  [var, block, constant].find? (·.text == text)

@[simp] theorem ofText?_text (k : VariableKind) : ofText? k.text = some k := by
  cases k <;> decide

end VariableKind

/-- A member with its place. -/
structure PlacedMember where
  form : MemberForm
  span : Span
deriving DecidableEq

/-- What a statement declares its name to be. -/
inductive StatementBody where
  | interface (typeParams : List TypeParam) (heritage : List TypeExpr)
      (members : List PlacedMember)
  | typeAlias (typeParams : List TypeParam) (type : TypeExpr)
  | variable (kind : VariableKind) (type : TypeExpr)
  | function (signature : Signature)
deriving DecidableEq

structure Statement where
  name : String
  nameSpan : Span
  span : Span
  body : StatementBody
deriving DecidableEq

structure SourceFile where
  file : String
  directives : List Directive
  statements : List Statement
  problems : List Diagnostic

namespace SourceFile

/-- The first directive with the name. -/
def directive? (f : SourceFile) (name : String) : Option Directive :=
  f.directives.find? (·.name == name)

def hasErrors (f : SourceFile) : Bool :=
  f.problems.any (·.isError)

end SourceFile
end TypeSurface
