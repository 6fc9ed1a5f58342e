import TypeSurface.Json.TypeExpr
import TypeSurface.Syntax.SourceFile

/-!
# JSON form of source files
-/

namespace TypeSurface

open Json

def Span.toJson (s : Span) : Json := .object [("start", s.start), ("end", s.stop)]

def Directive.toJson (d : Directive) : Json :=
  .object [("name", d.name),
    ("attributes", ofList (fun (key, value) ↦ .array [key, value]) d.attributes),
    ("span", d.span.toJson)]

def PlacedMember.toJson (m : PlacedMember) : Json :=
  .object [("kind", m.form.toJson), ("span", m.span.toJson)]

def VariableKind.toJson : VariableKind → Json
  | var => "Var"
  | block => "Let"
  | constant => "Const"

def Statement.toJson (s : Statement) : Json :=
  let places : List (String × Json) := [("span", s.span.toJson), ("name_span", s.nameSpan.toJson)]
  match s.body with
  | .interface typeParams heritage members =>
    tagged "Interface" (.object ([("name", .string s.name),
      ("type_params", ofList TypeParam.toJson typeParams),
      ("heritage", ofList TypeExpr.toJson heritage),
      ("members", ofList PlacedMember.toJson members)] ++ places))
  | .typeAlias typeParams type =>
    tagged "TypeAlias" (.object ([("name", .string s.name),
      ("type_params", ofList TypeParam.toJson typeParams), ("ty", type.toJson)] ++ places))
  | .variable kind type =>
    tagged "Variable" (.object ([("kind", kind.toJson), ("name", .string s.name),
      ("ty", type.toJson)] ++ places))
  | .function signature =>
    tagged "Function" (.object ([("name", .string s.name), ("signature", signature.toJson)] ++
      places))

def SourceFile.toJson (f : SourceFile) : Json :=
  .object [("file_name", f.file), ("directives", ofList Directive.toJson f.directives),
    ("statements", ofList Statement.toJson f.statements)]

end TypeSurface
