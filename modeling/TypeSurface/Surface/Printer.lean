import TypeSurface.Declaration.Basic

/-!
# Declaration text

Declarations are printed in their order, types first: each interface and each alias with an empty
line behind it, then variables and functions, one line to each overload.
-/

namespace TypeSurface

def lineOf (text : String) : String := text ++ "\n"

namespace Member

/-- The members of a body stand four columns to the right. -/
def indent : String := "    "

/-- The name as written, and the text of the key for members without a name. -/
def nameText (m : Member) : String :=
  match m.name with
  | some name => name.text
  | none => m.key.text

/-- The lines of a member in the body of its interface. -/
def lines (m : Member) : List String :=
  match m.body with
  | .property type =>
    [m.readonlyText ++ m.nameText ++ m.optionalText ++ ": " ++ type.text ++ ";"]
  | .index keyName keyType value =>
    [m.readonlyText ++ "[" ++ keyName ++ ": " ++ keyType.text ++ "]: " ++ value.text ++ ";"]
  | .method overloads => overloads.map fun s ↦ m.nameText ++ m.optionalText ++ s.text ++ ";"
  | .call overloads => overloads.map fun s ↦ s.text ++ ";"
  | .construct overloads => overloads.map fun s ↦ "new " ++ s.text ++ ";"

end Member

namespace Interface

def headText (i : Interface) : String :=
  "interface " ++ i.name ++ Text.angled (i.typeParams.map TypeParam.text) ++
    (if i.heritage.isEmpty then ""
      else " extends " ++ Text.commaSeparated (i.heritage.map TypeExpr.text))

def text (i : Interface) : String :=
  if i.members.isEmpty then lineOf (i.headText ++ " \x7b\x7d")
  else
    lineOf (i.headText ++ " \x7b") ++
      String.join ((i.members.values.flatMap Member.lines).map (lineOf <| Member.indent ++ ·)) ++
      lineOf "\x7d"

end Interface

def TypeAlias.text (a : TypeAlias) : String :=
  lineOf ("type " ++ a.name ++ Text.angled (a.typeParams.map TypeParam.text) ++ " = " ++
    a.type.text ++ ";")

def Variable.text (v : Variable) : String :=
  lineOf ("declare " ++ v.kind.text ++ " " ++ v.name ++ ": " ++ v.type.text ++ ";")

def Function.text (f : Function) : String :=
  String.join (f.overloads.map fun s ↦ lineOf ("declare function " ++ f.name ++ s.text ++ ";"))

def TypeEntry.text : TypeEntry → String
  | interface i => lineOf i.text
  | typeAlias a => lineOf a.text

def ValueEntry.text : ValueEntry → String
  | .variable v => v.text
  | .function f => f.text

def Declarations.text (d : Declarations) : String :=
  String.join (d.types.values.map TypeEntry.text) ++
    String.join (d.values.values.map ValueEntry.text)

end TypeSurface
