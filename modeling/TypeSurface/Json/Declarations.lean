import TypeSurface.Declaration.Set
import TypeSurface.Json.SourceFile

/-!
# JSON form of declarations

Places are left out.  The members of an interface stand under the texts of their keys, of which two
may be alike; the kind of a type or value goes before its other fields, so that a variable has two
fields named `kind`.
-/

namespace TypeSurface

open Json

def Mode.toJson (m : Mode) : Json := m.text

def IndexKey.toJson : IndexKey → Json
  | number => "Number"
  | string => "String"
  | symbol => "Symbol"
  | other text => tagged "Other" text

def MemberKey.toJson : MemberKey → Json
  | named name => tagged "Named" name
  | index key => tagged "Index" key.toJson
  | call => "Call"
  | construct => "Construct"

def MemberBody.toJson : MemberBody → Json
  | property type => tagged "Property" type.toJson
  | method overloads => tagged "Method" (ofList Signature.toJson overloads)
  | index keyName keyType value =>
    tagged "Index" (.object [("key_name", keyName), ("key_type", keyType.toJson),
      ("value", value.toJson)])
  | call overloads => tagged "Call" (ofList Signature.toJson overloads)
  | construct overloads => tagged "Construct" (ofList Signature.toJson overloads)

/-- The flags that are set, with bars between them. -/
def Member.flagsText (m : Member) : String :=
  " | ".intercalate ((if m.isReadonly then ["READONLY"] else []) ++
    (if m.isOptional then ["OPTIONAL"] else []))

def Member.toJson (m : Member) : Json :=
  .object [("key", m.key.toJson), ("name", ofOption PropertyName.toJson m.name),
    ("kind", m.body.toJson), ("flags", m.flagsText)]

def TypeEntry.toJson : TypeEntry → Json
  | interface i =>
    .object [("kind", "interface"), ("name", i.name),
      ("type_params", ofList TypeParam.toJson i.typeParams),
      ("extends", ofList TypeExpr.toJson i.heritage),
      ("members", .object (i.members.entries.map fun (key, m) ↦ (key.text, m.toJson)))]
  | typeAlias a =>
    .object [("kind", "alias"), ("name", a.name),
      ("type_params", ofList TypeParam.toJson a.typeParams), ("ty", a.type.toJson)]

def ValueEntry.toJson : ValueEntry → Json
  | .variable v =>
    .object [("kind", "variable"), ("name", v.name), ("kind", v.kind.toJson),
      ("ty", v.type.toJson)]
  | .function f =>
    .object [("kind", "function"), ("name", f.name),
      ("overloads", ofList Signature.toJson f.overloads)]

def Declarations.toJson (d : Declarations) : Json :=
  .object [("types", .object (d.types.entries.map fun (name, entry) ↦ (name, entry.toJson))),
    ("values", .object (d.values.entries.map fun (name, entry) ↦ (name, entry.toJson)))]

/-- `"base"`, or the mode that the set realises. -/
def DeclarationSet.kindJson (s : DeclarationSet) : Json :=
  match s.mode with
  | none => "base"
  | some mode => tagged "mode" mode.toJson

def DeclarationSet.toJson (s : DeclarationSet) : Json :=
  .object [("id", s.id), ("version", s.version), ("kind", s.kindJson),
    ("deprecated", s.isDeprecated), ("file", s.file), ("references", strings s.references),
    ("declarations", s.declarations.toJson)]

end TypeSurface
