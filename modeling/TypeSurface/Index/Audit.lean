import TypeSurface.Diagnostic.Basic
import TypeSurface.Relation.Assignable

/-!
# Index audit

Lengths, counts and positions have to be declared with the index type.  They are known by the names
of properties, of parameters and of methods whose result is a position; the keys of index signatures
count too.  Aliases are seen through, and so are callbacks.
-/

namespace TypeSurface
namespace Index

/-- Properties that hold a length, a count or a position. -/
def propertyNames : List String := ["length", "size", "lastIndex", "index"]

/-- Methods whose result is a position or a new length. -/
def methodNames : List String :=
  ["indexOf", "lastIndexOf", "findIndex", "findLastIndex", "search", "push", "unshift"]

/-- Parameters that take an index, a length, a count or a position. -/
def parameterNames : List String :=
  ["index", "currentIndex", "fromIndex", "start", "end", "from", "length", "limit", "depth",
    "count", "position", "pos", "deleteCount", "targetLength", "maxLength", "arrayLength"]

/-- Parameters that take a position if they take a number. -/
def numericParameterNames : List String := ["target"]

/-- The type with aliases expanded at the top and through unions, for a number of levels. -/
def resolve (types : OrderedMap String TypeEntry) : Nat → TypeExpr → TypeExpr
  | 0, t => t
  | depth + 1, t =>
    match Relation.expandAlias? types t with
    | some body => resolve types depth body
    | none =>
      match t with
      | .union members => .union (members.map (resolve types depth))
      | t => t

/-- What a defect says about where it was found. -/
structure Site where
  owner : String
  origin : Origin

def Site.callback (s : Site) : Site := { s with owner := s.owner ++ " callback" }

def inconsistency (s : Site) (member : String) (found : TypeExpr) : Diagnostic :=
  .atSpan .indexTypeInconsistency [member, s.owner, typeName, found.text] s.origin.file s.origin.span

section Audit

variable (types : OrderedMap String TypeEntry)

/-- The type must be index valued. -/
def checkIndex (s : Site) (member : String) (t : TypeExpr) : List Diagnostic :=
  if isIndexValued (resolve types maxRelationDepth t) then [] else [inconsistency s member t]

/-- The type must be index valued if it is a number. -/
def checkNumeric (s : Site) (member : String) (t : TypeExpr) : List Diagnostic :=
  if isPlainNumber (resolve types maxRelationDepth t) then [inconsistency s member t] else []

def checkParam (s : Site) (p : Param) : List Diagnostic :=
  if parameterNames.contains p.name then checkIndex types s ("parameter " ++ p.name) p.type
  else if numericParameterNames.contains p.name then
    checkNumeric types s ("parameter " ++ p.name) p.type
  else []

def checkParams (s : Site) (signature : Signature) : List Diagnostic :=
  signature.valueParams.flatMap (checkParam types s)

/-- The parameters of the callbacks that a parameter takes. -/
def checkCallbacks (s : Site) : Nat → TypeExpr → List Diagnostic
  | 0, _ => []
  | depth + 1, t =>
    match Relation.expandAlias? types t with
    | some body => checkCallbacks s depth body
    | none =>
      match t with
      | .function callback => checkParams types s.callback callback
      | .union members => members.flatMap (checkCallbacks s depth)
      | _ => []

/-- The signature of a function or method of the name. -/
def checkSignature (s : Site) (name : String) (signature : Signature) : List Diagnostic :=
  (if methodNames.contains name then checkIndex types s "return type" signature.result else []) ++
    checkParams types s signature ++
    signature.valueParams.flatMap fun p ↦ checkCallbacks types s maxRelationDepth p.type

def checkProperty (interface name : String) (origin : Origin) (t : TypeExpr) : List Diagnostic :=
  (if propertyNames.contains name then checkIndex types ⟨interface, origin⟩ name t else []) ++
    match t with
    | .function signature => checkSignature types ⟨interface ++ "." ++ name, origin⟩ name signature
    | _ => []

def checkMember (interface : String) (key : MemberKey) (m : Member) : List Diagnostic :=
  match m.body, key with
  | .property t, .named name => checkProperty types interface name m.origin t
  | .index _ keyType _, _ => checkNumeric types ⟨interface, m.origin⟩ m.describe keyType
  | .method overloads, .named name =>
    overloads.flatMap (checkSignature types ⟨interface ++ "." ++ name, m.origin⟩ name)
  | .call overloads, _ | .construct overloads, _ =>
    overloads.flatMap (checkSignature types ⟨interface ++ key.text, m.origin⟩ "")
  | _, _ => []

def checkType (name : String) : TypeEntry → List Diagnostic
  | .interface i => i.members.entries.flatMap fun (key, m) ↦ checkMember types name key m
  | .typeAlias _ => []

def checkValue (name : String) : ValueEntry → List Diagnostic
  | .function f => f.overloads.flatMap (checkSignature types ⟨name, f.origin⟩ name)
  | .variable _ => []

end Audit

/-- Every place where the index type is wanted and something else is declared. -/
def auditDefects (d : Declarations) : List Diagnostic :=
  d.types.entries.flatMap (fun (name, entry) ↦ checkType d.types name entry) ++
    d.values.entries.flatMap fun (name, entry) ↦ checkValue d.types name entry

end Index
end TypeSurface
