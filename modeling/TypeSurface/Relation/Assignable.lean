import TypeSurface.Relation.Alias
import TypeSurface.Relation.Renaming

/-!
# Assignability

Whether a value of one type can stand where another type is wanted, as far as the merging of
declarations has to know.  What cannot be shown is answered with `false`.

The rules take the relation of the types inside as an argument; `assignableWithin` ties the knot for
a number of levels, beyond which only equal types relate.
-/

namespace TypeSurface

/-- How many levels deep types are compared. -/
def maxRelationDepth : Nat := 64

namespace Relation

/-- What a type is to the rules, with the two spellings of array types made one. -/
inductive Shape where
  | array (element : TypeExpr)
  | readonlyArray (element : TypeExpr)
  | tuple (elements : List TupleElement)
  | other (type : TypeExpr)

def shapeOf : TypeExpr → Shape
  | .array element => .array element
  | .tuple elements => .tuple elements
  | .readonly (.array element) => .readonlyArray element
  | .readonly (.tuple elements) => .tuple elements
  | .readonly operand => .other operand
  | .reference name [arg] =>
    if name = "Array" then .array arg
    else if name = "ReadonlyArray" then .readonlyArray arg
    else .other (.reference name [arg])
  | t => .other t

/-- The type of one argument that a parameter takes. -/
def argumentType (isRest : Bool) (t : TypeExpr) : TypeExpr :=
  if isRest then
    match shapeOf t with
    | .array element | .readonlyArray element => element
    | _ => t
  else t

/-- The parameter for the argument at a position; a last rest parameter takes all that are left. -/
def paramAt? (params : List Param) (i : Nat) : Option Param :=
  match params[i]? with
  | some p => some p
  | none => params.getLast?.filter (·.isRest)

/-- The text by which the members of two object types are matched. -/
def formKey : MemberForm → String
  | .property name _ _ _ | .method name _ _ => name.key
  | .index _ _ keyType _ => "[" ++ keyType.text ++ "]"
  | .call _ => "()"
  | .construct _ => "new()"

def isNumberOrIndex (t : TypeExpr) : Bool := t.isKeyword .number || Index.isIndexType t

/-- Number literals go to `number`, and to the index type if an index can have their value. -/
def isNumberAssignable (source target : TypeExpr) : Bool :=
  isNumberOrIndex source ||
    match source with
    | .literal value =>
      value.numericValue?.any fun x ↦ target.isKeyword .number || Index.admits x
    | _ => false

/-- The rules for keywords and literals; none if neither side is one. -/
def relatePrimitives? (source target : TypeExpr) : Option Bool :=
  if isNumberOrIndex target then some (isNumberAssignable source target)
  else
    match source, target with
    | .literal (.string _), .keyword .string => some true
    | .literal (.boolean _), .keyword .boolean => some true
    | .keyword .undefined, .keyword .void => some true
    | .predicate _ _, .keyword .boolean => some true
    | .keyword _, _ | .literal _, _ | _, .keyword _ | _, .literal _ => some false
    | _, _ => none

/-- Whether the type can stand for `object`. -/
def isObjectLike (t : TypeExpr) : Bool :=
  match shapeOf t with
  | .array _ | .readonlyArray _ | .tuple _ => true
  | .other (.reference name args) => !Index.isIndexType (.reference name args)
  | .other (.function _) | .other (.construct _) | .other (.object _) => true
  | .other _ => false

section Rules

variable (relates : TypeExpr → TypeExpr → Bool)

/-- Results relate from source to target; any result may stand for `void`. -/
def resultRelates (source target : TypeExpr) : Bool :=
  target.isKeyword .void || relates source target

/-- Parameters relate in either direction, as far as the offered ones go. -/
def paramsRelate (offered wanted : List Param) : Bool :=
  wanted.zipIdx.all fun (w, i) ↦
    match paramAt? offered i with
    | none => true
    | some o =>
      let offeredType := argumentType o.isRest o.type
      let wantedType := argumentType w.isRest w.type
      relates wantedType offeredType || relates offeredType wantedType

/-- Whether every number of arguments that `wanted` takes is taken by `offered`. -/
def arityCovers (offered wanted : Signature) : Bool :=
  offered.minArity ≤ wanted.minArity &&
    match offered.maxArity, wanted.maxArity with
    | some o, some w => w ≤ o
    | some _, none => false
    | none, _ => true

/-- Whether `offered` serves every caller of `wanted`. -/
def signatureCovers (offered wanted : Signature) : Bool :=
  offered.typeParams.length == wanted.typeParams.length &&
    let renamed :=
      if haveSameNames offered.typeParams wanted.typeParams then offered
      else renameTypeParams offered wanted.typeParams
    arityCovers renamed wanted && paramsRelate relates renamed.valueParams wanted.valueParams &&
      resultRelates relates renamed.result wanted.result

/-- Whether each wanted overload is served by some offered one. -/
def overloadsCover (offered wanted : List Signature) : Bool :=
  wanted.all fun w ↦ offered.any fun o ↦ signatureCovers relates o w

/-- A function value may take fewer arguments than it is given, but not require more. -/
def functionRelates (source target : Signature) : Bool :=
  source.typeParams.length == target.typeParams.length &&
    (source.minArity ≤ target.valueParams.length || target.maxArity.isNone) &&
    paramsRelate relates source.valueParams target.valueParams &&
    resultRelates relates source.result target.result

/-- How the members of one key relate. -/
def formRelates (source target : MemberForm) : Bool :=
  match source, target with
  | .property _ _ _ s, .property _ _ _ t => relates s t
  | .index _ _ _ s, .index _ _ _ t => relates s t
  | .method _ _ s, .method _ _ t => signatureCovers relates s t
  | .call s, .call t => signatureCovers relates s t
  | .construct s, .construct t => signatureCovers relates s t
  | _, _ => false

def isOptionalForm : MemberForm → Bool
  | .property _ _ isOptional _ | .method _ isOptional _ => isOptional
  | _ => false

/-- Every wanted member is there and relates, or is optional and is not there. -/
def objectRelates (source target : List MemberForm) : Bool :=
  target.all fun wanted ↦
    match source.find? fun offered ↦ formKey offered == formKey wanted with
    | none => isOptionalForm wanted
    | some offered => formRelates relates offered wanted

def elementRelates (s t : TupleElement) : Bool :=
  s.isRest == t.isRest && (t.isOptional || !s.isOptional) && relates s.type t.type

/-- The rules for types of one shape that is none of the array types. -/
def otherRelates (source target : TypeExpr) : Bool :=
  match source, target with
  | .reference m as, .reference n bs =>
    m == n && as.length == bs.length && (as.zip bs).all fun (a, b) ↦ relates a b
  | .function s, .function t => functionRelates relates s t
  | .construct s, .construct t => functionRelates relates s t
  | .object s, .object t => objectRelates relates s t
  | .predicate p s, .predicate q t => p == q && relates s t
  | _, _ => false

def shapeRelates (source target : Shape) : Bool :=
  match source, target with
  | .array s, .array t | .array s, .readonlyArray t | .readonlyArray s, .readonlyArray t =>
    relates s t
  | .tuple es, .array t | .tuple es, .readonlyArray t =>
    es.all fun e ↦ relates (argumentType e.isRest e.type) t
  | .tuple es, .tuple fs =>
    es.length == fs.length && (es.zip fs).all fun (e, f) ↦ elementRelates relates e f
  | .other s, .other t => otherRelates relates s t
  | _, _ => false

/-- Unions and intersections go apart before any other rule; none if neither side is one. -/
def relateParts? (source target : TypeExpr) : Option Bool :=
  match source, target with
  | .union members, _ => some (members.all (relates · target))
  | _, .intersection members => some (members.all (relates source ·))
  | _, .union members => some (members.any (relates source ·))
  | .intersection members, _ => some (members.any (relates · target))
  | _, _ => none

/-- `any` and `unknown` take everything; `any` and `never` go everywhere. -/
def isFree (source target : TypeExpr) : Bool :=
  target.isKeyword .any || target.isKeyword .unknown || source.isKeyword .any ||
    source.isKeyword .never

/-- The rules for types none of which is an alias. -/
def structureRelates (source target : TypeExpr) : Bool :=
  isFree source target ||
    match relateParts? relates source target with
    | some answer => answer
    | none =>
      if target.isKeyword .object then isObjectLike source
      else
        match relatePrimitives? source target with
        | some answer => answer
        | none => shapeRelates relates (shapeOf source) (shapeOf target)

/-- One level of the relation: an alias is replaced by its body first. -/
def levelRelates (types : OrderedMap String TypeEntry) (source target : TypeExpr) : Bool :=
  match expandAlias? types source, expandAlias? types target with
  | some body, _ => relates body target
  | none, some body => relates source body
  | none, none => structureRelates relates source target

end Rules

/-- Assignability within a number of levels. -/
def assignableWithin (types : OrderedMap String TypeEntry) : Nat → TypeExpr → TypeExpr → Bool
  | 0, source, target => source = target
  | depth + 1, source, target =>
    source = target || levelRelates (assignableWithin types depth) types source target

/-- Assignability under the aliases among `types`. -/
def isAssignable (types : OrderedMap String TypeEntry) (source target : TypeExpr) : Bool :=
  assignableWithin types maxRelationDepth source target

@[simp] theorem assignableWithin_self (types : OrderedMap String TypeEntry) (depth : Nat)
    (t : TypeExpr) : assignableWithin types depth t t = true := by
  cases depth <;> simp [assignableWithin]

@[simp] theorem isAssignable_self (types : OrderedMap String TypeEntry) (t : TypeExpr) :
    isAssignable types t t = true :=
  assignableWithin_self types maxRelationDepth t

end Relation
end TypeSurface
