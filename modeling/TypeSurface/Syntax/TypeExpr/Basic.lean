/-!
# Type expressions

The types, signatures and members that a declaration file can write.  None of them holds a place in
the file: two declarations that are written alike are equal wherever they stand.
-/

namespace TypeSurface

/-- The words that denote a type by themselves. -/
inductive Keyword where
  | any
  | unknown
  | never
  | void
  | undefined
  | null
  | boolean
  | string
  | number
  | bigInt
  | symbol
  | object
  | this
deriving DecidableEq, Repr

namespace Keyword

def all : List Keyword :=
  [.any, .unknown, .never, .void, .undefined, .null, .boolean, .string, .number, .bigInt, .symbol,
    .object, .this]

theorem mem_all (k : Keyword) : k ∈ all := by
  cases k <;> simp [all]

def text : Keyword → String
  | any => "any"
  | unknown => "unknown"
  | never => "never"
  | void => "void"
  | undefined => "undefined"
  | null => "null"
  | boolean => "boolean"
  | string => "string"
  | number => "number"
  | bigInt => "bigint"
  | symbol => "symbol"
  | object => "object"
  | this => "this"

def ofText? (text : String) : Option Keyword :=
  all.find? (·.text == text)

@[simp] theorem ofText?_text (k : Keyword) : ofText? k.text = some k := by
  cases k <;> decide

end Keyword

/-- A literal type.  The text of a number is kept as written, a leading `-` included. -/
inductive Literal where
  | string (value : String)
  | number (text : String)
  | boolean (value : Bool)
deriving DecidableEq, Repr

inductive PropertyName where
  | identifier (name : String)
  | string (name : String)
  | numeric (name : String)
  /-- A dotted name in brackets, without the brackets. -/
  | computed (name : String)
deriving DecidableEq, Repr

/-- The text by which the members of two declarations are matched. -/
def PropertyName.key : PropertyName → String
  | identifier name | string name | numeric name => name
  | computed name => "[" ++ name ++ "]"

mutual

inductive TypeExpr where
  | keyword (word : Keyword)
  /-- A name, with dots between its segments, and its type arguments. -/
  | reference (name : String) (args : List TypeExpr)
  | literal (value : Literal)
  | array (element : TypeExpr)
  | tuple (elements : List TupleElement)
  | union (members : List TypeExpr)
  | intersection (members : List TypeExpr)
  | function (signature : Signature)
  | construct (signature : Signature)
  | object (members : List MemberForm)
  | keyOf (operand : TypeExpr)
  | readonly (operand : TypeExpr)
  /-- The result of a function that tells whether its parameter has the type. -/
  | predicate (parameter : String) (type : TypeExpr)

structure TypeParam where
  name : String
  bound : Option TypeExpr
  default : Option TypeExpr

structure Param where
  name : String
  type : TypeExpr
  isOptional : Bool
  isRest : Bool

structure Signature where
  typeParams : List TypeParam
  params : List Param
  result : TypeExpr

structure TupleElement where
  type : TypeExpr
  isOptional : Bool
  isRest : Bool

/-- A member of an object type or of an interface, as written. -/
inductive MemberForm where
  | property (name : PropertyName) (isReadonly isOptional : Bool) (type : TypeExpr)
  | method (name : PropertyName) (isOptional : Bool) (signature : Signature)
  | index (isReadonly : Bool) (keyName : String) (keyType type : TypeExpr)
  | call (signature : Signature)
  | construct (signature : Signature)

end

instance : Inhabited TypeExpr := ⟨.keyword .any⟩

namespace Signature

/-- The parameters that arguments are bound to: all but those named `this`. -/
def valueParams (s : Signature) : List Param :=
  s.params.filter (·.name != "this")

/-- The least number of arguments that a call gives. -/
def minArity (s : Signature) : Nat :=
  s.valueParams.countP fun p ↦ !p.isOptional && !p.isRest

/-- The greatest number of arguments that a call gives; none if there is a rest parameter. -/
def maxArity (s : Signature) : Option Nat :=
  if s.valueParams.any (·.isRest) then none else some s.valueParams.length

end Signature

namespace TypeExpr

/-- A name without type arguments. -/
def named (name : String) : TypeExpr := .reference name []

def isKeyword (t : TypeExpr) (word : Keyword) : Bool :=
  match t with
  | keyword w => w = word
  | _ => false

/-- Whether the type is `name` without type arguments. -/
def isReferenceTo (t : TypeExpr) (name : String) : Bool :=
  match t with
  | reference n [] => n == name
  | _ => false

end TypeExpr
end TypeSurface
