import TypeSurface.Numeral.Literal
import TypeSurface.Syntax.TypeExpr.Text

/-!
# The index type

`int` is the type of every index, length, count and position.  It relates to `number` in both
directions; negative values such as the one for "not found" belong to it.
-/

namespace TypeSurface
namespace Index

def typeName : String := "int"

/-- What a search answers that finds nothing. -/
def notFound : Int := -1

def type : TypeExpr := .named typeName

/-- The plain name of the index type. -/
def isIndexType (t : TypeExpr) : Bool := t.isReferenceTo typeName

/-- Whether an index can have the value: integral, of either sign. -/
def admits (value : Binary64) : Bool := value.isIntegral

/-- `number`, `int` or a number literal. -/
def isNumeric : TypeExpr → Bool
  | .keyword .number => true
  | .literal value => value.numericValue?.isSome
  | t => isIndexType t

def isNullish (t : TypeExpr) : Bool := t.isKeyword .undefined || t.isKeyword .null

/-- `int`, an integral literal, or a union of such types that may also admit `undefined` or `null`
but nothing else. -/
def isIndexValued : TypeExpr → Bool
  | .union members =>
    members.attach.all (fun ⟨m, _⟩ ↦ isNullish m || isIndexValued m) && members.any (!isNullish ·)
  | .literal value => value.numericValue?.any admits
  | t => isIndexType t
termination_by t => sizeOf t

/-- `number`, or a number literal that no index can have, alone or in a union. -/
def isPlainNumber : TypeExpr → Bool
  | .union members => members.attach.any fun ⟨m, _⟩ ↦ isPlainNumber m
  | .keyword .number => true
  | .literal value => value.numericValue?.any (!admits ·)
  | _ => false
termination_by t => sizeOf t

theorem isIndexValued_union (members : List TypeExpr) :
    isIndexValued (.union members) =
      (members.all (fun m ↦ isNullish m || isIndexValued m) && members.any (!isNullish ·)) := by
  rw [isIndexValued]
  simp

theorem isPlainNumber_union (members : List TypeExpr) :
    isPlainNumber (.union members) = members.any isPlainNumber := by
  rw [isPlainNumber]
  simp

end Index

/-- What the key of an index signature ranges over.  `int` and `number` are one kind. -/
inductive IndexKey where
  | number
  | string
  | symbol
  | other (text : String)
deriving DecidableEq, Repr

namespace IndexKey

def ofType (t : TypeExpr) : IndexKey :=
  match t with
  | .keyword .number => number
  | .keyword .string => string
  | .keyword .symbol => symbol
  | t => if Index.isIndexType t then number else other t.text

def text : IndexKey → String
  | number => "number"
  | string => "string"
  | symbol => "symbol"
  | other text => text

end IndexKey
end TypeSurface
