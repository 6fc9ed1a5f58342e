import TypeSurface.Syntax.TypeExpr.Basic

/-!
# Renaming type parameters

Before two generic signatures are compared, the type parameters of one take the names of the other's,
position by position.  Plain names are renamed everywhere except in the bounds and defaults of type
parameters that are declared further inside.
-/

namespace TypeSurface
namespace Relation

abbrev Renaming := List (String × String)

/-- Of two entries for one name the later one counts. -/
def Renaming.apply (names : Renaming) (name : String) : String :=
  match names.reverse.find? (·.1 == name) with
  | some (_, new) => new
  | none => name

mutual

def renameType (names : Renaming) : TypeExpr → TypeExpr
  | .reference name [] => .reference (names.apply name) []
  | .reference name (arg :: args) =>
    .reference name (renameType names arg :: args.map (renameType names))
  | .keyword word => .keyword word
  | .literal value => .literal value
  | .array element => .array (renameType names element)
  | .keyOf operand => .keyOf (renameType names operand)
  | .readonly operand => .readonly (renameType names operand)
  | .predicate parameter type => .predicate parameter (renameType names type)
  | .tuple elements => .tuple (elements.map (renameElement names))
  | .union members => .union (members.map (renameType names))
  | .intersection members => .intersection (members.map (renameType names))
  | .function signature => .function (renameInner names signature)
  | .construct signature => .construct (renameInner names signature)
  | .object members => .object (members.map (renameMember names))
termination_by t => sizeOf t

def renameParam (names : Renaming) : Param → Param
  | ⟨name, type, isOptional, isRest⟩ => ⟨name, renameType names type, isOptional, isRest⟩
termination_by p => sizeOf p

/-- A signature inside the one whose type parameters are renamed. -/
def renameInner (names : Renaming) : Signature → Signature
  | ⟨typeParams, params, result⟩ =>
    ⟨typeParams, params.map (renameParam names), renameType names result⟩
termination_by s => sizeOf s

def renameElement (names : Renaming) : TupleElement → TupleElement
  | ⟨type, isOptional, isRest⟩ => ⟨renameType names type, isOptional, isRest⟩
termination_by e => sizeOf e

def renameMember (names : Renaming) : MemberForm → MemberForm
  | .property name isReadonly isOptional type =>
    .property name isReadonly isOptional (renameType names type)
  | .index isReadonly keyName keyType type =>
    .index isReadonly keyName (renameType names keyType) (renameType names type)
  | .method name isOptional signature => .method name isOptional (renameInner names signature)
  | .call signature => .call (renameInner names signature)
  | .construct signature => .construct (renameInner names signature)
termination_by m => sizeOf m

end

def haveSameNames (ps qs : List TypeParam) : Bool :=
  (ps.zip qs).all fun (p, q) ↦ p.name == q.name

/-- `s` with its type parameters named as those in `targets`. -/
def renameTypeParams (s : Signature) (targets : List TypeParam) : Signature :=
  let names : Renaming := (s.typeParams.zip targets).map fun (p, q) ↦ (p.name, q.name)
  { typeParams := s.typeParams.zipIdx.map fun (p, i) ↦
      match targets[i]? with
      | none => p
      | some q => ⟨q.name, p.bound.map (renameType names), p.default.map (renameType names)⟩
    params := s.params.map (renameParam names)
    result := renameType names s.result }

end Relation
end TypeSurface
