import TypeSurface.Syntax.TypeExpr.Basic

/-!
# Nodes of a type expression

The types that occur in a type expression, the expression first, then those inside it in the order
in which they are written.
-/

namespace TypeSurface

mutual

def TypeExpr.nodes : TypeExpr → List TypeExpr
  | .keyword word => [.keyword word]
  | .reference name args => .reference name args :: args.flatMap TypeExpr.nodes
  | .literal value => [.literal value]
  | .array element => .array element :: element.nodes
  | .tuple elements => .tuple elements :: elements.flatMap TupleElement.nodes
  | .union members => .union members :: members.flatMap TypeExpr.nodes
  | .intersection members => .intersection members :: members.flatMap TypeExpr.nodes
  | .function signature => .function signature :: signature.nodes
  | .construct signature => .construct signature :: signature.nodes
  | .object members => .object members :: members.flatMap MemberForm.nodes
  | .keyOf operand => .keyOf operand :: operand.nodes
  | .readonly operand => .readonly operand :: operand.nodes
  | .predicate parameter type => .predicate parameter type :: type.nodes
termination_by t => sizeOf t

def TypeParam.nodes : TypeParam → List TypeExpr
  | ⟨_, bound, default⟩ =>
    (match bound with | none => [] | some t => t.nodes) ++
      (match default with | none => [] | some t => t.nodes)
termination_by p => sizeOf p

def Param.nodes : Param → List TypeExpr
  | ⟨_, type, _, _⟩ => type.nodes
termination_by p => sizeOf p

def Signature.nodes : Signature → List TypeExpr
  | ⟨typeParams, params, result⟩ =>
    typeParams.flatMap TypeParam.nodes ++ params.flatMap Param.nodes ++ result.nodes
termination_by s => sizeOf s

def TupleElement.nodes : TupleElement → List TypeExpr
  | ⟨type, _, _⟩ => type.nodes
termination_by e => sizeOf e

def MemberForm.nodes : MemberForm → List TypeExpr
  | .property _ _ _ type => type.nodes
  | .method _ _ signature => signature.nodes
  | .index _ _ keyType type => keyType.nodes ++ type.nodes
  | .call signature => signature.nodes
  | .construct signature => signature.nodes
termination_by m => sizeOf m

end

theorem TypeExpr.mem_nodes_self (t : TypeExpr) : t ∈ t.nodes := by
  cases t <;> simp [TypeExpr.nodes]

end TypeSurface
