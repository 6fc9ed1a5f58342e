import TypeSurface.Json.Basic
import TypeSurface.Syntax.TypeExpr.Basic

/-!
# JSON form of type expressions

A type is written under the name of its kind; the parts of signatures and parameters are fields.
-/

namespace TypeSurface

open Json

def Keyword.toJson : Keyword → Json
  | any => "Any"
  | unknown => "Unknown"
  | never => "Never"
  | void => "Void"
  | undefined => "Undefined"
  | null => "Null"
  | boolean => "Boolean"
  | string => "String"
  | number => "Number"
  | bigInt => "BigInt"
  | symbol => "Symbol"
  | object => "Object"
  | this => "This"

def Literal.toJson : Literal → Json
  | string value => tagged "String" value
  | number text => tagged "Number" text
  | boolean value => tagged "Boolean" value

def PropertyName.toJson : PropertyName → Json
  | identifier name => tagged "Identifier" name
  | string name => tagged "String" name
  | numeric name => tagged "Numeric" name
  | computed name => tagged "Computed" name

mutual

def TypeExpr.toJson : TypeExpr → Json
  | .keyword word => tagged "Keyword" word.toJson
  | .reference name args =>
    tagged "Reference" (.object [("name", name), ("args", .array (args.map TypeExpr.toJson))])
  | .literal value => tagged "Literal" value.toJson
  | .array element => tagged "Array" element.toJson
  | .tuple elements => tagged "Tuple" (.array (elements.map TupleElement.toJson))
  | .union members => tagged "Union" (.array (members.map TypeExpr.toJson))
  | .intersection members => tagged "Intersection" (.array (members.map TypeExpr.toJson))
  | .function signature => tagged "Function" signature.toJson
  | .construct signature => tagged "Constructor" signature.toJson
  | .object members => tagged "Object" (.array (members.map MemberForm.toJson))
  | .keyOf operand => tagged "KeyOf" operand.toJson
  | .readonly operand => tagged "Readonly" operand.toJson
  | .predicate parameter type =>
    tagged "Predicate" (.object [("parameter", parameter), ("ty", type.toJson)])
termination_by t => sizeOf t

def TypeParam.toJson : TypeParam → Json
  | ⟨name, bound, default⟩ =>
    .object [("name", name),
      ("constraint", match bound with | none => .null | some t => t.toJson),
      ("default", match default with | none => .null | some t => t.toJson)]
termination_by p => sizeOf p

def Param.toJson : Param → Json
  | ⟨name, type, isOptional, isRest⟩ =>
    .object [("name", name), ("ty", type.toJson), ("optional", isOptional), ("rest", isRest)]
termination_by p => sizeOf p

def Signature.toJson : Signature → Json
  | ⟨typeParams, params, result⟩ =>
    .object [("type_params", .array (typeParams.map TypeParam.toJson)),
      ("params", .array (params.map Param.toJson)), ("return_type", result.toJson)]
termination_by s => sizeOf s

def TupleElement.toJson : TupleElement → Json
  | ⟨type, isOptional, isRest⟩ =>
    .object [("ty", type.toJson), ("optional", isOptional), ("rest", isRest)]
termination_by e => sizeOf e

def MemberForm.toJson : MemberForm → Json
  | .property name isReadonly isOptional type =>
    tagged "Property" (.object [("name", name.toJson), ("readonly", isReadonly),
      ("optional", isOptional), ("ty", type.toJson)])
  | .method name isOptional signature =>
    tagged "Method" (.object [("name", name.toJson), ("optional", isOptional),
      ("signature", signature.toJson)])
  | .index isReadonly keyName keyType type =>
    tagged "Index" (.object [("readonly", isReadonly), ("key_name", keyName),
      ("key_type", keyType.toJson), ("ty", type.toJson)])
  | .call signature => tagged "Call" signature.toJson
  | .construct signature => tagged "Construct" signature.toJson
termination_by m => sizeOf m

end

end TypeSurface
