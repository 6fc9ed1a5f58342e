import TypeSurface.Syntax.TypeExpr.Basic
import TypeSurface.Text.Quoted

/-!
# Canonical text

The one way in which types, signatures and members are printed: a blank behind `:` and `,`, blanks
around `|` and `&`, a semicolon behind each member of an object type, and parentheses only where the
text would otherwise read differently.
-/

namespace TypeSurface

namespace TypeExpr

/-- Operands of `[]` and of an optional mark that stand in parentheses. -/
def isLoosePostfixOperand : TypeExpr → Bool
  | .union _ | .intersection _ | .function _ | .construct _ | .keyOf _ | .readonly _
  | .predicate _ _ => true
  | _ => false

/-- Operands of `keyof` and `readonly` that stand in parentheses. -/
def isLoosePrefixOperand : TypeExpr → Bool
  | .union _ | .intersection _ | .function _ | .construct _ => true
  | _ => false

/-- Members of a union that stand in parentheses. -/
def isLooseUnionMember : TypeExpr → Bool
  | .function _ | .construct _ => true
  | _ => false

/-- Members of an intersection that stand in parentheses. -/
def isLooseIntersectionMember : TypeExpr → Bool
  | .union _ | .function _ | .construct _ => true
  | _ => false

end TypeExpr

def Literal.text : Literal → String
  | string value => Text.quoted value
  | number text => text
  | boolean true => "true"
  | boolean false => "false"

def PropertyName.text : PropertyName → String
  | identifier name | numeric name => name
  | string name => Text.quoted name
  | computed name => "[" ++ name ++ "]"

namespace Text

/-- `text` in parentheses if it is loose. -/
def parenthesized (isLoose : Bool) (text : String) : String :=
  if isLoose then "(" ++ text ++ ")" else text

/-- `text` if the flag is set. -/
def ifSet (flag : Bool) (text : String) : String :=
  if flag then text else ""

def commaSeparated (items : List String) : String :=
  ", ".intercalate items

/-- A list between angle brackets, and nothing for an empty list. -/
def angled (items : List String) : String :=
  if items.isEmpty then "" else "<" ++ commaSeparated items ++ ">"

end Text

open Text

mutual

def TypeExpr.text : TypeExpr → String
  | .keyword word => word.text
  | .reference name args => name ++ angled (args.map TypeExpr.text)
  | .literal value => value.text
  | .array element => parenthesized element.isLoosePostfixOperand element.text ++ "[]"
  | .tuple elements => "[" ++ commaSeparated (elements.map TupleElement.text) ++ "]"
  | .union members =>
    " | ".intercalate (members.map fun m ↦ parenthesized m.isLooseUnionMember m.text)
  | .intersection members =>
    " & ".intercalate (members.map fun m ↦ parenthesized m.isLooseIntersectionMember m.text)
  | .function signature => signature.textWith " => "
  | .construct signature => "new " ++ signature.textWith " => "
  | .object [] => "\x7b\x7d"
  | .object (m :: ms) =>
    "\x7b " ++ m.text ++ "; " ++ String.join (ms.map fun m ↦ m.text ++ "; ") ++ "\x7d"
  | .keyOf operand => "keyof " ++ parenthesized operand.isLoosePrefixOperand operand.text
  | .readonly operand => "readonly " ++ parenthesized operand.isLoosePrefixOperand operand.text
  | .predicate parameter type => parameter ++ " is " ++ type.text
termination_by t => sizeOf t

def TypeParam.text : TypeParam → String
  | ⟨name, bound, default⟩ =>
    name ++ (match bound with | none => "" | some t => " extends " ++ t.text) ++
      (match default with | none => "" | some t => " = " ++ t.text)
termination_by p => sizeOf p

def Param.text : Param → String
  | ⟨name, type, isOptional, isRest⟩ =>
    ifSet isRest "..." ++ name ++ ifSet isOptional "?" ++ ": " ++ type.text
termination_by p => sizeOf p

/-- The signature with `separator` between its parameters and its result. -/
def Signature.textWith (separator : String) : Signature → String
  | ⟨typeParams, params, result⟩ =>
    angled (typeParams.map TypeParam.text) ++ "(" ++ commaSeparated (params.map Param.text) ++ ")" ++
      separator ++ result.text
termination_by s => sizeOf s

def TupleElement.text : TupleElement → String
  | ⟨type, isOptional, isRest⟩ =>
    ifSet isRest "..." ++ parenthesized (isOptional && type.isLoosePostfixOperand) type.text ++
      ifSet isOptional "?"
termination_by e => sizeOf e

def MemberForm.text : MemberForm → String
  | .property name isReadonly isOptional type =>
    ifSet isReadonly "readonly " ++ name.text ++ ifSet isOptional "?" ++ ": " ++ type.text
  | .method name isOptional signature =>
    name.text ++ ifSet isOptional "?" ++ signature.textWith ": "
  | .index isReadonly keyName keyType type =>
    ifSet isReadonly "readonly " ++ "[" ++ keyName ++ ": " ++ keyType.text ++ "]: " ++ type.text
  | .call signature => signature.textWith ": "
  | .construct signature => "new " ++ signature.textWith ": "
termination_by m => sizeOf m

end

/-- The signature as the members of an interface write it. -/
def Signature.text (s : Signature) : String := s.textWith ": "

end TypeSurface
