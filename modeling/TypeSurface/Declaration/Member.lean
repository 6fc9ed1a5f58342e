import TypeSurface.Index.Basic
import TypeSurface.Syntax.TypeExpr.Equality
import TypeSurface.Text.Span

/-!
# Members

A member of an interface stands under a key.  Methods, call signatures and construct signatures hold
a list of overloads.
-/

namespace TypeSurface

/-- Where something was declared. -/
structure Origin where
  set : String
  file : String
  span : Span
deriving DecidableEq, Repr, Inhabited

inductive MemberKey where
  | named (name : String)
  | index (key : IndexKey)
  | call
  | construct
deriving DecidableEq, Repr

namespace MemberKey

def text : MemberKey → String
  | named name => name
  | index key => "[" ++ key.text ++ "]"
  | call => "()"
  | construct => "new()"

end MemberKey

inductive MemberBody where
  | property (type : TypeExpr)
  | method (overloads : List Signature)
  | index (keyName : String) (keyType value : TypeExpr)
  | call (overloads : List Signature)
  | construct (overloads : List Signature)
deriving DecidableEq

namespace MemberBody

def kindText : MemberBody → String
  | property _ => "property"
  | method _ => "method"
  | index _ _ _ => "index signature"
  | call _ => "call signature"
  | construct _ => "construct signature"

def overloads? : MemberBody → Option (List Signature)
  | method overloads | call overloads | construct overloads => some overloads
  | property _ | index _ _ _ => none

end MemberBody

structure Member where
  key : MemberKey
  /-- The name as it was written, if the member has one. -/
  name : Option PropertyName
  body : MemberBody
  isReadonly : Bool
  isOptional : Bool
  origin : Origin
deriving DecidableEq

namespace Member

/-- Declared alike, wherever and under whatever spelling of the key. -/
def hasSameShape (m n : Member) : Bool :=
  m.key = n.key && m.body = n.body && m.isReadonly == n.isReadonly && m.isOptional == n.isOptional

def readonlyText (m : Member) : String := Text.ifSet m.isReadonly "readonly "

def optionalText (m : Member) : String := Text.ifSet m.isOptional "?"

/-- Overloads behind one text, with semicolons between them. -/
def overloadsText (front : String) (overloads : List Signature) : String :=
  "; ".intercalate (overloads.map fun s ↦ front ++ s.text)

/-- The member in one line, as conflicts show it. -/
def describe (m : Member) : String :=
  match m.body with
  | .property type => m.readonlyText ++ m.key.text ++ m.optionalText ++ ": " ++ type.text
  | .index keyName keyType value =>
    m.readonlyText ++ "[" ++ keyName ++ ": " ++ keyType.text ++ "]: " ++ value.text
  | .method overloads => overloadsText (m.key.text ++ m.optionalText) overloads
  | .call overloads => overloadsText "" overloads
  | .construct overloads => overloadsText "new " overloads

@[simp] theorem hasSameShape_self (m : Member) : m.hasSameShape m = true := by
  simp [hasSameShape]

end Member
end TypeSurface
