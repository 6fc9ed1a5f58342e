import TypeSurface.Declaration.Member
import TypeSurface.Declaration.OrderedMap
import TypeSurface.Syntax.SourceFile

/-!
# Declarations

Interfaces and type aliases share one namespace, variables and functions another: a type and a
variable may have one name.  Both namespaces keep the order in which names were declared.
-/

namespace TypeSurface

structure Interface where
  name : String
  typeParams : List TypeParam
  heritage : List TypeExpr
  members : OrderedMap MemberKey Member
  origin : Origin
deriving DecidableEq

structure TypeAlias where
  name : String
  typeParams : List TypeParam
  type : TypeExpr
  origin : Origin
deriving DecidableEq

structure Variable where
  name : String
  kind : VariableKind
  type : TypeExpr
  origin : Origin
deriving DecidableEq

structure Function where
  name : String
  overloads : List Signature
  origin : Origin
deriving DecidableEq

namespace Interface

def member? (i : Interface) (name : String) : Option Member :=
  i.members.get? (.named name)

/-- The type parameters between angle brackets, which stay when there are none. -/
def typeParamsText (i : Interface) : String :=
  "<" ++ Text.commaSeparated (i.typeParams.map TypeParam.text) ++ ">"

end Interface

inductive TypeEntry where
  | interface (i : Interface)
  | typeAlias (a : TypeAlias)
deriving DecidableEq

namespace TypeEntry

def name : TypeEntry → String
  | interface i => i.name
  | typeAlias a => a.name

def kindText : TypeEntry → String
  | interface _ => "interface"
  | typeAlias _ => "type alias"

def origin : TypeEntry → Origin
  | interface i => i.origin
  | typeAlias a => a.origin

def interface? : TypeEntry → Option Interface
  | interface i => some i
  | typeAlias _ => none

end TypeEntry

inductive ValueEntry where
  | variable (v : Variable)
  | function (f : Function)
deriving DecidableEq

namespace ValueEntry

def name : ValueEntry → String
  | .variable v => v.name
  | .function f => f.name

def kindText : ValueEntry → String
  | .variable v => v.kind.text
  | .function _ => "function"

def origin : ValueEntry → Origin
  | .variable v => v.origin
  | .function f => f.origin

end ValueEntry

structure Declarations where
  types : OrderedMap String TypeEntry
  values : OrderedMap String ValueEntry
deriving DecidableEq

namespace Declarations

def empty : Declarations := ⟨.empty, .empty⟩

instance : Inhabited Declarations := ⟨empty⟩

def isEmpty (d : Declarations) : Bool := d.types.isEmpty && d.values.isEmpty

def interface? (d : Declarations) (name : String) : Option Interface :=
  (d.types.get? name).bind TypeEntry.interface?

/-- Whether one of the namespaces holds the name. -/
def declares (d : Declarations) (name : String) : Bool :=
  d.types.contains name || d.values.contains name

/-- Where the name is declared; a type goes before a value. -/
def originOf? (d : Declarations) (name : String) : Option Origin :=
  match d.types.get? name with
  | some entry => some entry.origin
  | none => (d.values.get? name).map ValueEntry.origin

/-- All names, those of types first. -/
def names (d : Declarations) : List String := d.types.keys ++ d.values.keys

end Declarations
end TypeSurface
