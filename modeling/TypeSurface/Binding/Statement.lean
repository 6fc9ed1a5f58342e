import TypeSurface.Merge.Declarations

/-!
# Binding statements

A statement declares one name.  What a file declares is gathered statement by statement, and the
members of an interface one by one, so that repeated functions and methods add overloads.
-/

namespace TypeSurface
namespace Binding

/-- The set and the file that statements are bound for. -/
structure Context where
  set : String
  file : String

def Context.origin (c : Context) (span : Span) : Origin := ⟨c.set, c.file, span⟩

def member (c : Context) (m : PlacedMember) : Member :=
  let origin := c.origin m.span
  match m.form with
  | .property name isReadonly isOptional type =>
    ⟨.named name.key, some name, .property type, isReadonly, isOptional, origin⟩
  | .method name isOptional signature =>
    ⟨.named name.key, some name, .method [signature], false, isOptional, origin⟩
  | .index isReadonly keyName keyType type =>
    ⟨.index (.ofType keyType), none, .index keyName keyType type, isReadonly, false, origin⟩
  | .call signature => ⟨.call, none, .call [signature], false, false, origin⟩
  | .construct signature => ⟨.construct, none, .construct [signature], false, false, origin⟩

/-- One more member of an interface body. -/
def addMember (c : Context) (merged : Merged Interface) (m : PlacedMember) : Merged Interface :=
  let i := merged.value
  let bound := member c m
  let next := Merge.interfaces .empty .gather i
    ⟨i.name, i.typeParams, [], .singleton bound.key bound, i.origin⟩
  ⟨next.value, merged.conflicts ++ next.conflicts⟩

/-- The declarations that hold a type alone. -/
def ofType (entry : TypeEntry) : Declarations := ⟨.singleton entry.name entry, .empty⟩

/-- The declarations that hold a value alone. -/
def ofValue (entry : ValueEntry) : Declarations := ⟨.empty, .singleton entry.name entry⟩

/-- What a statement declares by itself. -/
def single (c : Context) (s : Statement) : Merged Declarations :=
  let origin := c.origin s.span
  match s.body with
  | .interface typeParams heritage members =>
    let merged := members.foldl (addMember c)
      (.clean ⟨s.name, typeParams, heritage, .empty, origin⟩)
    ⟨ofType (.interface merged.value), merged.conflicts⟩
  | .typeAlias typeParams type =>
    .clean (ofType (.typeAlias ⟨s.name, typeParams, type, origin⟩))
  | .variable kind type => .clean (ofValue (.variable ⟨s.name, kind, type, origin⟩))
  | .function signature => .clean (ofValue (.function ⟨s.name, [signature], origin⟩))

/-- One more statement of a file. -/
def addStatement (c : Context) (merged : Merged Declarations) (s : Statement) :
    Merged Declarations :=
  let own := single c s
  let next := Merge.declarations .gather merged.value own.value
  ⟨next.value, merged.conflicts ++ own.conflicts ++ next.conflicts⟩

def statements (c : Context) (ss : List Statement) : Merged Declarations :=
  ss.foldl (addStatement c) (.clean .empty)

end Binding
end TypeSurface
