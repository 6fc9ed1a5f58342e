import TypeSurface.Proofs.Binding.Bound
import TypeSurface.Proofs.Merge.Accounting

/-!
# Well-formed declarations

Each declaration stands under its own name and each member under its own key, what a member is goes
with its key, and the overloads of a member or of a function are there and differ.  Statements bind
well-formed declarations, and merging keeps them well formed under both policies, whether or not the
two sides go together.
-/

namespace TypeSurface

/-- The name and the body that a member under the key may have. -/
inductive MemberKey.Fits : MemberKey → Option PropertyName → MemberBody → Prop
  | property (name : PropertyName) (type : TypeExpr) :
      Fits (.named name.key) (some name) (.property type)
  | method (name : PropertyName) (overloads : List Signature) :
      Fits (.named name.key) (some name) (.method overloads)
  | index (keyName : String) (keyType value : TypeExpr) :
      Fits (.index (.ofType keyType)) none (.index keyName keyType value)
  | call (overloads : List Signature) : Fits .call none (.call overloads)
  | construct (overloads : List Signature) : Fits .construct none (.construct overloads)

/-- There are overloads, and none of them stands twice. -/
def AreOverloads (overloads : List Signature) : Prop := overloads ≠ [] ∧ overloads.Nodup

/-- What the flags and the overloads of a body must be. -/
def MemberBody.Admits (isReadonly isOptional : Bool) : MemberBody → Prop
  | .property _ => True
  | .method overloads => isReadonly = false ∧ AreOverloads overloads
  | .index _ _ _ => isOptional = false
  | .call overloads | .construct overloads =>
    isReadonly = false ∧ isOptional = false ∧ AreOverloads overloads

structure Member.IsWellFormed (k : MemberKey) (m : Member) : Prop where
  key : m.key = k
  fits : k.Fits m.name m.body
  admits : m.body.Admits m.isReadonly m.isOptional

structure Interface.IsWellFormed (name : String) (i : Interface) : Prop where
  name : i.name = name
  members : ∀ k m, i.members.get? k = some m → m.IsWellFormed k

def TypeEntry.IsWellFormed (name : String) : TypeEntry → Prop
  | .interface i => i.IsWellFormed name
  | .typeAlias a => a.name = name

def ValueEntry.IsWellFormed (name : String) : ValueEntry → Prop
  | .variable v => v.name = name
  | .function f => f.name = name ∧ AreOverloads f.overloads

structure Declarations.IsWellFormed (d : Declarations) : Prop where
  types : ∀ name entry, d.types.get? name = some entry → entry.IsWellFormed name
  values : ∀ name entry, d.values.get? name = some entry → entry.IsWellFormed name

/-! ### Merging -/

section Merging

variable {policy : Merge.Policy} {types : OrderedMap String TypeEntry}

theorem AreOverloads.singleton (s : Signature) : AreOverloads [s] :=
  ⟨List.cons_ne_nil _ _, List.nodup_singleton _⟩

theorem AreOverloads.appendNew {base : List Signature} (h : AreOverloads base)
    (extension : List Signature) : AreOverloads (Merge.appendNew base extension) := by
  obtain ⟨s, hs⟩ := List.exists_mem_of_ne_nil _ h.1
  exact ⟨List.ne_nil_of_mem (Merge.mem_appendNew.2 (Or.inl hs)), Merge.nodup_appendNew _ h.2⟩

theorem AreOverloads.overloads? {base extension overloads : List Signature}
    (hbase : AreOverloads base) (hextension : AreOverloads extension)
    (h : Merge.overloads? types policy base extension = some overloads) :
    AreOverloads overloads := by
  unfold Merge.overloads? at h
  split at h
  · exact Option.some.inj h ▸ hbase.appendNew extension
  · split at h
    · exact Option.some.inj h ▸ hextension
    · cases h

theorem MemberKey.Fits.withOverloads {key : MemberKey} {name : Option PropertyName}
    {k : Overloading} {overloads : List Signature} (h : key.Fits name (k.body overloads))
    (others : List Signature) : key.Fits name (k.body others) := by
  cases k with
  | method =>
    cases h
    exact .method _ others
  | call =>
    cases h
    exact .call others
  | construct =>
    cases h
    exact .construct others

/-- More overloads change neither the kind of a member nor its flags. -/
theorem Member.IsWellFormed.gathered {key : MemberKey} {m : Member} {k : Overloading}
    {overloads : List Signature} (h : m.IsWellFormed key) (hbody : m.body = k.body overloads)
    (more : List Signature) :
    ({ m with body := k.body (Merge.appendNew overloads more) } : Member).IsWellFormed key := by
  obtain ⟨hkey, hfits, hadmits⟩ := h
  rw [hbody] at hfits hadmits
  refine ⟨hkey, hfits.withOverloads _, ?_⟩
  cases k with
  | method => exact ⟨hadmits.1, hadmits.2.appendNew more⟩
  | call => exact ⟨hadmits.1, hadmits.2.1, hadmits.2.2.appendNew more⟩
  | construct => exact ⟨hadmits.1, hadmits.2.1, hadmits.2.2.appendNew more⟩

theorem Member.IsWellFormed.members {key : MemberKey} {base extension : Member} (owner : String)
    (hbase : base.IsWellFormed key) (hextension : extension.IsWellFormed key) :
    (Merge.members types policy owner key base extension).value.IsWellFormed key := by
  unfold Merge.members
  split
  · next m hm =>
    rcases (Merge.makesMember_of_member? hm).eq_extension_or_gathered with
      rfl | ⟨k, b, e, hb, -, rfl⟩
    · exact hextension
    · exact hbase.gathered hb e
  · exact hbase

theorem Interface.IsWellFormed.interfaces {name : String} {base extension : Interface}
    (hbase : base.IsWellFormed name)
    (hmembers : ∀ k m, extension.members.get? k = some m → m.IsWellFormed k) :
    (Merge.interfaces types policy base extension).value.IsWellFormed name where
  name := hbase.name
  members := Merge.mapsWith_forall hbase.members hmembers fun _ _ _ hb he ↦ hb.members _ he

theorem TypeEntry.IsWellFormed.typeEntries {name : String} {base extension : TypeEntry}
    (hbase : base.IsWellFormed name) (hextension : extension.IsWellFormed name) :
    (Merge.typeEntries types policy name base extension).value.IsWellFormed name := by
  cases base with
  | interface b =>
    cases extension with
    | interface e => exact Interface.IsWellFormed.interfaces hbase hextension.members
    | typeAlias e => exact hbase
  | typeAlias b => cases extension <;> exact hbase

theorem ValueEntry.IsWellFormed.functionEntries {name : String} {base extension : Function}
    (hbase : (ValueEntry.function base).IsWellFormed name)
    (hextension : (ValueEntry.function extension).IsWellFormed name) :
    (Merge.functionEntries types policy name base extension).value.IsWellFormed name := by
  unfold Merge.functionEntries
  split
  · next overloads hoverloads =>
    cases policy with
    | gather => exact ⟨hbase.1, hbase.2.overloads? hextension.2 hoverloads⟩
    | replace => exact hextension
  · exact hbase

theorem ValueEntry.IsWellFormed.valueEntries {name : String} {base extension : ValueEntry}
    (hbase : base.IsWellFormed name) (hextension : extension.IsWellFormed name) :
    (Merge.valueEntries types policy name base extension).value.IsWellFormed name := by
  rcases base with b | b
  · rcases extension with e | e <;> exact hbase
  · rcases extension with e | e
    · exact hbase
    · exact ValueEntry.IsWellFormed.functionEntries hbase hextension

theorem Declarations.IsWellFormed.declarations {base extension : Declarations}
    (hbase : base.IsWellFormed) (hextension : extension.IsWellFormed) :
    (Merge.declarations policy base extension).value.IsWellFormed where
  types := Merge.mapsWith_forall hbase.types hextension.types fun _ _ _ hb he ↦ hb.typeEntries he
  values :=
    Merge.mapsWith_forall hbase.values hextension.values fun _ _ _ hb he ↦ hb.valueEntries he

theorem Declarations.IsWellFormed.empty : Declarations.empty.IsWellFormed :=
  ⟨Binding.get?_empty_forall, Binding.get?_empty_forall⟩

theorem isWellFormed_foldl_addSet {rest : List DeclarationSet} {merged : Merged Declarations}
    (hmerged : merged.value.IsWellFormed) (hrest : ∀ S ∈ rest, S.declarations.IsWellFormed) :
    (rest.foldl Merge.addSet merged).value.IsWellFormed := by
  induction rest generalizing merged with
  | nil => exact hmerged
  | cons S rest ih =>
    rw [List.forall_mem_cons] at hrest
    apply ih _ hrest.2
    exact hmerged.declarations hrest.1

theorem isWellFormed_sets {sets : List DeclarationSet}
    (h : ∀ S ∈ sets, S.declarations.IsWellFormed) : (Merge.sets sets).value.IsWellFormed := by
  cases sets with
  | nil => exact .empty
  | cons first rest =>
    rw [List.forall_mem_cons] at h
    exact isWellFormed_foldl_addSet h.1 h.2

end Merging

/-! ### Binding -/

namespace Binding

theorem isWellFormed_member (c : Context) (m : PlacedMember) :
    (member c m).IsWellFormed (member c m).key := by
  obtain ⟨form, span⟩ := m
  refine ⟨rfl, ?_, ?_⟩
  · cases form with
    | property name isReadonly isOptional type => exact .property name type
    | method name isOptional signature => exact .method name [signature]
    | index isReadonly keyName keyType type => exact .index keyName keyType type
    | call signature => exact .call [signature]
    | construct signature => exact .construct [signature]
  · cases form with
    | property name isReadonly isOptional type => trivial
    | method name isOptional signature => exact ⟨rfl, .singleton signature⟩
    | index isReadonly keyName keyType type => rfl
    | call signature => exact ⟨rfl, rfl, .singleton signature⟩
    | construct signature => exact ⟨rfl, rfl, .singleton signature⟩

theorem isWellFormed_foldl_addMember (c : Context) (ms : List PlacedMember)
    {merged : Merged Interface} {name : String} (hmerged : merged.value.IsWellFormed name) :
    (ms.foldl (addMember c) merged).value.IsWellFormed name := by
  induction ms generalizing merged with
  | nil => exact hmerged
  | cons m ms ih =>
    apply ih
    exact hmerged.interfaces (get?_singleton_forall (isWellFormed_member c m))

theorem isWellFormed_ofType {name : String} {entry : TypeEntry} (hname : entry.name = name)
    (h : entry.IsWellFormed name) : (ofType entry).IsWellFormed :=
  ⟨get?_singleton_forall (hname.symm ▸ h), get?_empty_forall⟩

theorem isWellFormed_ofValue {name : String} {entry : ValueEntry} (hname : entry.name = name)
    (h : entry.IsWellFormed name) : (ofValue entry).IsWellFormed :=
  ⟨get?_empty_forall, get?_singleton_forall (hname.symm ▸ h)⟩

theorem isWellFormed_single (c : Context) (s : Statement) :
    (single c s).value.IsWellFormed := by
  obtain ⟨name, nameSpan, span, body⟩ := s
  rcases body with ⟨typeParams, heritage, members⟩ | ⟨typeParams, type⟩ | ⟨kind, type⟩ | signature
  · have hempty : Interface.IsWellFormed name
        ⟨name, typeParams, heritage, .empty, c.origin span⟩ := ⟨rfl, get?_empty_forall⟩
    have hall : (members.foldl (addMember c)
        (.clean ⟨name, typeParams, heritage, .empty, c.origin span⟩)).value.IsWellFormed name :=
      isWellFormed_foldl_addMember c members hempty
    exact isWellFormed_ofType hall.name hall
  · exact @isWellFormed_ofType name _ rfl rfl
  · exact @isWellFormed_ofValue name _ rfl rfl
  · exact isWellFormed_ofValue rfl ⟨rfl, .singleton signature⟩

theorem isWellFormed_foldl_addStatement (c : Context) (ss : List Statement)
    {merged : Merged Declarations} (hmerged : merged.value.IsWellFormed) :
    (ss.foldl (addStatement c) merged).value.IsWellFormed := by
  induction ss generalizing merged with
  | nil => exact hmerged
  | cons s ss ih =>
    apply ih
    exact hmerged.declarations (isWellFormed_single c s)

theorem isWellFormed_of_parse {file source : String} {S : DeclarationSet}
    (h : DeclarationSet.parse file source = .ok S) : S.declarations.IsWellFormed := by
  obtain ⟨c, hc⟩ := DeclarationSet.parse_declarations h
  exact hc ▸ isWellFormed_foldl_addStatement c _ .empty

end Binding

namespace DeclarationSet

/-- A set that some file declares. -/
def IsParsed (S : DeclarationSet) : Prop := ∃ file source, parse file source = .ok S

/-- What files declare is well formed, and so is what any number of them make together. -/
theorem isWellFormed_of_isParsed {sets : List DeclarationSet} (h : ∀ S ∈ sets, S.IsParsed) :
    (∀ S ∈ sets, S.declarations.IsWellFormed) ∧ (Merge.sets sets).value.IsWellFormed := by
  have hsets : ∀ S ∈ sets, S.declarations.IsWellFormed := by
    intro S hS
    obtain ⟨file, source, hparse⟩ := h S hS
    exact Binding.isWellFormed_of_parse hparse
  exact ⟨hsets, isWellFormed_sets hsets⟩

theorem eq_ok_of_toOption {ε α : Type} {e : Except ε α} {a : α} (h : e.toOption = some a) :
    e = .ok a := by
  cases e with
  | error _ => cases h
  | ok b => exact congrArg Except.ok (Option.some.inj h)

theorem exists_eq_ok_of_toOption {ε α : Type} {e : Except ε α} (h : e.toOption.isSome = true) :
    ∃ a, e = .ok a := by
  obtain ⟨a, ha⟩ := Option.isSome_iff_exists.1 h
  exact ⟨a, eq_ok_of_toOption ha⟩

/-- A base file with a method of two overloads. -/
def overloadedSource : String :=
  "/// <set id=\"base\" />\ninterface Box \x7b at(i: int): int; at(i: string): string \x7d"

/-- An extension that does not go together with it. -/
def conflictingSource : String :=
  "/// <set id=\"js\" mode=\"js\" />\ninterface Box \x7b at(i: int): void; new(): Box \x7d"

theorem isWellFormed_of_isParsed_conflicting :
    ∃ S T, parse "base.d.ts" overloadedSource = .ok S ∧ parse "js.d.ts" conflictingSource = .ok T ∧
      (∀ U ∈ [S, T], U.declarations.IsWellFormed) ∧ (Merge.sets [S, T]).value.IsWellFormed := by
  have hbase : (parse "base.d.ts" overloadedSource).toOption.isSome = true := by decide +kernel
  have hextension : (parse "js.d.ts" conflictingSource).toOption.isSome = true := by decide +kernel
  obtain ⟨S, hS⟩ := exists_eq_ok_of_toOption hbase
  obtain ⟨T, hT⟩ := exists_eq_ok_of_toOption hextension
  refine ⟨S, T, hS, hT, isWellFormed_of_isParsed ?_⟩
  rw [List.forall_mem_cons, List.forall_mem_singleton]
  exact ⟨⟨_, _, hS⟩, ⟨_, _, hT⟩⟩

end DeclarationSet
end TypeSurface
