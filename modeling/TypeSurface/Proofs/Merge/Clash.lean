import Mathlib.Data.List.Nodup
import TypeSurface.Merge.Declarations
import TypeSurface.Proofs.Merge.OrderedMaps
import TypeSurface.Proofs.Relation.Renaming

/-!
# Clashes

A clash is one reason why an extension does not go together with its base, with the two sides of
it.  The clashes of two sides are listed in the order of the extension, and the conflicts that a
merge reports are those of this list.
-/

namespace TypeSurface

inductive Clash where
  /-- Two interfaces whose type parameters have other names. -/
  | typeParams (name : String) (base extension : Interface)
  /-- Two members of one key, of which the one would break users of the other. -/
  | member (name : String) (base extension : Interface) (key : MemberKey) (b e : Member)
  | typeAlias (name : String) (base extension : TypeAlias)
  /-- An interface and an alias. -/
  | typeKind (name : String) (base extension : TypeEntry)
  | value (name : String) (base extension : ValueEntry)

/-- A place of a declaration at which something can clash. -/
inductive Site where
  | type (name : String)
  | member (name : String) (key : MemberKey)
  | value (name : String)
deriving DecidableEq

namespace TypeEntry

/-- The keys of the members; an alias has none. -/
def memberKeys : TypeEntry → List MemberKey
  | interface i => i.members.keys
  | typeAlias _ => []

end TypeEntry

/-- All places of some declarations in their order: each type before its members, and types before
values. -/
def Declarations.sites (d : Declarations) : List Site :=
  d.types.entries.flatMap (fun e ↦ .type e.1 :: e.2.memberKeys.map (.member e.1)) ++
    d.values.keys.map .value

namespace Clash

def site : Clash → Site
  | typeParams name _ _ | typeAlias name _ _ | typeKind name _ _ => .type name
  | member name _ _ key _ _ => .member name key
  | value name _ _ => .value name

/-- The conflict that reports the clash. -/
def diagnostic : Clash → Diagnostic
  | typeParams _ b e => Merge.paramConflict b e
  | member _ owner _ key b e => Merge.memberConflict owner.name b e key
  | typeAlias name b e => Merge.aliasConflict name b e
  | typeKind name b e => Merge.kindConflict name b.kindText b.origin e.kindText e.origin
  | value name (.variable b) (.variable e) =>
    if b.kind ≠ e.kind then Merge.kindConflict name b.kind.text b.origin e.kind.text e.origin
    else Merge.valueConflict name b.type.text e.type.text b.origin e.origin
  | value name (.function b) (.function e) =>
    Merge.valueConflict name (Member.overloadsText "" b.overloads)
      (Member.overloadsText "" e.overloads) b.origin e.origin
  | value name b e => Merge.kindConflict name b.kindText b.origin e.kindText e.origin

end Clash

namespace Merge

section Between

variable (table : OrderedMap String TypeEntry)

/-- Two values of one name that do not go together: they differ in kind or in type, or the
extension does not serve every caller of the base. -/
def ValuesDiffer (base extension : ValueEntry) : Prop :=
  match base, extension with
  | .variable b, .variable e => b.kind ≠ e.kind ∨ b.type ≠ e.type
  | .function b, .function e =>
    Relation.overloadsCover (Relation.isAssignable table) e.overloads b.overloads = false
  | _, _ => True

/-- Whether the clash is one between the two sides, under the aliases of a table. -/
def IsClash (base extension : Declarations) : Clash → Prop
  | .typeParams name b e =>
    base.types.get? name = some (.interface b) ∧ extension.types.get? name = some (.interface e) ∧
      b.typeParams.map TypeParam.name ≠ e.typeParams.map TypeParam.name
  | .member name b e key x y =>
    base.types.get? name = some (.interface b) ∧ extension.types.get? name = some (.interface e) ∧
      b.members.get? key = some x ∧ e.members.get? key = some y ∧
      member? table .replace x y = none
  | .typeAlias name b e =>
    base.types.get? name = some (.typeAlias b) ∧ extension.types.get? name = some (.typeAlias e) ∧
      ¬(b.typeParams = e.typeParams ∧ b.type = e.type)
  | .typeKind name b e =>
    base.types.get? name = some b ∧ extension.types.get? name = some e ∧
      b.interface?.isSome ≠ e.interface?.isSome
  | .value name b e =>
    base.values.get? name = some b ∧ extension.values.get? name = some e ∧
      ValuesDiffer table b e

def memberClashes (name : String) (base extension : Interface) (e : MemberKey × Member) :
    List Clash :=
  match base.members.get? e.1 with
  | none => []
  | some b =>
    if (member? table .replace b e.2).isSome then []
    else [.member name base extension e.1 b e.2]

def typeClashes (base : OrderedMap String TypeEntry) (e : String × TypeEntry) : List Clash :=
  match base.get? e.1, e.2 with
  | none, _ => []
  | some (.interface b), .interface i =>
    (if haveSameParams b i then [] else [.typeParams e.1 b i]) ++
      i.members.entries.flatMap (memberClashes table e.1 b i)
  | some (.typeAlias b), .typeAlias a =>
    if b.typeParams = a.typeParams ∧ b.type = a.type then [] else [.typeAlias e.1 b a]
  | some b, entry => [.typeKind e.1 b entry]

instance (base extension : ValueEntry) : Decidable (ValuesDiffer table base extension) := by
  unfold ValuesDiffer
  split <;> infer_instance

def valueClashes (base : OrderedMap String ValueEntry) (e : String × ValueEntry) : List Clash :=
  match base.get? e.1 with
  | none => []
  | some b => if ValuesDiffer table b e.2 then [.value e.1 b e.2] else []

/-- The clashes of two sides in the order of the extension. -/
def clashes (base extension : Declarations) : List Clash :=
  extension.types.entries.flatMap (typeClashes table base.types) ++
    extension.values.entries.flatMap (valueClashes table base.values)

end Between

theorem haveSameParams_iff {base extension : Interface} :
    haveSameParams base extension = true ↔
      base.typeParams.map TypeParam.name = extension.typeParams.map TypeParam.name := by
  unfold haveSameParams
  rw [Bool.and_eq_true, beq_iff_eq]
  constructor
  · rintro ⟨hlength, hnames⟩
    exact (Relation.haveSameNames_iff hlength).1 hnames
  · intro hnames
    have hlength : base.typeParams.length = extension.typeParams.length := by
      simpa using congrArg List.length hnames
    exact ⟨hlength, (Relation.haveSameNames_iff hlength).2 hnames⟩

/-! A merge reports the clashes. -/

section Reports

variable {table : OrderedMap String TypeEntry}

theorem metConflicts_members (name : String) (base extension : Interface)
    (e : MemberKey × Member) :
    metConflicts (members table .replace base.name) base.members e =
      (memberClashes table name base extension e).map Clash.diagnostic := by
  unfold metConflicts memberClashes members
  cases base.members.get? e.1 with
  | none => rfl
  | some b =>
    cases h : member? table .replace b e.2 with
    | none => simp [h, Clash.diagnostic]
    | some m => simp [h, Merged.clean]

theorem conflicts_interfaces (name : String) (base extension : Interface) :
    (interfaces table .replace base extension).conflicts =
      ((if haveSameParams base extension then [] else [Clash.typeParams name base extension]) ++
        extension.members.entries.flatMap (memberClashes table name base extension)).map
          Clash.diagnostic := by
  have hmembers : (mapsWith (members table .replace base.name) base.members
      extension.members).conflicts =
      (extension.members.entries.flatMap (memberClashes table name base extension)).map
        Clash.diagnostic := by
    rw [mapsWith_conflicts, List.map_flatMap]
    congr 1
    funext e
    exact metConflicts_members name base extension e
  rw [List.map_append, ← hmembers]
  by_cases h : haveSameParams base extension = true <;>
    simp [interfaces, h, Clash.diagnostic]

theorem metConflicts_typeEntries (base : OrderedMap String TypeEntry) (e : String × TypeEntry) :
    metConflicts (typeEntries table .replace) base e =
      (typeClashes table base e).map Clash.diagnostic := by
  obtain ⟨name, entry⟩ := e
  unfold metConflicts typeClashes
  cases base.get? name with
  | none => rfl
  | some b =>
    cases b with
    | interface b =>
      cases entry with
      | interface i => exact conflicts_interfaces name b i
      | typeAlias a => rfl
    | typeAlias b =>
      cases entry with
      | interface i => rfl
      | typeAlias a =>
        by_cases h : b.typeParams = a.typeParams ∧ b.type = a.type <;>
          simp [typeEntries, h, Clash.diagnostic]

theorem conflicts_functionEntries (name : String) (base extension : Function) :
    (functionEntries table .replace name base extension).conflicts =
      if ValuesDiffer table (.function base) (.function extension) then
        [Clash.diagnostic (.value name (.function base) (.function extension))]
      else [] := by
  unfold functionEntries overloads? ValuesDiffer
  by_cases h : Relation.overloadsCover (Relation.isAssignable table) extension.overloads
      base.overloads = true <;>
    simp [h, Clash.diagnostic, Merged.clean]

theorem conflicts_variableEntries (name : String) (base extension : Variable) :
    (variableEntries name base extension).conflicts =
      if ValuesDiffer table (.variable base) (.variable extension) then
        [Clash.diagnostic (.value name (.variable base) (.variable extension))]
      else [] := by
  unfold variableEntries ValuesDiffer
  by_cases hk : base.kind = extension.kind
  · by_cases ht : base.type = extension.type <;> simp [hk, ht, Clash.diagnostic]
  · simp [hk, Clash.diagnostic]

theorem metConflicts_valueEntries (base : OrderedMap String ValueEntry)
    (e : String × ValueEntry) :
    metConflicts (valueEntries table .replace) base e =
      (valueClashes table base e).map Clash.diagnostic := by
  obtain ⟨name, entry⟩ := e
  unfold metConflicts valueClashes
  cases base.get? name with
  | none => rfl
  | some b =>
    have hmap : ∀ P [Decidable P] (c : Clash),
        (if P then [c] else []).map Clash.diagnostic = if P then [c.diagnostic] else [] := by
      intro P _ c
      by_cases hP : P <;> simp [hP]
    simp only [hmap]
    match b, entry with
    | .variable b, .variable v => exact conflicts_variableEntries name b v
    | .variable b, .function f => simp [valueEntries, ValuesDiffer, Clash.diagnostic]
    | .function b, .variable v => simp [valueEntries, ValuesDiffer, Clash.diagnostic]
    | .function b, .function f => exact conflicts_functionEntries name b f

theorem conflicts_declarations (base extension : Declarations) :
    (declarations .replace base extension).conflicts =
      (clashes (aliases base.types extension.types) base extension).map Clash.diagnostic := by
  unfold clashes
  rw [List.map_append, List.map_flatMap, List.map_flatMap]
  simp only [← metConflicts_typeEntries, ← metConflicts_valueEntries, ← mapsWith_conflicts]
  rfl

end Reports

end Merge
end TypeSurface
