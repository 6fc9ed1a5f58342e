import Mathlib.Data.List.Nodup
import TypeSurface.Proofs.Merge.Clash
import TypeSurface.Proofs.Merge.Members

/-!
# Accounting for a merge

What a merge of declarations holds is fixed entry by entry, and its conflicts are the clashes of
the two sides: one for each place at which they clash, in the order of the extension.
-/

namespace TypeSurface

theorem sublist_flatMap {α β : Type} {f g : α → List β} {l : List α}
    (h : ∀ a ∈ l, (f a).Sublist (g a)) : (l.flatMap f).Sublist (l.flatMap g) := by
  induction l with
  | nil => exact List.Sublist.refl []
  | cons a l ih =>
    rw [List.flatMap_cons, List.flatMap_cons]
    exact (h a List.mem_cons_self).append (ih fun b hb ↦ h b (List.mem_cons_of_mem a hb))

theorem TypeEntry.memberKeys_nodup (entry : TypeEntry) : entry.memberKeys.Nodup := by
  cases entry with
  | interface i => exact i.members.nodup
  | typeAlias a => exact List.nodup_nil

/-- No place of some declarations is listed twice. -/
theorem Declarations.sites_nodup (d : Declarations) : d.sites.Nodup := by
  have hentry : ∀ e : String × TypeEntry,
      (Site.type e.1 :: e.2.memberKeys.map (Site.member e.1)).Nodup := by
    intro e
    refine List.nodup_cons.2 ⟨by simp, ?_⟩
    exact List.Nodup.map (fun _ _ h ↦ (Site.member.inj h).2) e.2.memberKeys_nodup
  have hname : ∀ {e : String × TypeEntry} {s : Site},
      s ∈ Site.type e.1 :: e.2.memberKeys.map (Site.member e.1) →
        s = .type e.1 ∨ ∃ key, s = .member e.1 key := by
    intro e s hs
    rcases List.mem_cons.1 hs with rfl | hs
    · exact Or.inl rfl
    · obtain ⟨key, -, rfl⟩ := List.mem_map.1 hs
      exact Or.inr ⟨key, rfl⟩
  refine List.nodup_append.2 ⟨?_, ?_, ?_⟩
  · refine List.nodup_flatMap.2 ⟨fun e _ ↦ hentry e, ?_⟩
    refine (List.pairwise_map.1 d.types.nodup).imp ?_
    intro a b hne
    refine List.disjoint_left.2 ?_
    intro s ha hb
    rcases hname ha with rfl | ⟨key, rfl⟩ <;> rcases hname hb with h | ⟨key', h⟩
    · exact hne (Site.type.inj h)
    · cases h
    · cases h
    · exact hne (Site.member.inj h).1
  · exact List.Nodup.map (fun _ _ h ↦ Site.value.inj h) d.values.nodup
  · rintro s hs t ht rfl
    obtain ⟨e, -, he⟩ := List.mem_flatMap.1 hs
    obtain ⟨name, -, rfl⟩ := List.mem_map.1 ht
    rcases hname he with h | ⟨key, h⟩ <;> cases h

namespace Merge

section Sites

variable (table : OrderedMap String TypeEntry)

theorem sites_memberClashes (name : String) (base extension : Interface)
    (e : MemberKey × Member) :
    ((memberClashes table name base extension e).map Clash.site).Sublist [.member name e.1] := by
  unfold memberClashes
  cases base.members.get? e.1 with
  | none => exact List.nil_sublist _
  | some b =>
    by_cases h : (member? table .replace b e.2).isSome = true <;> simp [h, Clash.site]

theorem sites_typeClashes (base : OrderedMap String TypeEntry) (e : String × TypeEntry) :
    ((typeClashes table base e).map Clash.site).Sublist
      (.type e.1 :: e.2.memberKeys.map (.member e.1)) := by
  obtain ⟨name, entry⟩ := e
  unfold typeClashes
  dsimp only
  generalize base.get? name = found
  match found, entry with
  | none, _ => exact List.nil_sublist _
  | some (.interface b), .interface i =>
    have hmembers : ((i.members.entries.flatMap (memberClashes table name b i)).map
        Clash.site).Sublist (i.members.keys.map (Site.member name)) := by
      have hkeys : i.members.keys.map (Site.member name) =
          i.members.entries.flatMap (fun e ↦ [Site.member name e.1]) := by
        rw [OrderedMap.keys, List.map_map, ← List.map_eq_flatMap]
        rfl
      rw [List.map_flatMap, hkeys]
      exact sublist_flatMap fun e _ ↦ sites_memberClashes table name b i e
    rw [List.map_append]
    refine List.Sublist.append (?_ : List.Sublist _ [Site.type name]) hmembers
    by_cases h : haveSameParams b i = true <;> simp [h, Clash.site]
  | some (.typeAlias b), .typeAlias a =>
    by_cases h : b.typeParams = a.typeParams ∧ b.type = a.type <;>
      simp [h, Clash.site, TypeEntry.memberKeys]
  | some (.interface b), .typeAlias a => exact List.Sublist.refl _
  | some (.typeAlias b), .interface i =>
    exact (List.nil_sublist _).cons_cons _

theorem sites_valueClashes (base : OrderedMap String ValueEntry) (e : String × ValueEntry) :
    ((valueClashes table base e).map Clash.site).Sublist [.value e.1] := by
  unfold valueClashes
  cases base.get? e.1 with
  | none => exact List.nil_sublist _
  | some b =>
    by_cases h : ValuesDiffer table b e.2 <;> simp [h, Clash.site]

/-- The clashes stand in the order of the extension, at most one at each of its places. -/
theorem sites_clashes (base extension : Declarations) :
    ((clashes table base extension).map Clash.site).Sublist extension.sites := by
  have hvalues : extension.values.keys.map Site.value =
      extension.values.entries.flatMap (fun e ↦ [Site.value e.1]) := by
    rw [OrderedMap.keys, List.map_map, ← List.map_eq_flatMap]
    rfl
  unfold clashes Declarations.sites
  rw [List.map_append, List.map_flatMap, List.map_flatMap, hvalues]
  exact (sublist_flatMap fun e _ ↦ sites_typeClashes table base.types e).append
    (sublist_flatMap fun e _ ↦ sites_valueClashes table base.values e)

theorem clashes_nodup (base extension : Declarations) :
    (clashes table base extension).Nodup :=
  List.Nodup.of_map _ ((sites_clashes table base extension).nodup extension.sites_nodup)

end Sites

section Complete

variable {table : OrderedMap String TypeEntry}

theorem mem_memberClashes_iff {name : String} {base extension : Interface}
    {e : MemberKey × Member} {c : Clash} :
    c ∈ memberClashes table name base extension e ↔
      ∃ b, base.members.get? e.1 = some b ∧ member? table .replace b e.2 = none ∧
        c = .member name base extension e.1 b e.2 := by
  unfold memberClashes
  cases base.members.get? e.1 with
  | none => simp
  | some b =>
    cases h : member? table .replace b e.2 <;> simp [h]

theorem mem_valueClashes_iff {base : OrderedMap String ValueEntry} {e : String × ValueEntry}
    {c : Clash} :
    c ∈ valueClashes table base e ↔
      ∃ b, base.get? e.1 = some b ∧ ValuesDiffer table b e.2 ∧ c = .value e.1 b e.2 := by
  unfold valueClashes
  cases base.get? e.1 with
  | none => simp
  | some b =>
    by_cases h : ValuesDiffer table b e.2 <;> simp [h]

/-- The clash of two interfaces over their parameters, and the clashes over their members. -/
theorem mem_typeClashes_interface_iff {base : OrderedMap String TypeEntry} {name : String}
    {b i : Interface} (hb : base.get? name = some (.interface b)) {c : Clash} :
    c ∈ typeClashes table base (name, .interface i) ↔
      (b.typeParams.map TypeParam.name ≠ i.typeParams.map TypeParam.name ∧
        c = .typeParams name b i) ∨
      ∃ key x y, b.members.get? key = some x ∧ i.members.get? key = some y ∧
        member? table .replace x y = none ∧ c = .member name b i key x y := by
  unfold typeClashes
  rw [hb]
  simp only [List.mem_append, List.mem_flatMap, mem_memberClashes_iff]
  refine or_congr ?_ ?_
  · rw [ne_eq, ← haveSameParams_iff]
    by_cases h : haveSameParams b i = true <;> simp [h]
  · constructor
    · rintro ⟨⟨key, y⟩, hy, x, hx, hno, rfl⟩
      exact ⟨key, x, y, hx, OrderedMap.get?_eq_some_iff.2 hy, hno, rfl⟩
    · rintro ⟨key, x, y, hx, hy, hno, rfl⟩
      exact ⟨(key, y), OrderedMap.get?_eq_some_iff.1 hy, x, hx, hno, rfl⟩

theorem mem_typeClashes_iff {base extension : Declarations} {c : Clash} :
    (∃ e ∈ extension.types.entries, c ∈ typeClashes table base.types e) ↔
      IsClash table base extension c ∧ ∀ name b e, c ≠ .value name b e := by
  constructor
  · rintro ⟨⟨name, entry⟩, hmem, hc⟩
    have he := OrderedMap.get?_eq_some_iff.2 hmem
    match hb : base.types.get? name, entry with
    | none, _ => simp [typeClashes, hb] at hc
    | some (.interface b), .interface i =>
      rcases (mem_typeClashes_interface_iff hb).1 hc with ⟨hne, rfl⟩ | ⟨key, x, y, hx, hy, hno, rfl⟩
      · exact ⟨⟨hb, he, hne⟩, by simp⟩
      · exact ⟨⟨hb, he, hx, hy, hno⟩, by simp⟩
    | some (.typeAlias b), .typeAlias a =>
      by_cases h : b.typeParams = a.typeParams ∧ b.type = a.type
      · simp [typeClashes, hb, h] at hc
      · have : c = .typeAlias name b a := by simpa [typeClashes, hb, h] using hc
        subst this
        exact ⟨⟨hb, he, h⟩, by simp⟩
    | some (.interface b), .typeAlias a =>
      have : c = .typeKind name (.interface b) (.typeAlias a) := by
        simpa [typeClashes, hb] using hc
      subst this
      exact ⟨⟨hb, he, by simp [TypeEntry.interface?]⟩, by simp⟩
    | some (.typeAlias b), .interface i =>
      have : c = .typeKind name (.typeAlias b) (.interface i) := by
        simpa [typeClashes, hb] using hc
      subst this
      exact ⟨⟨hb, he, by simp [TypeEntry.interface?]⟩, by simp⟩
  · rintro ⟨hc, hvalue⟩
    cases c with
    | typeParams name b e =>
      obtain ⟨hb, he, hne⟩ := hc
      refine ⟨_, OrderedMap.get?_eq_some_iff.1 he, ?_⟩
      exact (mem_typeClashes_interface_iff hb).2 (Or.inl ⟨hne, rfl⟩)
    | member name b e key x y =>
      obtain ⟨hb, he, hx, hy, hno⟩ := hc
      refine ⟨_, OrderedMap.get?_eq_some_iff.1 he, ?_⟩
      exact (mem_typeClashes_interface_iff hb).2 (Or.inr ⟨key, x, y, hx, hy, hno, rfl⟩)
    | typeAlias name b e =>
      obtain ⟨hb, he, hne⟩ := hc
      refine ⟨_, OrderedMap.get?_eq_some_iff.1 he, ?_⟩
      simp [typeClashes, hb, hne]
    | typeKind name b e =>
      obtain ⟨hb, he, hne⟩ := hc
      refine ⟨_, OrderedMap.get?_eq_some_iff.1 he, ?_⟩
      cases b <;> cases e <;> simp_all [typeClashes, TypeEntry.interface?]
    | value name b e => exact absurd rfl (hvalue name b e)

/-- The list of clashes is complete and holds nothing else. -/
theorem mem_clashes_iff {base extension : Declarations} {c : Clash} :
    c ∈ clashes table base extension ↔ IsClash table base extension c := by
  unfold clashes
  rw [List.mem_append, List.mem_flatMap, List.mem_flatMap, mem_typeClashes_iff]
  constructor
  · rintro (⟨h, -⟩ | ⟨⟨name, e⟩, hmem, hc⟩)
    · exact h
    · obtain ⟨b, hb, hdiffer, rfl⟩ := mem_valueClashes_iff.1 hc
      exact ⟨hb, OrderedMap.get?_eq_some_iff.2 hmem, hdiffer⟩
  · intro h
    cases c with
    | value name b e =>
      obtain ⟨hb, he, hdiffer⟩ := h
      exact Or.inr ⟨_, OrderedMap.get?_eq_some_iff.1 he,
        mem_valueClashes_iff.2 ⟨b, hb, hdiffer, rfl⟩⟩
    | _ => exact Or.inl ⟨h, by simp⟩

end Complete

/-! ### What two entries make -/

section Meets

variable (table : OrderedMap String TypeEntry)

/-- Of two members the extension stays if it is accepted, and the base otherwise. -/
def MemberMeet (_ : MemberKey) (base extension m : Member) : Prop :=
  m = if (member? table .replace base extension).isSome then extension else base

/-- What two interfaces make: the base, with the heritage of the extension that it lacks behind its
own, and with the members of both. -/
structure InterfaceMeet (base extension i : Interface) : Prop where
  name : i.name = base.name
  typeParams : i.typeParams = base.typeParams
  origin : i.origin = base.origin
  heritage : i.heritage =
    base.heritage ++ (extension.heritage.filter (· ∉ base.heritage)).eraseDups
  members : Joins (MemberMeet table) base.members extension.members i.members

/-- Two interfaces go together; of any other two types the base stays. -/
def TypeMeet (_ : String) (base extension entry : TypeEntry) : Prop :=
  match base, extension with
  | .interface b, .interface e => ∃ i, entry = .interface i ∧ InterfaceMeet table b e i
  | _, _ => entry = base

/-- A function gives way to one that covers it; of any other two values the base stays. -/
def ValueMeet (_ : String) (base extension entry : ValueEntry) : Prop :=
  match base, extension with
  | .function b, .function e =>
    entry = if Relation.overloadsCover (Relation.isAssignable table) e.overloads b.overloads then
      extension else base
  | _, _ => entry = base

variable {table}

theorem members_meet (owner : String) (key : MemberKey) (base extension : Member) :
    MemberMeet table key base extension (members table .replace owner key base extension).value := by
  unfold MemberMeet members
  cases h : member? table .replace base extension with
  | none => simp
  | some m => simp [Merged.clean, (makesMember_of_member? h).eq_extension]

theorem interfaces_meet (base extension : Interface) :
    InterfaceMeet table base extension (interfaces table .replace base extension).value where
  name := rfl
  typeParams := rfl
  origin := rfl
  heritage := appendNew_eq base.heritage extension.heritage
  members := mapsWith_joins (members_meet base.name) base.members extension.members

theorem typeEntries_meet (name : String) (base extension : TypeEntry) :
    TypeMeet table name base extension (typeEntries table .replace name base extension).value :=
  match base, extension with
  | .interface b, .interface e => ⟨_, rfl, interfaces_meet b e⟩
  | .typeAlias _, .typeAlias _ => rfl
  | .interface _, .typeAlias _ => rfl
  | .typeAlias _, .interface _ => rfl

theorem valueEntries_meet (name : String) (base extension : ValueEntry) :
    ValueMeet table name base extension (valueEntries table .replace name base extension).value :=
  match base, extension with
  | .function b, .function e => by
    unfold ValueMeet valueEntries functionEntries overloads?
    by_cases h : Relation.overloadsCover (Relation.isAssignable table) e.overloads
        b.overloads = true <;>
      simp [h, Merged.clean]
  | .variable _, .variable _ => rfl
  | .variable _, .function _ => rfl
  | .function _, .variable _ => rfl

end Meets

/-- A merge of declarations with every entry and every conflict accounted for. -/
structure IsAccounted (base extension : Declarations) (merged : Merged Declarations) : Prop where
  types : Joins (TypeMeet (aliases base.types extension.types)) base.types extension.types
    merged.value.types
  values : Joins (ValueMeet (aliases base.types extension.types)) base.values extension.values
    merged.value.values
  conflicts : ∃ cs : List Clash, merged.conflicts = cs.map Clash.diagnostic ∧
    (cs.map Clash.site).Sublist extension.sites ∧ cs.Nodup ∧
      ∀ c, c ∈ cs ↔ IsClash (aliases base.types extension.types) base extension c

theorem declarations_isAccounted (base extension : Declarations) :
    IsAccounted base extension (declarations .replace base extension) where
  types := mapsWith_joins typeEntries_meet base.types extension.types
  values := mapsWith_joins valueEntries_meet base.values extension.values
  conflicts := ⟨_, conflicts_declarations base extension, sites_clashes _ base extension,
    clashes_nodup _ base extension, fun _ ↦ mem_clashes_iff⟩

/-- The sets are merged from left to right. -/
theorem sets_append_singleton (first : DeclarationSet) (rest : List DeclarationSet)
    (last : DeclarationSet) :
    sets (first :: (rest ++ [last])) =
      ⟨(declarations .replace (sets (first :: rest)).value last.declarations).value,
        (sets (first :: rest)).conflicts ++
          (declarations .replace (sets (first :: rest)).value last.declarations).conflicts⟩ := by
  simp only [sets, List.foldl_append, List.foldl_cons, List.foldl_nil, addSet]

/-- Every entry and every conflict of a merge is accounted for, and several sets are merged one
after the other. -/
theorem merge_accounts_for_everything :
    (∀ base extension, IsAccounted base extension (declarations .replace base extension)) ∧
      sets [] = .clean .empty ∧ (∀ s, sets [s] = .clean s.declarations) ∧
      ∀ first rest last, sets (first :: (rest ++ [last])) =
        ⟨(declarations .replace (sets (first :: rest)).value last.declarations).value,
          (sets (first :: rest)).conflicts ++
            (declarations .replace (sets (first :: rest)).value last.declarations).conflicts⟩ :=
  ⟨declarations_isAccounted, rfl, fun _ ↦ rfl, sets_append_singleton⟩

/-! An interface that meets an alias is a clash too, although neither is an interface or an alias
that both sides declare. -/

/-- `type A = string`. -/
def textAlias : Declarations :=
  ⟨.singleton "A" (.typeAlias ⟨"A", [], .keyword .string, ⟨"base", "base.d.ts", ⟨0, 16⟩⟩⟩), .empty⟩

/-- `interface A {}`. -/
def blankInterface : Declarations :=
  ⟨.singleton "A" (.interface ⟨"A", [], [], .empty, ⟨"js", "js.d.ts", ⟨0, 14⟩⟩⟩), .empty⟩

theorem not_only_shared_kinds_clash :
    ¬∃ cs : List Clash,
      (declarations .replace textAlias blankInterface).conflicts = cs.map Clash.diagnostic ∧
        ∀ c ∈ cs, IsClash (aliases textAlias.types blankInterface.types) textAlias
          blankInterface c ∧ ∀ name b e, c ≠ .typeKind name b e := by
  rintro ⟨cs, hconflicts, hcs⟩
  have hone : (declarations .replace textAlias blankInterface).conflicts.length = 1 := by decide
  rw [hconflicts, List.length_map, List.length_eq_one_iff] at hone
  obtain ⟨c, rfl⟩ := hone
  obtain ⟨hc, hkind⟩ := hcs c List.mem_cons_self
  cases c with
  | typeKind name b e => exact hkind name b e rfl
  | typeParams name b e =>
    have := OrderedMap.get?_eq_some_iff.1 hc.1
    simp [textAlias, OrderedMap.singleton] at this
  | member name b e key x y =>
    have := OrderedMap.get?_eq_some_iff.1 hc.1
    simp [textAlias, OrderedMap.singleton] at this
  | typeAlias name b e =>
    have := OrderedMap.get?_eq_some_iff.1 hc.2.1
    simp [blankInterface, OrderedMap.singleton] at this
  | value name b e => simp [IsClash, textAlias] at hc

end Merge
end TypeSurface
