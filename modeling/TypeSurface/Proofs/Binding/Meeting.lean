import TypeSurface.Proofs.Binding.Places
import TypeSurface.Proofs.Relation.AliasTables

/-!
# Values that meet

A statement that gives a value another type goes together with the statements in front of it only if
the types are related under the aliases that these declare.
-/

namespace TypeSurface

/-! ### Aliases so far -/

/-- The alias that a statement declares, wherever it stands. -/
def StatementForm.alias? : StatementForm → Option (String × TypeEntry)
  | .typeAlias name typeParams type => some (name, .typeAlias ⟨name, typeParams, type, default⟩)
  | _ => none

/-- The aliases that statements declare. -/
def aliasTable (ss : List Statement) : OrderedMap String TypeEntry :=
  .ofList ((ss.map Statement.form).filterMap StatementForm.alias?)

section Tables

variable {ss ts : List Statement} {s : Statement} {n : String} {typeParams : List TypeParam}
  {type : TypeExpr} {entry : TypeEntry}

theorem Statement.form_eq_typeAlias_iff : s.form = .typeAlias n typeParams type ↔
    s.name = n ∧ s.body = .typeAlias typeParams type := by
  obtain ⟨name, nameSpan, span, body⟩ := s
  cases body <;> simp [form]

theorem StatementForm.eq_of_alias? {form : StatementForm} (h : form.alias? = some (n, entry)) :
    ∃ typeParams type, form = .typeAlias n typeParams type ∧
      entry.aliased? = some (typeParams, type) := by
  cases form with
  | typeAlias name typeParams type =>
    cases h
    exact ⟨_, _, rfl, rfl⟩
  | _ => cases h

theorem aliasTable_congr (h : ss.map Statement.form = ts.map Statement.form) :
    aliasTable ss = aliasTable ts := by
  rw [aliasTable, aliasTable, h]

theorem get?_aliasTable (ss : List Statement) (n : String) :
    (aliasTable ss).get? n = (((ss.map Statement.form).filterMap StatementForm.alias?).reverse.find?
      fun e ↦ decide (e.1 = n)).map Prod.snd := by
  have hfold := Merge.get?_foldl_insert ((ss.map Statement.form).filterMap StatementForm.alias?)
    .empty n
  rw [OrderedMap.get?_empty, Option.or_none] at hfold
  exact hfold

theorem exists_of_get?_aliasTable (h : (aliasTable ss).get? n = some entry) :
    ∃ s ∈ ss, ∃ typeParams type, s.form = .typeAlias n typeParams type ∧
      entry.aliased? = some (typeParams, type) := by
  rw [get?_aliasTable, Option.map_eq_some_iff] at h
  obtain ⟨⟨m, entry⟩, hfind, rfl⟩ := h
  obtain rfl : m = n := by simpa using List.find?_some hfind
  have hmem := List.mem_reverse.1 (List.mem_of_find?_eq_some hfind)
  obtain ⟨form, hform, halias⟩ := List.mem_filterMap.1 hmem
  obtain ⟨s, hs, rfl⟩ := List.mem_map.1 hform
  obtain ⟨typeParams, type, hform, hentry⟩ := StatementForm.eq_of_alias? halias
  exact ⟨s, hs, typeParams, type, hform, hentry⟩

theorem get?_aliasTable_ne_none (hs : s ∈ ss) (h : s.form = .typeAlias n typeParams type) :
    (aliasTable ss).get? n ≠ none := by
  rw [get?_aliasTable, ne_eq, Option.map_eq_none_iff, List.find?_eq_none]
  intro hnone
  refine hnone (n, .typeAlias ⟨n, typeParams, type, default⟩) ?_ (decide_eq_true rfl)
  rw [List.mem_reverse, List.mem_filterMap]
  exact ⟨s.form, List.mem_map_of_mem hs, by rw [h]; rfl⟩

/-- What has been gathered holds the aliases of the statements. -/
theorem Declarations.Gathers.aliased?_get? {d : Declarations} (h : d.Gathers ss) (n : String) :
    (d.types.get? n).bind TypeEntry.aliased? =
      ((aliasTable ss).get? n).bind TypeEntry.aliased? := by
  cases htable : (aliasTable ss).get? n with
  | none =>
    cases hd : d.types.get? n with
    | none => rfl
    | some entry =>
      cases entry with
      | interface i => rfl
      | typeAlias a =>
        obtain ⟨s, hs, halias⟩ := h.aliases n a hd
        exact absurd htable (get?_aliasTable_ne_none hs (Statement.form_eq_typeAlias_iff.2 halias))
  | some entry =>
    obtain ⟨s, hs, typeParams, type, hform, hentry⟩ := exists_of_get?_aliasTable htable
    obtain ⟨rfl, hbody⟩ := Statement.form_eq_typeAlias_iff.1 hform
    obtain ⟨a, ha, rfl, rfl⟩ := h.isAlias s hs typeParams type hbody
    rw [ha]
    exact hentry.symm

end Tables

/-! ### Values that meet -/

/-- Whether a statement brings the type `t` to a value that has the type `u` so far. -/
def Statement.Brings (ts : List Statement) (s : Statement) (t u : TypeExpr) : Prop :=
  ∃ k, lastValue? (under k (s.membersOf s.name)) = some t ∧
    lastValue? (under k (TypeSurface.membersOf s.name ts)) = some u

section Values

variable {types : OrderedMap String TypeEntry} {ts : List Statement} {s : Statement} {name : String}
  {fs : List MemberForm} {i : Interface} {m m' r : Member} {k : MemberKey} {t u : TypeExpr}

theorem Statement.eq_of_mem_membersOf {f : MemberForm} (h : f ∈ s.membersOf name) :
    s.name = name ∧ s.isInterface = true := by
  obtain ⟨n, nameSpan, span, body⟩ := s
  cases body with
  | interface typeParams heritage members =>
    simp only [membersOf] at h
    split at h
    · next hname => exact ⟨hname, rfl⟩
    · cases h
  | _ => cases h

theorem MemberForm.overloading?_of_valueType? {f : MemberForm} (h : f.valueType? = some t) :
    f.overloading? = none := by
  cases f <;> first | rfl | cases h

theorem Member.Gathers.lastValue?_eq (h : m.Gathers fs) (ht : m.body.valueType? = some t) :
    lastValue? fs = some t := by
  cases h with
  | overloads kind _ hbody _ =>
    rw [hbody] at ht
    cases kind <;> cases ht
  | value _ _ hvalue => exact hvalue.trans ht

theorem Member.Gathers.valueType?_eq (h : m.Gathers fs) (ht : lastValue? fs = some t) :
    m.body.valueType? = some t := by
  cases h with
  | overloads kind hkind _ _ =>
    obtain ⟨f, hf, hvalue⟩ := Option.bind_eq_some_iff.1 ht
    have hform := hkind f (List.mem_of_getLast? hf)
    rw [MemberForm.overloading?_of_valueType? hvalue] at hform
    cases hform
  | value _ _ hvalue => exact hvalue.symm.trans ht

theorem exists_mem_of_lastValue? (h : lastValue? (under k fs) = some t) :
    ∃ f ∈ fs, f.memberKey = k := by
  obtain ⟨f, hf, -⟩ := Option.bind_eq_some_iff.1 h
  obtain ⟨hmem, hkey⟩ := List.mem_filter.1 (List.mem_of_getLast? hf)
  exact ⟨f, hmem, of_decide_eq_true hkey⟩

/-- The value that was given last under a key is held there. -/
theorem Interface.Gathers.exists_value (h : i.Gathers fs) (ht : lastValue? (under k fs) = some t) :
    ∃ m, i.members.get? k = some m ∧ m.body.valueType? = some t := by
  obtain ⟨f, hf, hk⟩ := exists_mem_of_lastValue? ht
  obtain ⟨m, hm⟩ : ∃ m, i.members.get? k = some m := by
    rw [← OrderedMap.mem_keys_iff, h.keys, List.mem_eraseDups]
    exact hk ▸ List.mem_map_of_mem hf
  exact ⟨m, hm, (h.members k m hm).valueType?_eq ht⟩

/-- Two members only go together if the types of their values do. -/
theorem Merge.isAssignable_of_member? (h : member? types .gather m m' = some r)
    (hu : m.body.valueType? = some u) (ht : m'.body.valueType? = some t) :
    Relation.isAssignable types t u = true := by
  unfold member? at h
  split at h
  · next hshape =>
    simp only [Member.hasSameShape, Bool.and_eq_true, decide_eq_true_eq, beq_iff_eq] at hshape
    obtain ⟨⟨⟨-, hbody⟩, -⟩, -⟩ := hshape
    rw [hbody, ht] at hu
    cases hu
    exact Relation.isAssignable_self ..
  split at h
  · cases h
  split at h
  · next hb he =>
    rw [hb] at hu
    rw [he] at ht
    cases hu
    cases ht
    exact (valueMember?_eq_some h).2.2
  · next hb he =>
    rw [hb] at hu
    rw [he] at ht
    cases hu
    cases ht
    exact (valueMember?_eq_some h).2.2
  · next hb _ =>
    rw [hb] at hu
    cases hu
  · next hb _ =>
    rw [hb] at hu
    cases hu
  · next hb _ =>
    rw [hb] at hu
    cases hu
  · cases h

theorem Statement.membersOf_singleton (s : Statement) (name : String) :
    TypeSurface.membersOf name [s] = s.membersOf name :=
  List.flatMap_singleton ..

theorem Statement.Brings.isInterface (h : s.Brings ts t u) : s.isInterface = true := by
  obtain ⟨k, ht, -⟩ := h
  obtain ⟨f, hf, -⟩ := exists_mem_of_lastValue? ht
  exact (eq_of_mem_membersOf hf).2

theorem Statement.membersOf_congr {s s' : Statement} (h : s.form = s'.form) (name : String) :
    s.membersOf name = s'.membersOf name := by
  obtain ⟨n, nameSpan, span, body⟩ := s
  obtain ⟨n', nameSpan', span', body'⟩ := s'
  cases body <;> cases body' <;> simp_all [form, membersOf]

theorem membersOf_congr {ts ts' : List Statement}
    (h : ts.map Statement.form = ts'.map Statement.form) (name : String) :
    membersOf name ts = membersOf name ts' := by
  induction ts generalizing ts' with
  | nil =>
    obtain rfl : ts' = [] := List.map_eq_nil_iff.1 h.symm
    rfl
  | cons s ts ih =>
    cases ts' with
    | nil => cases h
    | cons s' ts' =>
      obtain ⟨hform, hrest⟩ := List.cons.inj h
      rw [membersOf, membersOf, List.flatMap_cons, List.flatMap_cons,
        Statement.membersOf_congr hform]
      exact congrArg _ (ih hrest)

theorem Statement.Brings.of_forms {s' : Statement} {ts' : List Statement} (h : s.Brings ts t u)
    (hform : s.form = s'.form) (hforms : ts.map Statement.form = ts'.map Statement.form) :
    s'.Brings ts' t u := by
  obtain ⟨k, ht, hu⟩ := h
  refine ⟨k, ?_, ?_⟩
  · rw [← (eq_of_form hform).1, ← membersOf_congr hform]
    exact ht
  · rw [← (eq_of_form hform).1, ← TypeSurface.membersOf_congr hforms]
    exact hu

/-- Where a statement brings a type to a value, it holds the value, and so does what has been
gathered. -/
theorem Statement.Brings.exists_members {d own : Declarations} (h : s.Brings ts t u)
    (hd : d.Gathers ts) (hown : own.Gathers [s]) :
    ∃ i j k m m', d.types.get? s.name = some (.interface i) ∧
      own.types.get? s.name = some (.interface j) ∧ i.members.get? k = some m ∧
      j.members.get? k = some m' ∧ m.body.valueType? = some u ∧ m'.body.valueType? = some t := by
  obtain ⟨j, hj⟩ := hown.isInterface s (List.mem_singleton_self s) h.isInterface
  obtain ⟨k, ht, hu⟩ := h
  obtain ⟨g, hg, -⟩ := exists_mem_of_lastValue? hu
  obtain ⟨s', hs', hg⟩ := List.mem_flatMap.1 hg
  obtain ⟨hname, hinterface⟩ := Statement.eq_of_mem_membersOf hg
  obtain ⟨i, hi⟩ := hd.isInterface s' hs' hinterface
  rw [hname] at hi
  rw [← membersOf_singleton] at ht
  obtain ⟨m, hm, hu⟩ := (hd.interfaces _ i hi).exists_value hu
  obtain ⟨m', hm', ht⟩ := (hown.interfaces _ j hj).exists_value ht
  exact ⟨i, j, k, m, m', hi, hj, hm, hm', hu, ht⟩

/-- A statement with members brings no alias. -/
theorem Declarations.Gathers.aliased?_eq_none {own : Declarations} (hown : own.Gathers [s])
    (hs : s.isInterface = true) (n : String) :
    (own.types.get? n).bind TypeEntry.aliased? = none := by
  cases hn : own.types.get? n with
  | none => rfl
  | some entry =>
    cases entry with
    | interface i => rfl
    | typeAlias a =>
      obtain ⟨s', hs', -, hbody⟩ := hown.aliases n a hn
      rw [List.mem_singleton.1 hs'] at hbody
      rw [Statement.isInterface, hbody] at hs
      cases hs

/-- The types of a statement with members are related under the aliases so far. -/
theorem isAssignable_aliases {d own : Declarations} (hd : d.Gathers ts)
    (hown : ∀ n, (own.types.get? n).bind TypeEntry.aliased? = none) (t u : TypeExpr) :
    Relation.isAssignable (Merge.aliases d.types own.types) t u =
      Relation.isAssignable (aliasTable ts) t u := by
  refine Relation.isAssignable_congr (fun x ↦ Merge.expandAlias?_congr fun n _ ↦ ?_) t u
  rw [Merge.aliased?_get?_aliases, hown, Option.none_or, hd.aliased?_get?]

end Values

namespace Binding

variable {c : Context} {ts : List Statement} {s : Statement} {t u : TypeExpr}

theorem statements_concat (c : Context) (ts : List Statement) (s : Statement) :
    statements c (ts ++ [s]) = addStatement c (statements c ts) s :=
  List.foldl_concat ..

theorem gathers_statements (h : (statements c ts).conflicts = []) :
    (statements c ts).value.Gathers ts :=
  gathers_foldl_addStatement c [] gathers_empty h

/-- A statement only goes together with those in front of it if the types that it brings to values
do with the types that these have. -/
theorem isAssignable_of_clean (hclean : (statements c (ts ++ [s])).conflicts = [])
    (h : s.Brings ts t u) : Relation.isAssignable (aliasTable ts) t u = true := by
  rw [statements_concat] at hclean
  obtain ⟨hbefore, hnext⟩ := List.append_eq_nil_iff.1 hclean
  obtain ⟨hts, hs⟩ := List.append_eq_nil_iff.1 hbefore
  have hd := gathers_statements hts
  have hown := gathers_single c hs
  obtain ⟨i, j, k, m, m', hi, hj, hm, hm', hu, ht⟩ := h.exists_members hd hown
  have htypes := Merge.conflicts_of_mapsWith (List.append_eq_nil_iff.1 hnext).1 hi hj
  have hmembers := Merge.conflicts_of_mapsWith (List.append_eq_nil_iff.1 htypes).2 hm hm'
  obtain ⟨r, hr⟩ := Option.isSome_iff_exists.1 (Merge.conflicts_members_iff.1 hmembers)
  rw [← isAssignable_aliases hd (hown.aliased?_eq_none h.isInterface)]
  exact Merge.isAssignable_of_member? hr hu ht

end Binding
end TypeSurface
