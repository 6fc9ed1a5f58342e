import TypeSurface.Binding.File
import TypeSurface.Proofs.Binding.Meeting

/-!
# The place of an alias

The statements of a file are bound one after the other, and the types of members are related under
the aliases that have been bound by then.  Two files that differ in the place of an alias are bound
side by side: up to the alias of the one, up to the alias of the other, and on to the end.
-/

namespace TypeSurface

/-- Declarations that agree off a name, and what they hold under it. -/
structure Declarations.AgreeWith (name : String) (e e' : Option TypeEntry) (d d' : Declarations) :
    Prop where
  off : d.AgreeOff name d'
  left : (d.types.get? name).map TypeEntry.unplaced = e
  right : (d'.types.get? name).map TypeEntry.unplaced = e'

theorem Declarations.AgreeWith.symm {name : String} {e e' : Option TypeEntry}
    {d d' : Declarations} (h : d.AgreeWith name e e' d') : d'.AgreeWith name e' e d :=
  ⟨h.off.symm, h.right, h.left⟩

theorem Declarations.AgreeWith.insert {name : String} {e' : Option TypeEntry}
    {d d' : Declarations} (h : d.AgreeWith name none e' d') (entry : TypeEntry) :
    Declarations.AgreeWith name (some entry.unplaced) e' ⟨d.types.insert name entry, d.values⟩
      d' := by
  have hname := OrderedMap.get?_eq_none_iff.1 (Option.map_eq_none_iff.1 h.left)
  refine ⟨⟨⟨?_, fun n hn ↦ ?_⟩, h.off.values⟩, ?_, h.right⟩
  · rw [OrderedMap.keys_insert, if_neg hname, List.filter_append, h.off.types.keys]
    simp
  · rw [OrderedMap.get?_insert_of_ne _ _ (of_decide_eq_true hn)]
    exact h.off.types.get? n hn
  · rw [OrderedMap.get?_insert_self]
    rfl

theorem Declarations.AgreeWith.map_get?_types {name : String} {e : Option TypeEntry}
    {d d' : Declarations} (h : d.AgreeWith name e e d') (n : String) :
    (d.types.get? n).map TypeEntry.unplaced = (d'.types.get? n).map TypeEntry.unplaced := by
  by_cases hn : n = name
  · subst hn
    exact h.left.trans h.right.symm
  · exact h.off.types.get? n (decide_eq_true hn)

theorem Merged.Tracks.swap {α : Type} {Q : Prop} {A B : α → α → Prop} {m m' : Merged α}
    (h : m.Tracks Q A m') (hswap : ∀ a b, A a b → B b a) : m'.Tracks Q B m :=
  ⟨fun hQ ↦ (h.clean hQ).symm, fun hm' hm ↦ hswap _ _ (h.value hm hm')⟩

namespace Binding

/-! ### Judging alike -/

/-- Whether a statement is judged alike behind any two bindings that agree off the name. -/
def IsJudgedAlike (name : String) (e e' : Option TypeEntry) (ts ts' : List Statement)
    (s : Statement) : Prop :=
  ∀ d d' own own' : Declarations, d.AgreeWith name e e' d' → d.Gathers ts → d'.Gathers ts' →
    own.AgreeWith name none none own' → own.Gathers [s] → ∀ n i j,
      d.types.get? n = some (.interface i) → own.types.get? n = some (.interface j) →
        Merge.SameVerdicts (Merge.aliases d.types own.types) (Merge.aliases d'.types own'.types) i j

section Judging

variable {name : String} {e e' : Option TypeEntry} {ts' : List Statement}

/-- Where both bindings hold the same, every statement is judged alike. -/
theorem isJudgedAlike_self (name : String) (e : Option TypeEntry) (ts ts' : List Statement)
    (s : Statement) : IsJudgedAlike name e e ts ts' s := by
  intro d d' own own' hd _ _ hown _ n i j _ _ k m m' _ _ u t _ _
  refine Relation.isAssignable_congr (fun x ↦ Merge.expandAlias?_congr fun n _ ↦ ?_) t u
  rw [Merge.aliased?_get?_aliases, Merge.aliased?_get?_aliases,
    TypeEntry.bind_aliased?_congr (hd.map_get?_types n),
    TypeEntry.bind_aliased?_congr (hown.map_get?_types n)]

/-- A statement is judged alike if the types that it brings to values are. -/
theorem isJudgedAlike_of_brings (h : ∀ t u, s.Brings ts t u →
      Relation.isAssignable (aliasTable ts) t u = Relation.isAssignable (aliasTable ts') t u) :
    IsJudgedAlike name e e' ts ts' s := by
  intro d d' own own' _ hd hd' hown howns n i j hi hj k m m' hm hm' u t hu ht
  have hlast := ((hd.interfaces n i hi).members k m hm).lastValue?_eq hu
  have hlast' := ((howns.interfaces n j hj).members k m' hm').lastValue?_eq ht
  rw [Statement.membersOf_singleton] at hlast'
  obtain ⟨f, hf, -⟩ := exists_mem_of_lastValue? hlast'
  obtain ⟨rfl, hinterface⟩ := Statement.eq_of_mem_membersOf hf
  have hnone := howns.aliased?_eq_none hinterface
  have hnone' (n : String) : (own'.types.get? n).bind TypeEntry.aliased? = none := by
    rw [← TypeEntry.bind_aliased?_congr (hown.map_get?_types n), hnone]
  rw [isAssignable_aliases hd hnone, isAssignable_aliases hd' hnone']
  exact h t u ⟨k, hlast', hlast⟩

end Judging

/-! ### Statement by statement -/

section Statements

variable {Q : Prop} {name : String} {e e' : Option TypeEntry} {c c' : Context}
  {ts ts' : List Statement}

theorem get?_types_addStatement {s : Statement} (hname : s.isType = true → s.name ≠ name)
    (merged : Merged Declarations) :
    (addStatement c merged s).value.types.get? name = merged.value.types.get? name :=
  Merge.get?_mapsWith_of_none
    (OrderedMap.get?_eq_none_iff.2 (notMem_keys_types_single c hname))

theorem tracks_statements_concat {s s' : Statement}
    (h : (statements c ts).Tracks Q (Declarations.AgreeWith name e e') (statements c' ts'))
    (hform : s.form = s'.form) (hname : s.isType = true → s.name ≠ name)
    (hjudged : Q → IsJudgedAlike name e e' ts ts' s) :
    (statements c (ts ++ [s])).Tracks Q (Declarations.AgreeWith name e e')
      (statements c' (ts' ++ [s'])) := by
  have hname' : s'.isType = true → s'.name ≠ name := by
    obtain ⟨hsame, htype⟩ := Statement.eq_of_form hform
    rwa [← hsame, ← htype]
  have hnone {c : Context} {s : Statement} (hname : s.isType = true → s.name ≠ name) :
      ((single c s).value.types.get? name).map TypeEntry.unplaced = none := by
    rw [OrderedMap.get?_eq_none_iff.2 (notMem_keys_types_single c hname)]
    rfl
  rw [statements_concat, statements_concat]
  have hadded := tracks_addStatement c c' ⟨h.clean, fun hm hm' ↦ (h.value hm hm').off⟩ hform hname
    fun hQ hm hm' hs _ hown ↦ hjudged hQ _ _ _ _ (h.value hm hm') (gathers_statements hm)
      (gathers_statements hm') ⟨hown, hnone hname, hnone hname'⟩ (gathers_single c hs)
  refine ⟨hadded.clean, fun hm hm' ↦ ?_⟩
  obtain ⟨-, hleft, hright⟩ := h.value (List.prefix_nil.1 (hm ▸ conflicts_addStatement c _ s))
    (List.prefix_nil.1 (hm' ▸ conflicts_addStatement c' _ s'))
  refine ⟨hadded.value hm hm', ?_, ?_⟩
  · rw [get?_types_addStatement hname, hleft]
  · rw [get?_types_addStatement hname', hright]

/-- Files with the same statements are bound alike, where each statement is judged alike. -/
theorem tracks_statements_append {ss ss' : List Statement}
    (h : (statements c ts).Tracks Q (Declarations.AgreeWith name e e') (statements c' ts'))
    (hforms : ss.map Statement.form = ss'.map Statement.form)
    (hname : ∀ s ∈ ss, s.isType = true → s.name ≠ name)
    (hjudged : ∀ before s after before', ss = before ++ s :: after →
      before.map Statement.form = before'.map Statement.form → Q →
        IsJudgedAlike name e e' (ts ++ before) (ts' ++ before') s) :
    (statements c (ts ++ ss)).Tracks Q (Declarations.AgreeWith name e e')
      (statements c' (ts' ++ ss')) := by
  induction ss generalizing ss' ts ts' with
  | nil =>
    obtain rfl : ss' = [] := List.map_eq_nil_iff.1 hforms.symm
    rwa [List.append_nil, List.append_nil]
  | cons s ss ih =>
    cases ss' with
    | nil => cases hforms
    | cons s' ss' =>
      obtain ⟨hform, hrest⟩ := List.cons.inj hforms
      rw [List.forall_mem_cons] at hname
      rw [List.append_cons ts, List.append_cons ts']
      refine ih (tracks_statements_concat h hform hname.1 fun hQ ↦ ?_) hrest hname.2
        fun before t after before' heq hbefore hQ ↦ ?_
      · simpa using hjudged [] s ss [] rfl rfl hQ
      · simpa using hjudged (s :: before) t after (s' :: before') (congrArg (s :: ·) heq)
          (congrArg₂ List.cons hform hbefore) hQ

/-- An alias as it is held, wherever it stands. -/
def heldAlias (name : String) (typeParams : List TypeParam) (type : TypeExpr) : TypeEntry :=
  .typeAlias ⟨name, typeParams, type, default⟩

/-- An alias whose name is free is bound behind the other types. -/
theorem addStatement_of_alias {a : Statement} {typeParams : List TypeParam} {type : TypeExpr}
    {merged : Merged Declarations} (ha : a.form = .typeAlias name typeParams type)
    (hname : merged.value.types.get? name = none) :
    addStatement c merged a = ⟨⟨merged.value.types.insert name
      (.typeAlias ⟨name, typeParams, type, c.origin a.span⟩), merged.value.values⟩,
      merged.conflicts⟩ := by
  obtain ⟨n, nameSpan, span, body⟩ := a
  cases body <;> cases ha
  simp [addStatement, single, ofType, TypeEntry.name, Merge.declarations, Merge.mapsWith,
    OrderedMap.singleton, OrderedMap.empty, Merged.clean, hname]

theorem tracks_statements_alias {a : Statement} {typeParams : List TypeParam} {type : TypeExpr}
    (h : (statements c ts).Tracks Q (Declarations.AgreeWith name none e') (statements c' ts'))
    (ha : a.form = .typeAlias name typeParams type) :
    (statements c (ts ++ [a])).Tracks Q
      (Declarations.AgreeWith name (some (heldAlias name typeParams type)) e')
      (statements c' ts') := by
  have hbefore (hadded : (addStatement c (statements c ts) a).conflicts = []) :
      (statements c ts).conflicts = [] :=
    List.prefix_nil.1 (hadded ▸ conflicts_addStatement c _ a)
  have hadded (hm : (statements c ts).conflicts = []) (hm' : (statements c' ts').conflicts = []) :=
    addStatement_of_alias (c := c) ha (Option.map_eq_none_iff.1 (h.value hm hm').left)
  rw [statements_concat]
  constructor
  · intro hQ
    rw [← h.clean hQ]
    refine ⟨hbefore, fun hm ↦ ?_⟩
    rw [hadded hm ((h.clean hQ).1 hm)]
    exact hm
  · intro hm hm'
    have hvalue := h.value (hbefore hm) hm'
    rw [hadded (hbefore hm) hm']
    exact hvalue.insert (.typeAlias ⟨name, typeParams, type, c.origin a.span⟩)

end Statements

/-- Two files that differ in the place of an alias are bound alike if the statements between the two
places are judged alike with and without it. -/
theorem tracks_statements_moved {Q : Prop} {c : Context} {front crossed back gs : List Statement}
    {a : Statement} {typeParams : List TypeParam} {type : TypeExpr} {name : String}
    (ha : a.form = .typeAlias name typeParams type)
    (honce : ∀ s ∈ front ++ (crossed ++ back), s.isType = true → s.name ≠ name)
    (hmoved : gs.map Statement.form = (front ++ (crossed ++ a :: back)).map Statement.form)
    (hjudged : Q → ∀ before s after t u, crossed = before ++ s :: after →
      s.Brings (front ++ a :: before) t u →
        Relation.isAssignable (aliasTable (front ++ a :: before)) t u =
          Relation.isAssignable (aliasTable (front ++ before)) t u) :
    (statements c (front ++ a :: (crossed ++ back))).Tracks Q
      (Declarations.AgreeWith name (some (heldAlias name typeParams type))
        (some (heldAlias name typeParams type))) (statements c gs) := by
  rw [List.map_append, List.map_append, List.map_cons] at hmoved
  obtain ⟨front', rest, rfl, hfront, hrest⟩ := List.map_eq_append_iff.1 hmoved
  obtain ⟨crossed', rest', rfl, hcrossed, hrest'⟩ := List.map_eq_append_iff.1 hrest
  obtain ⟨a', back', rfl, hform, hback⟩ := List.map_eq_cons_iff.1 hrest'
  simp only [List.forall_mem_append] at honce
  obtain ⟨hfrontName, hcrossedName, hbackName⟩ := honce
  have hstart : (statements c []).Tracks Q (Declarations.AgreeWith name none none)
      (statements c []) :=
    Merged.tracks_of_iff ⟨⟨.refl _ _ _, .refl _ _ _⟩, rfl, rfl⟩ Iff.rfl
  have hbefore := tracks_statements_append hstart hfront.symm hfrontName
    fun _ _ _ _ _ _ _ ↦ isJudgedAlike_self _ _ _ _ _
  have hleft := tracks_statements_alias hbefore ha
  have hmet := tracks_statements_append hleft hcrossed.symm hcrossedName
    fun before s after before' heq hbefore hQ ↦ isJudgedAlike_of_brings fun t u hbrings ↦ by
      rw [List.nil_append, List.append_assoc, List.singleton_append] at hbrings ⊢
      have hforms : (front ++ before).map Statement.form =
          (front' ++ before').map Statement.form := by
        rw [List.map_append, List.map_append, hfront, hbefore]
      rw [hjudged hQ before s after t u heq hbrings, List.nil_append, aliasTable_congr hforms]
  have hright := (tracks_statements_alias (hmet.swap fun _ _ h ↦ h.symm) (hform.trans ha)).swap
    fun _ _ h ↦ h.symm
  have hafter := tracks_statements_append hright hback.symm hbackName
    fun _ _ _ _ _ _ _ ↦ isJudgedAlike_self _ _ _ _ _
  simpa using hafter

end Binding

/-! ### With and without an alias -/

/-- The name and the body of an alias without type parameters. -/
def Statement.plainAlias? (s : Statement) : Option (String × TypeExpr) :=
  match s.body with
  | .typeAlias [] type => some (s.name, type)
  | _ => none

def plainAliases (ss : List Statement) : List (String × TypeExpr) :=
  ss.filterMap Statement.plainAlias?

section Insertion

variable {front before : List Statement} {a s : Statement} {name : String} {t u : TypeExpr}
  {typeParams : List TypeParam} {type : TypeExpr}

theorem Statement.membersOf_eq_nil {s : Statement} (h : s.isInterface = false) (name : String) :
    s.membersOf name = [] := by
  unfold isInterface at h
  unfold membersOf
  split
  · next hbody =>
    rw [hbody] at h
    cases h
  · rfl

theorem Statement.brings_insert_iff (ha : a.isInterface = false) :
    s.Brings (front ++ a :: before) t u ↔ s.Brings (front ++ before) t u := by
  have hmembers (n : String) : TypeSurface.membersOf n (front ++ a :: before) =
      TypeSurface.membersOf n (front ++ before) := by
    simp [TypeSurface.membersOf, a.membersOf_eq_nil ha]
  rw [Brings, Brings, hmembers]

/-- An alias adds to the table what stands under its name. -/
theorem get?_aliasTable_insert (ha : a.form = .typeAlias name typeParams type) {n : String}
    (hn : n ≠ name) : (aliasTable (front ++ a :: before)).get? n =
      (aliasTable (front ++ before)).get? n := by
  rw [get?_aliasTable, get?_aliasTable]
  simp [ha, StatementForm.alias?, List.find?_append, hn.symm]

theorem expandAlias?_aliasTable_eq_none {ss : List Statement}
    (h : ∀ s ∈ ss, ∀ typeParams type, s.form = .typeAlias name typeParams type →
      typeParams ≠ [] ∨ name = Index.typeName) :
    Relation.expandAlias? (aliasTable ss) (.named name) = none := by
  refine Option.eq_none_iff_forall_ne_some.2 fun b hb ↦ ?_
  obtain ⟨m, a, hm, hindex, ha, hparams, -, -⟩ := Relation.expandAlias?_eq_some_iff.1 hb
  obtain ⟨rfl, -⟩ := TypeExpr.reference.inj hm
  obtain ⟨s, hs, typeParams, type, hform, hentry⟩ := exists_of_get?_aliasTable ha
  cases hentry
  exact (h s hs _ _ hform).elim (· hparams) hindex

theorem mem_plainAliases_of_get?_aliasTable {ss : List Statement} {m : String} {b : TypeAlias}
    (hb : (aliasTable ss).get? m = some (.typeAlias b)) (hparams : b.typeParams = []) :
    (m, b.type) ∈ plainAliases ss := by
  obtain ⟨s, hs, typeParams, type, hform, hentry⟩ := exists_of_get?_aliasTable hb
  cases hentry
  obtain ⟨rfl, hbody⟩ := Statement.form_eq_typeAlias_iff.1 hform
  rw [hparams] at hbody
  exact List.mem_filterMap.2 ⟨s, hs, by rw [Statement.plainAlias?, hbody]⟩

/-- An alias is of no account to types that do not lead to it, and it is of none to any if it is
never taken for its body. -/
theorem isAssignable_insert (ha : a.form = .typeAlias name typeParams type)
    (honce : ∀ s ∈ front ++ before, s.isType = true → s.name ≠ name)
    (hclear : typeParams = [] → name ≠ Index.typeName →
      t = u ∨ ¬Relation.LeadsTo (plainAliases (front ++ a :: before)) t name ∧
        ¬Relation.LeadsTo (plainAliases (front ++ a :: before)) u name) :
    Relation.isAssignable (aliasTable (front ++ a :: before)) t u =
      Relation.isAssignable (aliasTable (front ++ before)) t u := by
  have hother {x : TypeExpr} (hx : x ≠ .named name) :
      Relation.expandAlias? (aliasTable (front ++ a :: before)) x =
        Relation.expandAlias? (aliasTable (front ++ before)) x := by
    refine Merge.expandAlias?_congr fun n hn ↦ ?_
    rw [get?_aliasTable_insert ha (n := n) ?_]
    rintro rfl
    exact hx hn
  by_cases hexpanded : typeParams = [] ∧ name ≠ Index.typeName
  · rcases hclear hexpanded.1 hexpanded.2 with rfl | ⟨ht, hu⟩
    · rw [Relation.isAssignable_self, Relation.isAssignable_self]
    · refine Relation.assignableWithin_congr (Relation.isClosed_not_leadsTo fun m b hb hparams ↦
        mem_plainAliases_of_get?_aliasTable hb hparams) (fun x hx ↦ hother ?_) ht hu _
      rintro rfl
      exact hx (.name _ _)
  · have hnot {s : Statement} {typeParams : List TypeParam} {type : TypeExpr}
        (hs : s ∈ front ++ before) : s.form ≠ .typeAlias name typeParams type := by
      intro hform
      obtain ⟨hname, hbody⟩ := Statement.form_eq_typeAlias_iff.1 hform
      exact honce s hs (by rw [Statement.isType, hbody]) hname
    refine Relation.isAssignable_congr (fun x ↦ ?_) t u
    by_cases hx : x = .named name
    · rw [hx, expandAlias?_aliasTable_eq_none, expandAlias?_aliasTable_eq_none]
      · exact fun s hs _ _ hform ↦ absurd hform (hnot hs)
      · intro s hs params body hform
        rw [List.mem_append, List.mem_cons, or_left_comm, ← List.mem_append] at hs
        rcases hs with rfl | hs
        · cases ha.symm.trans hform
          rwa [not_and_or, not_not] at hexpanded
        · exact absurd hform (hnot hs)
    · exact hother hx

end Insertion

/-- Whether a statement declares an alias. -/
def Statement.isAlias (s : Statement) : Bool :=
  match s.body with
  | .typeAlias _ _ => true
  | _ => false

theorem Statement.exists_of_isAlias {s : Statement} (h : s.isAlias = true) :
    ∃ typeParams type, s.body = .typeAlias typeParams type := by
  unfold isAlias at h
  split at h
  · next hbody => exact ⟨_, _, hbody⟩
  · cases h

/-- Whether a file is another one with an alias moved behind some of the statements.  No other
statement declares a type under the name of the alias. -/
structure SourceFile.IsMoved (front : List Statement) (a : Statement)
    (crossed back : List Statement) (f g : SourceFile) : Prop where
  isAlias : a.isAlias = true
  once : ∀ s ∈ front ++ (crossed ++ back), s.isType = true → s.name ≠ a.name
  statements : f.statements = front ++ a :: (crossed ++ back)
  moved : g.statements.map Statement.form = (front ++ (crossed ++ a :: back)).map Statement.form
  file : f.file = g.file
  directives : f.directives = g.directives
  hasErrors : f.hasErrors = g.hasErrors

/-- Whether two sets are the same but for origins and for the place of a name among the types. -/
structure DeclarationSet.AgreesBut (name : String) (S T : DeclarationSet) : Prop where
  head : { S with declarations := .empty } = { T with declarations := .empty }
  types : ∀ n, (S.declarations.types.get? n).map TypeEntry.unplaced =
    (T.declarations.types.get? n).map TypeEntry.unplaced
  order : S.declarations.types.keys.filter (· ≠ name) = T.declarations.types.keys.filter (· ≠ name)
  values : S.declarations.values.mapValues ValueEntry.unplaced =
    T.declarations.values.mapValues ValueEntry.unplaced

/-- Whether one of the crossed statements brings the type `t` to a value that has the type `u`
behind `front` and the statements `before`. -/
def Encounters (front crossed before : List Statement) (t u : TypeExpr) : Prop :=
  ∃ s after, crossed = before ++ s :: after ∧ s.Brings (front ++ before) t u

namespace Binding

/-- In statements that go together, wherever they stand, so do the types that they bring to values
with the types that these have. -/
theorem isAssignable_of_forms {c : Context} {gs ts after : List Statement} {s : Statement}
    {t u : TypeExpr} (hclean : (statements c gs).conflicts = [])
    (hforms : gs.map Statement.form = (ts ++ s :: after).map Statement.form)
    (h : s.Brings ts t u) : Relation.isAssignable (aliasTable ts) t u = true := by
  rw [List.map_append] at hforms
  obtain ⟨ts', rest, rfl, hts, hrest⟩ := List.map_eq_append_iff.1 hforms
  obtain ⟨s', after', rfl, hform, -⟩ := List.map_eq_cons_iff.1 hrest
  rw [← aliasTable_congr hts]
  refine isAssignable_of_clean (c := c) ?_ (h.of_forms hform.symm hts.symm)
  rw [List.append_cons, statements, List.foldl_append] at hclean
  exact conflicts_of_foldl (conflicts_addStatement c) hclean

end Binding

namespace DeclarationSet

theorem exists_ofSourceFile_eq_ok_iff {f : SourceFile} : (∃ S, ofSourceFile f = .ok S) ↔
    ∃ head, Binding.header f = .ok head ∧ f.hasErrors = false ∧
      (Binding.references f).filterMap Binding.problemOf? = [] ∧
      (Binding.statements ⟨head.id, f.file⟩ f.statements).conflicts = [] := by
  simp only [ofSourceFile_eq_ok_iff]
  constructor
  · rintro ⟨S, head, hhead, herrors, hreferences, hclean, -⟩
    exact ⟨head, hhead, herrors, hreferences, hclean⟩
  · rintro ⟨head, hhead, herrors, hreferences, hclean⟩
    exact ⟨_, head, hhead, herrors, hreferences, hclean, rfl⟩

theorem header_congr {f g : SourceFile} (hfile : f.file = g.file)
    (hdirectives : f.directives = g.directives) : Binding.header f = Binding.header g := by
  simp only [Binding.header, Binding.headerMode, Binding.directiveProblem, SourceFile.directive?,
    hfile, hdirectives]

theorem references_congr {f g : SourceFile} (hfile : f.file = g.file)
    (hdirectives : f.directives = g.directives) : Binding.references f = Binding.references g := by
  simp only [Binding.references, Binding.directiveProblem, hfile, hdirectives]

end DeclarationSet

namespace SourceFile.IsMoved

variable {front crossed back before : List Statement} {a : Statement} {f g : SourceFile}
  {t u : TypeExpr} {typeParams : List TypeParam} {type : TypeExpr}

theorem isInterface_eq_false (h : IsMoved front a crossed back f g) : a.isInterface = false := by
  obtain ⟨typeParams, type, hbody⟩ := a.exists_of_isAlias h.isAlias
  rw [Statement.isInterface, hbody]

theorem binds_iff (h : IsMoved front a crossed back f g) :
    (∃ S, DeclarationSet.ofSourceFile f = .ok S) ↔
      ∃ head, Binding.header g = .ok head ∧ g.hasErrors = false ∧
        (Binding.references g).filterMap Binding.problemOf? = [] ∧
        (Binding.statements ⟨head.id, g.file⟩ f.statements).conflicts = [] := by
  rw [DeclarationSet.exists_ofSourceFile_eq_ok_iff, h.hasErrors, h.file,
    DeclarationSet.header_congr h.file h.directives,
    DeclarationSet.references_congr h.file h.directives]

/-- The two files are bound alike if what meets on the way is related with the alias just if it is
without. -/
theorem tracks (h : IsMoved front a crossed back f g)
    (hbody : a.body = .typeAlias typeParams type) (c : Binding.Context) :
    (Binding.statements c f.statements).Tracks
      (∀ before t u, Encounters front crossed before t u →
        Relation.isAssignable (aliasTable (front ++ a :: before)) t u =
          Relation.isAssignable (aliasTable (front ++ before)) t u)
      (Declarations.AgreeWith a.name (some (Binding.heldAlias a.name typeParams type))
        (some (Binding.heldAlias a.name typeParams type)))
      (Binding.statements c g.statements) := by
  rw [h.statements]
  refine Binding.tracks_statements_moved (Statement.form_eq_typeAlias_iff.2 ⟨rfl, hbody⟩) h.once
    h.moved fun hQ before s after t u heq hbrings ↦ hQ before t u ⟨s, after, heq, ?_⟩
  exact (Statement.brings_insert_iff h.isInterface_eq_false).1 hbrings

theorem isAssignable_of_first (h : IsMoved front a crossed back f g) {c : Binding.Context}
    (hclean : (Binding.statements c f.statements).conflicts = [])
    (hmet : Encounters front crossed before t u) :
    Relation.isAssignable (aliasTable (front ++ a :: before)) t u = true := by
  obtain ⟨s, after, heq, hbrings⟩ := hmet
  have hforms : f.statements.map Statement.form =
      (front ++ a :: before ++ s :: (after ++ back)).map Statement.form := by
    simp [h.statements, heq]
  exact Binding.isAssignable_of_forms hclean hforms
    ((Statement.brings_insert_iff h.isInterface_eq_false).2 hbrings)

theorem isAssignable_of_last (h : IsMoved front a crossed back f g) {c : Binding.Context}
    (hclean : (Binding.statements c g.statements).conflicts = [])
    (hmet : Encounters front crossed before t u) :
    Relation.isAssignable (aliasTable (front ++ before)) t u = true := by
  obtain ⟨s, after, heq, hbrings⟩ := hmet
  have hforms : g.statements.map Statement.form =
      (front ++ before ++ s :: (after ++ a :: back)).map Statement.form := by
    simp [h.moved, heq]
  exact Binding.isAssignable_of_forms hclean hforms hbrings

theorem isAssignable_eq (h : IsMoved front a crossed back f g)
    (hbody : a.body = .typeAlias typeParams type) (hmet : Encounters front crossed before t u)
    (hclear : typeParams = [] → a.name ≠ Index.typeName →
      t = u ∨ ¬Relation.LeadsTo (plainAliases (front ++ a :: before)) t a.name ∧
        ¬Relation.LeadsTo (plainAliases (front ++ a :: before)) u a.name) :
    Relation.isAssignable (aliasTable (front ++ a :: before)) t u =
      Relation.isAssignable (aliasTable (front ++ before)) t u := by
  obtain ⟨s, after, rfl, -⟩ := hmet
  refine isAssignable_insert (Statement.form_eq_typeAlias_iff.2 ⟨rfl, hbody⟩)
    (fun x hx ↦ h.once x ?_) hclear
  rw [List.append_assoc, ← List.append_assoc]
  exact List.mem_append_left _ hx

end SourceFile.IsMoved

namespace DeclarationSet

/-- Where an alias stands makes no difference to what a file declares if it binds, but for where the
name stands among the types.  If the file binds with the alias in one of two places, it binds with
the alias in the other just if the types that the statements between bring to values are related to
those that the values have, under the aliases known there.  So the place makes no difference at all
if, of two different types that meet there, neither leads to the alias. -/
theorem place_of_alias {front crossed back : List Statement} {a : Statement} {f g : SourceFile}
    (h : SourceFile.IsMoved front a crossed back f g) :
    (∀ S T, ofSourceFile f = .ok S → ofSourceFile g = .ok T → S.AgreesBut a.name T) ∧
    ((∃ S, ofSourceFile f = .ok S) → ((∃ T, ofSourceFile g = .ok T) ↔
      ∀ before t u, Encounters front crossed before t u →
        Relation.isAssignable (aliasTable (front ++ before)) t u = true)) ∧
    ((∃ T, ofSourceFile g = .ok T) → ((∃ S, ofSourceFile f = .ok S) ↔
      ∀ before t u, Encounters front crossed before t u →
        Relation.isAssignable (aliasTable (front ++ a :: before)) t u = true)) ∧
    ((∀ type, a.body = .typeAlias [] type → a.name ≠ Index.typeName →
        ∀ before t u, Encounters front crossed before t u →
          t = u ∨ ¬Relation.LeadsTo (plainAliases (front ++ a :: before)) t a.name ∧
            ¬Relation.LeadsTo (plainAliases (front ++ a :: before)) u a.name) →
      ((∃ S, ofSourceFile f = .ok S) ↔ ∃ T, ofSourceFile g = .ok T)) := by
  obtain ⟨typeParams, type, hbody⟩ := a.exists_of_isAlias h.isAlias
  have htracks := h.tracks hbody
  have hbinds := h.binds_iff
  have hbinds' := exists_ofSourceFile_eq_ok_iff (f := g)
  refine ⟨fun S T hS hT ↦ ?_, fun hf ↦ ?_, fun hg ↦ ?_, fun hclear ↦ ?_⟩
  · obtain ⟨head, hhead, -, -, hclean, rfl⟩ := ofSourceFile_eq_ok_iff.1 hS
    obtain ⟨head', hhead', -, -, hclean', rfl⟩ := ofSourceFile_eq_ok_iff.1 hT
    rw [header_congr h.file h.directives] at hhead
    obtain rfl : head = head' := Except.ok.inj (hhead.symm.trans hhead')
    rw [h.file] at hclean
    have hagree := (htracks ⟨head.id, g.file⟩).value hclean hclean'
    rw [h.file, references_congr h.file h.directives]
    exact ⟨rfl, hagree.map_get?_types, hagree.off.types.keys,
      OrderedMap.agree_iff.1 hagree.off.values⟩
  · obtain ⟨head, hhead, hnoErrors, hnamed, hclean⟩ := hbinds.1 hf
    constructor
    · intro hg before t u hmet
      obtain ⟨_, -, -, -, hclean'⟩ := hbinds'.1 hg
      exact h.isAssignable_of_last hclean' hmet
    · intro hrelated
      refine hbinds'.2 ⟨head, hhead, hnoErrors, hnamed, ((htracks _).clean ?_).1 hclean⟩
      intro before t u hmet
      rw [h.isAssignable_of_first hclean hmet, hrelated before t u hmet]
  · obtain ⟨head, hhead, hnoErrors, hnamed, hclean⟩ := hbinds'.1 hg
    constructor
    · intro hf before t u hmet
      obtain ⟨_, -, -, -, hclean'⟩ := hbinds.1 hf
      exact h.isAssignable_of_first hclean' hmet
    · intro hrelated
      refine hbinds.2 ⟨head, hhead, hnoErrors, hnamed, ((htracks _).clean ?_).2 hclean⟩
      intro before t u hmet
      rw [h.isAssignable_of_last hclean hmet, hrelated before t u hmet]
  · rw [hbinds, hbinds']
    refine exists_congr fun head ↦ and_congr_right fun _ ↦ and_congr_right fun _ ↦
      and_congr_right fun _ ↦ (htracks _).clean fun before t u hmet ↦ ?_
    exact h.isAssignable_eq hbody hmet fun hparams hindex ↦
      hclear type (hparams ▸ hbody) hindex before t u hmet

/-! ### Two bodies and an alias -/

/-- One body of an interface that gives properties. -/
def bodyOf (properties : List (String × TypeExpr)) : Statement :=
  ⟨"A", default, default, .interface [] [] (properties.map fun (name, type) ↦
    ⟨.property (.identifier name) false false type, default⟩)⟩

/-- Two bodies that give the same property, with different types. -/
def twoBodies (type : TypeExpr) : List Statement :=
  [bodyOf [("x", .named "int")], bodyOf [("x", type), ("y", .named "Count")]]

def countAlias : Statement := ⟨"Count", default, default, .typeAlias [] (.named "int")⟩

def fileOf (statements : List Statement) : SourceFile :=
  ⟨"a.d.ts", [.ofId "a" default], statements, []⟩

def aliasFirst (type : TypeExpr) : SourceFile := fileOf (countAlias :: twoBodies type)

def aliasLast (type : TypeExpr) : SourceFile := fileOf (twoBodies type ++ [countAlias])

theorem isMoved_aliasFirst (type : TypeExpr) :
    SourceFile.IsMoved [] countAlias (twoBodies type) [] (aliasFirst type) (aliasLast type) where
  isAlias := rfl
  once := by simp [twoBodies, bodyOf, countAlias]
  statements := by simp [aliasFirst, fileOf]
  moved := rfl
  file := rfl
  directives := rfl
  hasErrors := rfl

/-- Only the property that both bodies give is brought to a value. -/
theorem encounters_twoBodies {type t u : TypeExpr} {before : List Statement}
    (h : Encounters [] (twoBodies type) before t u) :
    before = [bodyOf [("x", .named "int")]] ∧ t = type ∧ u = .named "int" := by
  obtain ⟨s, after, heq, k, ht, hu⟩ := h
  rcases before with _ | ⟨b, before⟩
  · cases hu
  obtain ⟨rfl, hrest⟩ := List.cons.inj heq
  rcases before with _ | ⟨b', before⟩
  · obtain ⟨rfl, -⟩ := List.cons.inj hrest
    change lastValue? (under k [.property (.identifier "x") false false (.named "int")]) =
      some u at hu
    obtain ⟨f, hf, rfl⟩ := exists_mem_of_lastValue? hu
    obtain rfl := List.mem_singleton.1 hf
    cases hu
    cases ht
    exact ⟨rfl, rfl, rfl⟩
  · cases before <;> cases hrest

/-- A number goes together with an `int` in front of the alias as it does behind it. -/
theorem place_of_alias_number : ∃ S T, ofSourceFile (aliasFirst (.keyword .number)) = .ok S ∧
    ofSourceFile (aliasLast (.keyword .number)) = .ok T ∧ S.AgreesBut "Count" T := by
  obtain ⟨hagrees, hlater, -, -⟩ := place_of_alias (isMoved_aliasFirst (.keyword .number))
  obtain ⟨S, hS⟩ : ∃ S, ofSourceFile (aliasFirst (.keyword .number)) = .ok S :=
    exists_eq_ok_of_toOption (by decide +kernel)
  obtain ⟨T, hT⟩ := (hlater ⟨S, hS⟩).2 fun before t u hmet ↦ by
    obtain ⟨rfl, rfl, rfl⟩ := encounters_twoBodies hmet
    decide +kernel
  exact ⟨S, T, hS, hT, hagrees S T hS hT⟩

/-- A property of the type that the alias stands for goes together with one of the alias behind the
alias, and does not in front of it. -/
theorem not_place_of_alias : ∃ front a crossed back f g,
    SourceFile.IsMoved front a crossed back f g ∧ (∃ S, ofSourceFile f = .ok S) ∧
      ¬∃ T, ofSourceFile g = .ok T := by
  refine ⟨_, _, _, _, _, _, isMoved_aliasFirst (.named "Count"),
    exists_eq_ok_of_toOption (by decide +kernel), ?_⟩
  rintro ⟨T, hT⟩
  have hclash : (ofSourceFile (aliasLast (.named "Count"))).toOption.isSome = false := by
    decide +kernel
  rw [hT] at hclash
  cases hclash

end DeclarationSet
end TypeSurface
