import TypeSurface.Binding.File
import TypeSurface.Proofs.Declaration.Unplaced
import TypeSurface.Proofs.Merge.Members
import TypeSurface.Proofs.Syntax.Parser.FoundStatements

/-!
# Bound declarations

What holds of all declarations that are gathered from statements: a member agrees in all but its
body with each of the members of a block that it is printed as, no overload stands twice, and each
statement that the declarations are printed as is one that a reader may find.
-/

namespace TypeSurface

/-- The member that one member of a block declares by itself, without its place. -/
def MemberForm.alone (f : MemberForm) : Member := (Binding.member ⟨"", ""⟩ ⟨f, default⟩).unplaced

/-- Whether a member can have been gathered under a key. -/
structure Member.IsBound (isQuiet : Bool) (key : MemberKey) (m : Member) : Prop where
  key : m.key = key
  printed : m.forms ≠ []
  agrees : ∀ f ∈ m.forms, m.unplaced = { f.alone with body := m.body }
  distinct : ∀ k overloads, m.body = Overloading.body k overloads → overloads.Nodup
  found : ∀ f ∈ m.forms, f.IsFound isQuiet

/-- Whether an interface can have been gathered under a name. -/
structure Interface.IsBound (isQuiet : Bool) (name : String) (i : Interface) : Prop where
  name : i.name = name
  head : (StatementForm.interface i.name i.typeParams i.heritage []).IsFound isQuiet
  members : ∀ k m, i.members.get? k = some m → m.IsBound isQuiet k

def TypeEntry.IsBound (isQuiet : Bool) (name : String) : TypeEntry → Prop
  | interface i => i.IsBound isQuiet name
  | typeAlias a =>
    a.name = name ∧ (StatementForm.typeAlias a.name a.typeParams a.type).IsFound isQuiet

/-- Whether a value can have been gathered under a name. -/
structure ValueEntry.IsBound (isQuiet : Bool) (name : String) (entry : ValueEntry) : Prop where
  name : entry.name = name
  printed : entry.forms ≠ []
  distinct : ∀ f, entry = .function f → f.overloads.Nodup
  found : ∀ f ∈ entry.forms, f.IsFound isQuiet

structure Declarations.IsBound (isQuiet : Bool) (d : Declarations) : Prop where
  types : ∀ name entry, d.types.get? name = some entry → entry.IsBound isQuiet name
  values : ∀ name entry, d.values.get? name = some entry → entry.IsBound isQuiet name

namespace Binding

variable {isQuiet : Bool}

theorem unplaced_member (c : Context) (m : PlacedMember) : (member c m).unplaced = m.form.alone := by
  obtain ⟨form, span⟩ := m
  cases form <;> rfl

theorem forms_member (c : Context) (m : PlacedMember) : (member c m).forms = [m.form] := by
  obtain ⟨form, span⟩ := m
  cases form <;> rfl

theorem isBound_member (c : Context) {m : PlacedMember} (h : m.form.IsFound isQuiet) :
    (member c m).IsBound isQuiet (member c m).key where
  key := rfl
  printed := by
    rw [forms_member]
    exact List.cons_ne_nil _ _
  agrees f hf := by
    rw [forms_member, List.mem_singleton] at hf
    subst hf
    rw [← unplaced_member c m]
    rfl
  distinct k overloads hbody := by
    obtain ⟨form, span⟩ := m
    cases form <;> cases k <;> cases hbody <;> exact List.nodup_singleton _
  found f hf := by
    rw [forms_member, List.mem_singleton] at hf
    exact hf ▸ h

end Binding

/-! ### Gathering -/

section Gathering

variable {isQuiet : Bool} {types : OrderedMap String TypeEntry}

/-- An overload that another member of the kind has may be found under the name of this one. -/
theorem Member.isFound_overload {m n : Member} {k : Overloading} {s t : Signature}
    (hm : (m.overload k s).IsFound isQuiet) (hn : (n.overload k t).IsFound isQuiet) :
    (m.overload k t).IsFound isQuiet := by
  cases k with
  | method =>
    have hname := Bool.and_eq_true_iff.1 hm.written
    have hsignature := Bool.and_eq_true_iff.1 hn.written
    have hsame : (m.overload .method t).isBareNew = (m.overload .method s).isBareNew := by
      simp only [overload, MemberForm.isBareNew]
      cases m.writtenName <;> rfl
    exact ⟨Bool.and_eq_true_iff.2 ⟨hname.1, hsignature.2⟩, hn.types, hsame ▸ hm.notBareNew⟩
  | call => exact hn
  | construct => exact hn

theorem Member.IsBound.gather {key : MemberKey} {base extension m : Member}
    (hbase : base.IsBound isQuiet key) (hextension : extension.IsBound isQuiet key)
    (h : Merge.member? types .gather base extension = some m) : m.IsBound isQuiet key := by
  rcases (Merge.makesMember_of_member? h).eq_extension_or_gathered with
    rfl | ⟨k, b, e, hb, he, rfl⟩
  · exact hextension
  · have hbaseForms : base.forms = b.map (base.overload k) := Member.forms_of_body hb
    have hextensionForms : extension.forms = e.map (extension.overload k) := Member.forms_of_body he
    obtain ⟨s₀, hs₀⟩ : ∃ s₀, s₀ ∈ b := by
      refine List.exists_mem_of_ne_nil b fun hnil ↦ hbase.printed ?_
      rw [hbaseForms, hnil, List.map_nil]
    have hforms : ({ base with body := k.body (Merge.appendNew b e) } : Member).forms =
        (Merge.appendNew b e).map (base.overload k) := by
      rw [Member.forms_of_body (k := k) rfl]
      cases k <;> rfl
    have hfirst : base.overload k s₀ ∈ base.forms := hbaseForms ▸ List.mem_map_of_mem hs₀
    refine ⟨hbase.key, ?_, fun f hf ↦ ?_, fun k' overloads hbody ↦ ?_, fun f hf ↦ ?_⟩
    · rw [hforms]
      exact List.ne_nil_of_mem (List.mem_map_of_mem (Merge.mem_appendNew.2 (Or.inl hs₀)))
    · -- The member agrees with one of the overloads of the base, and so with all others.
      rw [hforms] at hf
      obtain ⟨s, hs, rfl⟩ := List.mem_map.1 hf
      have hagrees := hbase.agrees _ hfirst
      calc ({ base with body := k.body (Merge.appendNew b e) } : Member).unplaced
          = { base.unplaced with body := k.body (Merge.appendNew b e) } := rfl
        _ = { (base.overload k s₀).alone with body := k.body (Merge.appendNew b e) } := by
            rw [hagrees]
        _ = { (base.overload k s).alone with body := k.body (Merge.appendNew b e) } := by
            cases k <;> rfl
    · have hsame : overloads = Merge.appendNew b e := by
        cases k <;> cases k' <;> cases hbody <;> rfl
      exact hsame ▸ Merge.nodup_appendNew e (hbase.distinct k b hb)
    · rw [hforms] at hf
      obtain ⟨s, hs, rfl⟩ := List.mem_map.1 hf
      rcases Merge.mem_appendNew.1 hs with hs | hs
      · exact hbase.found _ (hbaseForms ▸ List.mem_map_of_mem hs)
      · have hfound : (extension.overload k s).IsFound isQuiet :=
          hextension.found _ (hextensionForms ▸ List.mem_map_of_mem hs)
        exact Member.isFound_overload (hbase.found _ hfirst) hfound

theorem Member.IsBound.meet {key : MemberKey} {base extension : Member} (owner : String)
    (hbase : base.IsBound isQuiet key) (hextension : extension.IsBound isQuiet key) :
    (Merge.members types .gather owner key base extension).value.IsBound isQuiet key := by
  unfold Merge.members
  split
  · next m hm => exact hbase.gather hextension hm
  · exact hbase

theorem Interface.IsBound.gather {name : String} {base extension : Interface}
    (hbase : base.IsBound isQuiet name)
    (hheritage : ∀ t ∈ extension.heritage, t.IsFound isQuiet ∧ t.isReference = true)
    (hmembers : ∀ k m, extension.members.get? k = some m → m.IsBound isQuiet k) :
    (Merge.interfaces types .gather base extension).value.IsBound isQuiet name where
  name := hbase.name
  head := by
    obtain ⟨hwritten, htypes, -⟩ := hbase.head
    simp only [StatementForm.isWritten, StatementForm.types, Bool.and_eq_true, List.all_eq_true,
      List.mem_append] at hwritten htypes
    obtain ⟨⟨⟨hname, hparams⟩, hreferences⟩, -⟩ := hwritten
    refine ⟨?_, fun t ht ↦ ?_, fun _ ↦ List.forall_mem_nil _⟩
    · simp only [StatementForm.isWritten, Bool.and_eq_true, List.all_eq_true]
      refine ⟨⟨⟨hname, hparams⟩, fun t ht ↦ ?_⟩, List.forall_mem_nil _⟩
      rcases Merge.mem_appendNew.1 ht with ht | ht
      · exact hreferences t ht
      · exact (hheritage t ht).2
    · simp only [StatementForm.types, List.mem_append] at ht
      rcases ht with (ht | ht) | ht
      · exact htypes t (Or.inl (Or.inl ht))
      · rcases Merge.mem_appendNew.1 ht with ht | ht
        · exact htypes t (Or.inl (Or.inr ht))
        · exact (hheritage t ht).1
      · exact htypes t (Or.inr ht)
  members := Merge.mapsWith_forall hbase.members hmembers fun _ _ _ hb he ↦ hb.meet _ he

theorem Interface.IsBound.heritage_isFound {name : String} {i : Interface}
    (h : i.IsBound isQuiet name) : ∀ t ∈ i.heritage, t.IsFound isQuiet ∧ t.isReference = true := by
  obtain ⟨hwritten, htypes, -⟩ := h.head
  simp only [StatementForm.isWritten, StatementForm.types, Bool.and_eq_true, List.all_eq_true,
    List.mem_append] at hwritten htypes
  exact fun t ht ↦ ⟨htypes t (Or.inl (Or.inr ht)), hwritten.1.2 t ht⟩

theorem TypeEntry.IsBound.gather {name : String} {base extension : TypeEntry}
    (hbase : base.IsBound isQuiet name) (hextension : extension.IsBound isQuiet name) :
    (Merge.typeEntries types .gather name base extension).value.IsBound isQuiet name := by
  cases base with
  | interface b =>
    cases extension with
    | interface e =>
      exact Interface.IsBound.gather hbase (Interface.IsBound.heritage_isFound hextension)
        hextension.members
    | typeAlias e => exact hbase
  | typeAlias b => cases extension <;> exact hbase

theorem ValueEntry.IsBound.gather {name : String} {base extension : ValueEntry}
    (hbase : base.IsBound isQuiet name) (hextension : extension.IsBound isQuiet name) :
    (Merge.valueEntries types .gather name base extension).value.IsBound isQuiet name := by
  match base, extension with
  | .variable b, .variable e => exact hbase
  | .variable b, .function e => exact hbase
  | .function b, .variable e => exact hbase
  | .function b, .function e =>
    have hname : b.name = e.name := hbase.name.trans hextension.name.symm
    obtain ⟨s, hs⟩ : ∃ s, s ∈ b.overloads := by
      refine List.exists_mem_of_ne_nil _ fun hnil ↦ hbase.printed ?_
      rw [ValueEntry.forms, hnil, List.map_nil]
    refine ⟨hbase.name, ?_, ?_, fun f hf ↦ ?_⟩
    · exact List.ne_nil_of_mem (List.mem_map_of_mem (Merge.mem_appendNew.2 (Or.inl hs)))
    · rintro f ⟨⟩
      exact Merge.nodup_appendNew _ (hbase.distinct b rfl)
    · obtain ⟨t, ht, rfl⟩ := List.mem_map.1 hf
      rcases Merge.mem_appendNew.1 ht with ht | ht
      · exact hbase.found _ (List.mem_map_of_mem ht)
      · have hfound : (StatementForm.function e.name t).IsFound isQuiet :=
          hextension.found _ (List.mem_map_of_mem ht)
        exact hname ▸ hfound

theorem Declarations.IsBound.gather {base extension : Declarations} (hbase : base.IsBound isQuiet)
    (hextension : extension.IsBound isQuiet) :
    (Merge.declarations .gather base extension).value.IsBound isQuiet where
  types := Merge.mapsWith_forall hbase.types hextension.types fun _ _ _ hb he ↦ hb.gather he
  values := Merge.mapsWith_forall hbase.values hextension.values fun _ _ _ hb he ↦ hb.gather he

end Gathering

/-! ### Statements -/

namespace Binding

variable {isQuiet : Bool}

theorem get?_singleton_forall {κ ν : Type} [DecidableEq κ] {P : κ → ν → Prop} {k : κ} {v : ν}
    (h : P k v) : ∀ j w, (OrderedMap.singleton k v).get? j = some w → P j w := by
  intro j w hw
  rw [OrderedMap.get?_singleton] at hw
  split at hw
  · next hk =>
    obtain rfl := Option.some.inj hw
    exact hk ▸ h
  · cases hw

theorem get?_empty_forall {κ ν : Type} [DecidableEq κ] {P : κ → ν → Prop} :
    ∀ j w, (OrderedMap.empty : OrderedMap κ ν).get? j = some w → P j w := by
  intro j w hw
  cases hw

theorem isBound_addMember (c : Context) {merged : Merged Interface} {name : String}
    {m : PlacedMember} (hmerged : merged.value.IsBound isQuiet name) (hm : m.form.IsFound isQuiet) :
    (addMember c merged m).value.IsBound isQuiet name :=
  hmerged.gather nofun (get?_singleton_forall (isBound_member c hm))

theorem isBound_foldl_addMember (c : Context) {ms : List PlacedMember} {merged : Merged Interface}
    {name : String} (hmerged : merged.value.IsBound isQuiet name)
    (hms : ∀ m ∈ ms, m.form.IsFound isQuiet) :
    (ms.foldl (addMember c) merged).value.IsBound isQuiet name := by
  induction ms generalizing merged with
  | nil => exact hmerged
  | cons m ms ih =>
    rw [List.forall_mem_cons] at hms
    exact ih (isBound_addMember c hmerged hms.1) hms.2

theorem isFound_head {name : String} {typeParams : List TypeParam} {heritage : List TypeExpr}
    {members : List MemberForm}
    (h : (StatementForm.interface name typeParams heritage members).IsFound isQuiet) :
    (StatementForm.interface name typeParams heritage []).IsFound isQuiet ∧
      ∀ m ∈ members, m.IsFound isQuiet := by
  obtain ⟨hwritten, htypes, hnew⟩ := h
  simp only [StatementForm.isWritten, StatementForm.types, StatementForm.members,
    Bool.and_eq_true, List.all_eq_true, List.mem_append, List.mem_flatMap] at hwritten htypes hnew
  refine ⟨⟨?_, fun t ht ↦ ?_, fun _ ↦ List.forall_mem_nil _⟩,
    fun m hm ↦ ⟨hwritten.2 m hm, fun t ht ↦ ?_, fun hq ↦ ?_⟩⟩
  · simp only [StatementForm.isWritten, Bool.and_eq_true, List.all_eq_true]
    exact ⟨hwritten.1, List.forall_mem_nil _⟩
  · simp only [StatementForm.types, List.mem_append, List.mem_flatMap] at ht
    rcases ht with ht | ⟨m, hm, -⟩
    · exact htypes t (Or.inl ht)
    · cases hm
  · exact htypes t (Or.inr ⟨m, hm, ht⟩)
  · exact hnew hq m hm

theorem isBound_ofType {name : String} {entry : TypeEntry} (hname : entry.name = name)
    (h : entry.IsBound isQuiet name) : (ofType entry).IsBound isQuiet :=
  ⟨get?_singleton_forall (hname.symm ▸ h), get?_empty_forall⟩

theorem isBound_ofValue {name : String} {entry : ValueEntry} (h : entry.IsBound isQuiet name) :
    (ofValue entry).IsBound isQuiet :=
  ⟨get?_empty_forall, get?_singleton_forall (h.name.symm ▸ h)⟩

theorem isBound_single (c : Context) {s : Statement} (h : s.form.IsFound isQuiet) :
    (single c s).value.IsBound isQuiet := by
  obtain ⟨name, nameSpan, span, body⟩ := s
  match body with
  | .interface typeParams heritage members =>
    obtain ⟨hhead, hmembers⟩ := isFound_head h
    have hempty : Interface.IsBound isQuiet name
        ⟨name, typeParams, heritage, .empty, c.origin span⟩ := ⟨rfl, hhead, get?_empty_forall⟩
    have hbound : (members.foldl (addMember c)
        (.clean ⟨name, typeParams, heritage, .empty, c.origin span⟩)).value.IsBound isQuiet name :=
      isBound_foldl_addMember c hempty fun m hm ↦ hmembers m.form (List.mem_map_of_mem hm)
    exact isBound_ofType hbound.name hbound
  | .typeAlias typeParams type => exact isBound_ofType rfl ⟨rfl, h⟩
  | .variable kind type =>
    refine isBound_ofValue ⟨rfl, List.cons_ne_nil _ _, nofun, fun f hf ↦ ?_⟩
    exact List.mem_singleton.1 hf ▸ h
  | .function signature =>
    refine isBound_ofValue ⟨rfl, List.cons_ne_nil _ _, ?_, fun f hf ↦ ?_⟩
    · rintro f ⟨⟩
      exact List.nodup_singleton _
    · exact List.mem_singleton.1 hf ▸ h

theorem isBound_foldl_addStatement (c : Context) {ss : List Statement}
    {merged : Merged Declarations} (hmerged : merged.value.IsBound isQuiet)
    (hss : ∀ s ∈ ss, s.form.IsFound isQuiet) :
    (ss.foldl (addStatement c) merged).value.IsBound isQuiet := by
  induction ss generalizing merged with
  | nil => exact hmerged
  | cons s ss ih =>
    rw [List.forall_mem_cons] at hss
    exact ih (hmerged.gather (isBound_single c hss.1)) hss.2

theorem isBound_statements (c : Context) {ss : List Statement}
    (hss : ∀ s ∈ ss, s.form.IsFound isQuiet) : (statements c ss).value.IsBound isQuiet :=
  isBound_foldl_addStatement c ⟨get?_empty_forall, get?_empty_forall⟩ hss

end Binding

namespace DeclarationSet

/-- A file binds if it has no error, its directives say what they must, and nothing in it clashes. -/
theorem ofSourceFile_eq_ok_iff {f : SourceFile} {S : DeclarationSet} :
    ofSourceFile f = .ok S ↔ ∃ head, Binding.header f = .ok head ∧ f.hasErrors = false ∧
      (Binding.references f).filterMap Binding.problemOf? = [] ∧
      (Binding.statements ⟨head.id, f.file⟩ f.statements).conflicts = [] ∧
      S = ⟨head.id, head.version, head.mode, head.isDeprecated, f.file,
        (Binding.references f).filterMap Except.toOption,
        (Binding.statements ⟨head.id, f.file⟩ f.statements).value⟩ := by
  have herrors : f.problems.filter (·.isError) = [] ↔ f.hasErrors = false := by
    simp [SourceFile.hasErrors]
  unfold ofSourceFile
  cases hheader : Binding.header f with
  | error d => simp [Binding.problemOf?]
  | ok head =>
    simp only [Binding.problemOf?, Option.toList_none, List.append_nil, List.isEmpty_iff,
      List.append_eq_nil_iff, herrors, and_assoc, Except.ok.injEq, exists_eq_left']
    split
    · next h =>
      obtain ⟨herrors, hreferences, hclean⟩ := h
      simp only [herrors, hreferences, hclean, true_and, Except.ok.injEq, eq_comm]
    · next h =>
      simp only [reduceCtorEq, false_iff]
      rintro ⟨herrors, hreferences, hclean, -⟩
      exact h ⟨herrors, hreferences, hclean⟩

theorem parse_declarations {file source : String} {S : DeclarationSet}
    (h : parse file source = .ok S) :
    ∃ c, S.declarations = (Binding.statements c (SourceFile.parse file source).statements).value := by
  obtain ⟨head, -, -, -, -, rfl⟩ := ofSourceFile_eq_ok_iff.1 h
  exact ⟨_, rfl⟩

/-- What a file declares can have been gathered. -/
theorem isBound_of_parse {file source : String} {S : DeclarationSet}
    (h : parse file source = .ok S) : S.declarations.IsBound false := by
  obtain ⟨c, hc⟩ := parse_declarations h
  exact hc ▸ Binding.isBound_statements c (TypeSurface.isFound_of_parse file source)

end DeclarationSet
end TypeSurface
