import TypeSurface.Binding.File
import TypeSurface.Proofs.Declaration.WellFormed
import TypeSurface.Proofs.Merge.Absorption
import TypeSurface.Proofs.Relation.Scope

/-!
# Overloads in source order

The members of an interface are gathered twice: one by one within a body, and body by body within a
file.  If nothing conflicts, what is bound under a key is what one pass over all bodies would give:
the signatures under the key in the order of the source, each where it came first.
-/

namespace TypeSurface

/-! ### First occurrences -/

namespace Merge

section Lists

variable {α : Type} [DecidableEq α]

theorem eraseDups_append_eq (as bs : List α) :
    (as ++ bs).eraseDups = appendNew as.eraseDups bs := by
  rw [List.eraseDups_append, appendNew_eq]
  congr 2
  exact List.filter_congr fun b _ ↦ by simp [List.mem_eraseDups]

theorem appendNew_filter_of_mem {a : α} {base : List α} (ha : a ∈ base) (as : List α) :
    appendNew base (as.filter fun b ↦ !b == a) = appendNew base as := by
  rw [appendNew_eq, appendNew_eq, List.filter_filter]
  congr 2
  refine List.filter_congr fun b _ ↦ ?_
  by_cases hb : b = a
  · simp [hb, ha]
  · simp [hb]

theorem appendNew_eraseDups (base as : List α) :
    appendNew base as.eraseDups = appendNew base as := by
  induction hn : as.length using Nat.strong_induction_on generalizing base as with
  | _ n ih =>
    cases as with
    | nil => rfl
    | cons a as =>
      have hshorter : (as.filter fun b ↦ !b == a).length < n := by
        rw [← hn]
        exact Nat.lt_succ_of_le (List.length_filter_le _ _)
      have hstep (bs : List α) : appendNew base (a :: bs) =
          appendNew (if a ∈ base then base else base ++ [a]) bs := rfl
      have hmem : a ∈ if a ∈ base then base else base ++ [a] := by
        split
        · assumption
        · exact List.mem_append_right _ (List.mem_singleton_self a)
      rw [List.eraseDups_cons, hstep, hstep, ih _ hshorter _ _ rfl, appendNew_filter_of_mem hmem]

theorem eraseDups_of_nodup {l : List α} (h : l.Nodup) : l.eraseDups = l := by
  induction l with
  | nil => rfl
  | cons a l ih =>
    obtain ⟨ha, hl⟩ := List.nodup_cons.1 h
    have hkept : l.filter (fun b ↦ !b == a) = l := by
      refine List.filter_eq_self.2 fun b hb ↦ ?_
      have hne : b ≠ a := fun hba ↦ ha (hba ▸ hb)
      simpa using hne
    rw [List.eraseDups_cons, hkept, ih hl]

theorem keys_mapsWith {κ ν : Type} [DecidableEq κ] (f : κ → ν → ν → Merged ν)
    (base extension : OrderedMap κ ν) :
    (mapsWith f base extension).value.keys = appendNew base.keys extension.keys := by
  have hnew : (extension.keys.filter (· ∉ base.keys)).Nodup := extension.nodup.filter _
  have hjoins : Joins (fun k b e m ↦ (f k b e).value = m) base extension
      (mapsWith f base extension).value := mapsWith_joins (fun _ _ _ ↦ rfl) base extension
  rw [hjoins.keys, appendNew_eq, eraseDups_of_nodup hnew]

end Lists

end Merge

/-! ### What is written -/

namespace MemberForm

/-- The key that the member is bound under. -/
def memberKey : MemberForm → MemberKey
  | property name _ _ _ | method name _ _ => .named name.key
  | index _ _ keyType _ => .index (.ofType keyType)
  | call _ => .call
  | construct _ => .construct

deriving instance DecidableEq for Overloading

def overloading? : MemberForm → Option Overloading
  | method _ _ _ => some .method
  | call _ => some .call
  | construct _ => some .construct
  | property _ _ _ _ | index _ _ _ _ => none

/-- The type of the values under the key. -/
def valueType? : MemberForm → Option TypeExpr
  | property _ _ _ type | index _ _ _ type => some type
  | method _ _ _ | call _ | construct _ => none

end MemberForm

/-- The type of the values that a member holds. -/
def MemberBody.valueType? : MemberBody → Option TypeExpr
  | property type | index _ _ type => some type
  | method _ | call _ | construct _ => none

namespace Statement

def isInterface (s : Statement) : Bool :=
  match s.body with
  | .interface _ _ _ => true
  | _ => false

/-- The members that a statement adds to an interface. -/
def membersOf (name : String) (s : Statement) : List MemberForm :=
  match s.body with
  | .interface _ _ members => if s.name = name then members.map PlacedMember.form else []
  | _ => []

/-- The signatures that a statement adds to a function. -/
def overloadsOf (name : String) (s : Statement) : List Signature :=
  match s.body with
  | .function signature => if s.name = name then [signature] else []
  | _ => []

end Statement

/-- The members in all bodies of an interface, in the order of the source. -/
def membersOf (name : String) (ss : List Statement) : List MemberForm :=
  ss.flatMap (Statement.membersOf name)

/-- The signatures of a function, in the order of the source. -/
def overloadsOf (name : String) (ss : List Statement) : List Signature :=
  ss.flatMap (Statement.overloadsOf name)

/-- The members that stand under a key. -/
def under (key : MemberKey) (forms : List MemberForm) : List MemberForm :=
  forms.filter (·.memberKey = key)

theorem under_append (key : MemberKey) (fs gs : List MemberForm) :
    under key (fs ++ gs) = under key fs ++ under key gs :=
  List.filter_append ..

theorem under_eq_nil {key : MemberKey} {forms : List MemberForm}
    (h : key ∉ (forms.map MemberForm.memberKey).eraseDups) : under key forms = [] := by
  rw [List.mem_eraseDups, List.mem_map, not_exists] at h
  exact List.filter_eq_nil_iff.2 fun f hf hkey ↦ h f ⟨hf, by simpa using hkey⟩

/-- The type of the value that the last of several forms gives. -/
def lastValue? (forms : List MemberForm) : Option TypeExpr :=
  forms.getLast?.bind MemberForm.valueType?

theorem lastValue?_append {fs gs : List MemberForm} {t : TypeExpr} (h : lastValue? gs = some t) :
    lastValue? (fs ++ gs) = some t := by
  obtain ⟨f, hf, ht⟩ := Option.bind_eq_some_iff.1 h
  rw [lastValue?, List.getLast?_append, hf]
  exact ht

/-! ### Members -/

theorem Overloading.body_inj {k l : Overloading} {s t : List Signature} (h : k.body s = l.body t) :
    k = l ∧ s = t := by
  cases k <;> cases l <;> cases h <;> exact ⟨rfl, rfl⟩

theorem Overloading.overloads?_body (k : Overloading) (s : List Signature) :
    (k.body s).overloads? = some s := by
  cases k <;> rfl

theorem MemberBody.exists_valueType? {b : MemberBody} (h : b.overloads? = none) :
    ∃ t, b.valueType? = some t := by
  cases b with
  | property type => exact ⟨type, rfl⟩
  | index keyName keyType type => exact ⟨type, rfl⟩
  | _ => cases h

/-- Whether a member is what the forms that stand under its key come to. -/
inductive Member.Gathers (forms : List MemberForm) (m : Member) : Prop where
  | overloads (k : Overloading) (hkind : ∀ f ∈ forms, f.overloading? = some k)
    (hbody : m.body = k.body (forms.flatMap MemberForm.signatures).eraseDups)
    (hfirst : forms.head?.map Relation.isOptionalForm = some m.isOptional)
  | value (hkind : ∀ f ∈ forms, f.overloading? = none) (hbody : m.body.overloads? = none)
    (hvalue : lastValue? forms = m.body.valueType?)

section Members

variable {types : OrderedMap String TypeEntry} {fs gs : List MemberForm} {base extension m : Member}

/-- A member that holds overloads was gathered from such. -/
theorem Member.Gathers.of_body {k : Overloading} {overloads : List Signature}
    (h : base.Gathers fs) (hbase : base.body = k.body overloads) :
    (∀ f ∈ fs, f.overloading? = some k) ∧ overloads = (fs.flatMap MemberForm.signatures).eraseDups ∧
      fs.head?.map Relation.isOptionalForm = some base.isOptional := by
  cases h with
  | overloads l hkind hbody hfirst =>
    obtain ⟨rfl, hsame⟩ := Overloading.body_inj (hbase.symm.trans hbody)
    exact ⟨hkind, hsame, hfirst⟩
  | value _ hbody _ =>
    rw [hbase, Overloading.overloads?_body] at hbody
    cases hbody

theorem Member.Gathers.of_overloads?_eq_none (h : base.Gathers fs)
    (hbase : base.body.overloads? = none) :
    (∀ f ∈ fs, f.overloading? = none) ∧ lastValue? fs = base.body.valueType? := by
  cases h with
  | overloads k _ hbody _ =>
    rw [hbody, Overloading.overloads?_body] at hbase
    cases hbase
  | value hkind _ hvalue => exact ⟨hkind, hvalue⟩

/-- A property or an index signature takes the place of another. -/
theorem Member.Gathers.replace (hbase : base.Gathers fs) (hextension : extension.Gathers gs)
    (hb : base.body.overloads? = none) (he : extension.body.overloads? = none) :
    extension.Gathers (fs ++ gs) := by
  obtain ⟨hkind, hvalue⟩ := hextension.of_overloads?_eq_none he
  obtain ⟨t, ht⟩ := MemberBody.exists_valueType? he
  exact .value (List.forall_mem_append.2 ⟨(hbase.of_overloads?_eq_none hb).1, hkind⟩) he
    (ht ▸ lastValue?_append (hvalue.trans ht))

theorem head?_append_of_first {b : Bool}
    (h : fs.head?.map Relation.isOptionalForm = some b) (gs : List MemberForm) :
    (fs ++ gs).head?.map Relation.isOptionalForm = some b := by
  cases fs with
  | nil => cases h
  | cons f fs => exact h

theorem Member.Gathers.append (hbase : base.Gathers fs) (hextension : extension.Gathers gs)
    (h : Merge.MakesMember types base extension .gather m) : m.Gathers (fs ++ gs) := by
  cases h with
  | property hb he => exact hbase.replace hextension (by rw [hb]; rfl) (by rw [he]; rfl)
  | index hb he => exact hbase.replace hextension (by rw [hb]; rfl) (by rw [he]; rfl)
  | gathered hb he hoptional =>
    obtain ⟨hkind, rfl, hfirst⟩ := hbase.of_body hb
    obtain ⟨hkind', rfl, -⟩ := hextension.of_body he
    refine .overloads _ (List.forall_mem_append.2 ⟨hkind, hkind'⟩) ?_
      (head?_append_of_first hfirst gs)
    rw [List.flatMap_append, Merge.eraseDups_append_eq]
    exact congrArg _ (Merge.appendNew_eraseDups _ _)
  | same hshape =>
    simp only [Member.hasSameShape, Bool.and_eq_true, decide_eq_true_eq, beq_iff_eq] at hshape
    obtain ⟨⟨⟨-, hbody⟩, -⟩, hoptional⟩ := hshape
    cases hextension with
    | value hkind he hvalue => exact hbase.replace (.value hkind he hvalue) (by rw [hbody, he]) he
    | overloads k hkind he hfirst =>
      -- Both sides have the same overloads, so those of the extension are all there already.
      obtain ⟨hkind', hsame, hfirst'⟩ := hbase.of_body (hbody.trans he)
      refine .overloads k (List.forall_mem_append.2 ⟨hkind', hkind⟩) ?_
        (head?_append_of_first (hoptional ▸ hfirst') gs)
      rw [he, List.flatMap_append, Merge.eraseDups_append_eq, ← Merge.appendNew_eraseDups, ← hsame,
        Merge.appendNew_eq_self fun _ ↦ id]

theorem Merge.exists_makesMember {policy : Policy} {owner : String} {key : MemberKey}
    (h : (members types policy owner key base extension).conflicts = []) :
    MakesMember types base extension policy
      (members types policy owner key base extension).value := by
  unfold members at h ⊢
  cases hm : member? types policy base extension with
  | none =>
    rw [hm] at h
    cases h
  | some m => exact makesMember_of_member? hm

end Members

/-! ### Interfaces -/

/-- Whether an interface is what members one after the other come to. -/
structure Interface.Gathers (forms : List MemberForm) (i : Interface) : Prop where
  keys : i.members.keys = (forms.map MemberForm.memberKey).eraseDups
  members : ∀ k m, i.members.get? k = some m → m.Gathers (under k forms)

namespace Merge

variable {κ ν : Type} [DecidableEq κ] {f : κ → ν → ν → Merged ν} {base extension : OrderedMap κ ν}
  {k : κ} {b e v : ν}

theorem conflicts_of_mapsWith (h : (mapsWith f base extension).conflicts = [])
    (hb : base.get? k = some b) (he : extension.get? k = some e) : (f k b e).conflicts = [] := by
  rw [mapsWith_conflicts, List.flatMap_eq_nil_iff] at h
  simpa [metConflicts, hb] using h (k, e) (OrderedMap.get?_eq_some_iff.1 he)

/-- An entry of two maps that are brought together is one of the base, one of the extension, or what
two entries make. -/
theorem get?_mapsWith_cases (h : (mapsWith f base extension).value.get? k = some v) :
    base.get? k = some v ∧ extension.get? k = none ∨
      base.get? k = none ∧ extension.get? k = some v ∨
        ∃ b e, base.get? k = some b ∧ extension.get? k = some e ∧ v = (f k b e).value := by
  cases he : extension.get? k with
  | none =>
    rw [get?_mapsWith_of_none he] at h
    exact .inl ⟨h, rfl⟩
  | some e =>
    rw [get?_mapsWith_of_some he] at h
    cases hb : base.get? k with
    | none =>
      have hvalue : (metValue f base (k, e)).value = e := by simp [metValue, hb, Merged.clean]
      exact .inr (.inl ⟨rfl, hvalue ▸ h⟩)
    | some b =>
      have hvalue : (metValue f base (k, e)).value = (f k b e).value := by simp [metValue, hb]
      exact .inr (.inr ⟨b, e, rfl, rfl, (Option.some.inj (hvalue ▸ h)).symm⟩)

/-- What holds of an entry of either side, and of what it makes with one of the other, holds of the
entry that the two sides have together. -/
theorem exists_get?_mapsWith {Q : ν → Prop} (hclean : (mapsWith f base extension).conflicts = [])
    (hmeet : ∀ b e, (f k b e).conflicts = [] → Q b ∨ Q e → Q (f k b e).value)
    (h : (∃ b, base.get? k = some b ∧ Q b) ∨ ∃ e, extension.get? k = some e ∧ Q e) :
    ∃ v, (mapsWith f base extension).value.get? k = some v ∧ Q v := by
  cases he : extension.get? k with
  | none =>
    obtain ⟨b, hb, hQ⟩ := h.resolve_right fun ⟨e, he', _⟩ ↦ by
      rw [he] at he'
      cases he'
    exact ⟨b, (get?_mapsWith_of_none he).trans hb, hQ⟩
  | some e =>
    refine ⟨_, get?_mapsWith_of_some he, ?_⟩
    cases hb : base.get? k with
    | none =>
      obtain ⟨e', he', hQ⟩ := h.resolve_left fun ⟨b, hb', _⟩ ↦ by
        rw [hb] at hb'
        cases hb'
      rw [he] at he'
      cases he'
      simpa [metValue, hb, Merged.clean] using hQ
    | some b =>
      have hQ : Q b ∨ Q e := h.imp (fun ⟨b', hb', hQ⟩ ↦ by rw [hb] at hb'; cases hb'; exact hQ)
        fun ⟨e', he', hQ⟩ ↦ by rw [he] at he'; cases he'; exact hQ
      simpa [metValue, hb] using hmeet b e (conflicts_of_mapsWith hclean hb he) hQ

end Merge

section Interfaces

variable {types : OrderedMap String TypeEntry} {fs gs : List MemberForm}
  {base extension : Interface}

theorem Interface.Gathers.under_eq_nil {k : MemberKey} (h : base.Gathers fs)
    (hk : base.members.get? k = none) : under k fs = [] := by
  apply TypeSurface.under_eq_nil
  rw [← h.keys]
  exact OrderedMap.get?_eq_none_iff.1 hk

theorem Interface.Gathers.append (hbase : base.Gathers fs) (hextension : extension.Gathers gs)
    (hclean : (Merge.interfaces types .gather base extension).conflicts = []) :
    (Merge.interfaces types .gather base extension).value.Gathers (fs ++ gs) where
  keys := by
    have hkeys := Merge.keys_mapsWith (Merge.members types .gather base.name) base.members
      extension.members
    rw [hbase.keys, hextension.keys, Merge.appendNew_eraseDups, ← Merge.eraseDups_append_eq,
      ← List.map_append] at hkeys
    exact hkeys
  members k m hm := by
    have hmembers := (List.append_eq_nil_iff.1 hclean).2
    rw [under_append]
    rcases Merge.get?_mapsWith_cases hm with ⟨hb, he⟩ | ⟨hb, he⟩ | ⟨b, e, hb, he, rfl⟩
    · rw [hextension.under_eq_nil he, List.append_nil]
      exact hbase.members k m hb
    · rw [hbase.under_eq_nil hb, List.nil_append]
      exact hextension.members k m he
    · exact (hbase.members k b hb).append (hextension.members k e he)
        (Merge.exists_makesMember (Merge.conflicts_of_mapsWith hmembers hb he))

end Interfaces

namespace Binding

theorem key_member (c : Context) (m : PlacedMember) : (member c m).key = m.form.memberKey := by
  obtain ⟨form, span⟩ := m
  cases form <;> rfl

theorem gathers_member (c : Context) (m : PlacedMember) : (member c m).Gathers [m.form] := by
  obtain ⟨form, span⟩ := m
  cases form with
  | property name isReadonly isOptional type =>
    exact .value (List.forall_mem_singleton.2 rfl) rfl rfl
  | index isReadonly keyName keyType type =>
    exact .value (List.forall_mem_singleton.2 rfl) rfl rfl
  | method name isOptional signature =>
    exact .overloads .method (List.forall_mem_singleton.2 rfl) rfl rfl
  | call signature => exact .overloads .call (List.forall_mem_singleton.2 rfl) rfl rfl
  | construct signature => exact .overloads .construct (List.forall_mem_singleton.2 rfl) rfl rfl

theorem gathers_singleton (c : Context) (m : PlacedMember) (i : Interface) :
    Interface.Gathers [m.form]
      { i with members := .singleton (member c m).key (member c m) } where
  keys := by rw [key_member]; rfl
  members k n hn := by
    rw [OrderedMap.get?_singleton, key_member] at hn
    split at hn
    · next hk =>
      have hunder : under k [m.form] = [m.form] := List.filter_cons_of_pos (by simpa using hk)
      rw [hunder, ← Option.some.inj hn]
      exact gathers_member c m
    · cases hn

theorem conflicts_addMember (c : Context) (merged : Merged Interface) (m : PlacedMember) :
    merged.conflicts <+: (addMember c merged m).conflicts :=
  List.prefix_append ..

/-- If nothing conflicts in the end, nothing did before. -/
theorem conflicts_of_foldl {α β : Type} {step : Merged α → β → Merged α}
    (hstep : ∀ m b, m.conflicts <+: (step m b).conflicts) {l : List β} {m : Merged α}
    (h : (l.foldl step m).conflicts = []) : m.conflicts = [] := by
  induction l generalizing m with
  | nil => exact h
  | cons b l ih => exact List.prefix_nil.1 (ih h ▸ hstep m b)

theorem gathers_foldl_addMember (c : Context) {ms : List PlacedMember} (fs : List MemberForm)
    {merged : Merged Interface} (hmerged : merged.value.Gathers fs)
    (hclean : (ms.foldl (addMember c) merged).conflicts = []) :
    (ms.foldl (addMember c) merged).value.Gathers (fs ++ ms.map PlacedMember.form) := by
  induction ms generalizing merged fs with
  | nil => rwa [List.map_nil, List.append_nil]
  | cons m ms ih =>
    have hadded : (addMember c merged m).conflicts = [] :=
      conflicts_of_foldl (l := ms) (conflicts_addMember c) hclean
    rw [List.map_cons, List.append_cons]
    apply ih _ _ hclean
    exact hmerged.append (gathers_singleton c m { merged.value with heritage := [] })
      (List.append_eq_nil_iff.1 hadded).2

theorem name_foldl_addMember (c : Context) (ms : List PlacedMember) (merged : Merged Interface) :
    (ms.foldl (addMember c) merged).value.name = merged.value.name := by
  induction ms generalizing merged with
  | nil => rfl
  | cons m ms ih => exact ih (addMember c merged m)

end Binding

/-! ### Files -/

/-- Whether declarations are what statements one after the other come to. -/
structure Declarations.Gathers (ss : List Statement) (d : Declarations) : Prop where
  interfaces : ∀ name i, d.types.get? name = some (.interface i) → i.Gathers (membersOf name ss)
  isInterface : ∀ s ∈ ss, s.isInterface = true → ∃ i, d.types.get? s.name = some (.interface i)
  functions : ∀ name f, d.values.get? name = some (.function f) →
    f.overloads = (overloadsOf name ss).eraseDups
  isFunction : ∀ name, overloadsOf name ss ≠ [] → ∃ f, d.values.get? name = some (.function f)
  aliases : ∀ name a, d.types.get? name = some (.typeAlias a) →
    ∃ s ∈ ss, s.name = name ∧ s.body = .typeAlias a.typeParams a.type
  isAlias : ∀ s ∈ ss, ∀ typeParams type, s.body = .typeAlias typeParams type →
    ∃ a, d.types.get? s.name = some (.typeAlias a) ∧ a.typeParams = typeParams ∧ a.type = type

section Files

variable {ss ts : List Statement} {base extension : Declarations} {name : String}

theorem membersOf_append (name : String) (ss ts : List Statement) :
    membersOf name (ss ++ ts) = membersOf name ss ++ membersOf name ts :=
  List.flatMap_append ..

theorem overloadsOf_append (name : String) (ss ts : List Statement) :
    overloadsOf name (ss ++ ts) = overloadsOf name ss ++ overloadsOf name ts :=
  List.flatMap_append ..

theorem Declarations.Gathers.membersOf_eq_nil (h : base.Gathers ss)
    (hname : base.types.get? name = none) : membersOf name ss = [] := by
  refine List.flatMap_eq_nil_iff.2 fun s hs ↦ ?_
  have hdeclared := h.isInterface s hs
  unfold Statement.isInterface at hdeclared
  unfold Statement.membersOf
  split
  · next hbody =>
    rw [hbody] at hdeclared
    obtain ⟨i, hi⟩ := hdeclared rfl
    refine if_neg ?_
    rintro rfl
    rw [hname] at hi
    cases hi
  · rfl

theorem Declarations.Gathers.overloadsOf_eq_nil (h : base.Gathers ss)
    (hname : base.values.get? name = none) : overloadsOf name ss = [] := by
  by_contra hne
  obtain ⟨f, hf⟩ := h.isFunction name hne
  rw [hname] at hf
  cases hf

theorem interface_of_typeEntries {types : OrderedMap String TypeEntry} {b e : TypeEntry}
    (hclean : (Merge.typeEntries types .gather name b e).conflicts = [])
    (h : (∃ i, b = .interface i) ∨ ∃ i, e = .interface i) :
    ∃ bi ei, b = .interface bi ∧ e = .interface ei := by
  cases b with
  | interface bi =>
    cases e with
    | interface ei => exact ⟨bi, ei, rfl, rfl⟩
    | typeAlias _ => cases hclean
  | typeAlias _ =>
    cases e with
    | interface _ => cases hclean
    | typeAlias _ => rcases h with ⟨_, h⟩ | ⟨_, h⟩ <;> cases h

theorem function_of_valueEntries {types : OrderedMap String TypeEntry} {b e : ValueEntry}
    (hclean : (Merge.valueEntries types .gather name b e).conflicts = [])
    (h : (∃ f, b = .function f) ∨ ∃ f, e = .function f) :
    ∃ bf ef, b = .function bf ∧ e = .function ef := by
  rcases b with b | bf
  · rcases e with e | ef
    · rcases h with ⟨_, h⟩ | ⟨_, h⟩ <;> cases h
    · cases hclean
  · rcases e with e | ef
    · cases hclean
    · exact ⟨bf, ef, rfl, rfl⟩

theorem alias_of_typeEntries {types : OrderedMap String TypeEntry} {b e : TypeEntry}
    {typeParams : List TypeParam} {type : TypeExpr}
    (hclean : (Merge.typeEntries types .gather name b e).conflicts = [])
    (h : (∃ a, b = .typeAlias a ∧ a.typeParams = typeParams ∧ a.type = type) ∨
      ∃ a, e = .typeAlias a ∧ a.typeParams = typeParams ∧ a.type = type) :
    ∃ a, (Merge.typeEntries types .gather name b e).value = .typeAlias a ∧
      a.typeParams = typeParams ∧ a.type = type := by
  cases b with
  | interface _ =>
    cases e with
    | interface _ => rcases h with ⟨_, h, _⟩ | ⟨_, h, _⟩ <;> cases h
    | typeAlias _ => cases hclean
  | typeAlias ba =>
    cases e with
    | interface _ => cases hclean
    | typeAlias ea =>
      have hsame : ba.typeParams = ea.typeParams ∧ ba.type = ea.type := by
        by_contra hne
        simp [Merge.typeEntries, hne] at hclean
      refine ⟨ba, rfl, ?_⟩
      rcases h with ⟨_, ⟨⟩, h⟩ | ⟨_, ⟨⟩, h⟩
      · exact h
      · rwa [hsame.1, hsame.2]

namespace Declarations.Gathers

/-! What each field says of two declarations carries over to what they come to together. -/

section Together

variable (hbase : base.Gathers ss) (hextension : extension.Gathers ts)
  (hclean : (Merge.declarations .gather base extension).conflicts = [])

include hbase hextension hclean

theorem interfaces_append {i : Interface}
    (hi : (Merge.declarations .gather base extension).value.types.get? name =
      some (.interface i)) : i.Gathers (membersOf name (ss ++ ts)) := by
  obtain ⟨htypes, -⟩ := List.append_eq_nil_iff.1 hclean
  rw [membersOf_append]
  rcases Merge.get?_mapsWith_cases hi with ⟨hb, he⟩ | ⟨hb, he⟩ | ⟨b, e, hb, he, hvalue⟩
  · rw [hextension.membersOf_eq_nil he, List.append_nil]
    exact hbase.interfaces name i hb
  · rw [hbase.membersOf_eq_nil hb, List.nil_append]
    exact hextension.interfaces name i he
  · have hmet := Merge.conflicts_of_mapsWith htypes hb he
    cases b with
    | typeAlias _ => cases e <;> cases hvalue
    | interface bi =>
      obtain ⟨-, ei, -, rfl⟩ := interface_of_typeEntries hmet (.inl ⟨bi, rfl⟩)
      cases hvalue
      exact (hbase.interfaces name bi hb).append (hextension.interfaces name ei he) hmet

theorem isInterface_append {s : Statement} (hs : s ∈ ss ++ ts) (hinterface : s.isInterface = true) :
    ∃ i, (Merge.declarations .gather base extension).value.types.get? s.name =
      some (.interface i) := by
  obtain ⟨htypes, -⟩ := List.append_eq_nil_iff.1 hclean
  obtain ⟨v, hv, i, rfl⟩ := Merge.exists_get?_mapsWith (k := s.name)
    (Q := fun entry ↦ ∃ i, entry = .interface i) htypes
    (fun b e hmet hQ ↦ by
      obtain ⟨bi, ei, rfl, rfl⟩ := interface_of_typeEntries hmet hQ
      exact ⟨_, rfl⟩)
    ((List.mem_append.1 hs).imp
      (fun hs ↦ by obtain ⟨i, hi⟩ := hbase.isInterface s hs hinterface; exact ⟨_, hi, i, rfl⟩)
      fun hs ↦ by obtain ⟨i, hi⟩ := hextension.isInterface s hs hinterface; exact ⟨_, hi, i, rfl⟩)
  exact ⟨i, hv⟩

theorem functions_append {f : Function}
    (hf : (Merge.declarations .gather base extension).value.values.get? name =
      some (.function f)) : f.overloads = (overloadsOf name (ss ++ ts)).eraseDups := by
  obtain ⟨-, hvalues⟩ := List.append_eq_nil_iff.1 hclean
  rw [overloadsOf_append]
  rcases Merge.get?_mapsWith_cases hf with ⟨hb, he⟩ | ⟨hb, he⟩ | ⟨b, e, hb, he, hvalue⟩
  · rw [hextension.overloadsOf_eq_nil he, List.append_nil]
    exact hbase.functions name f hb
  · rw [hbase.overloadsOf_eq_nil hb, List.nil_append]
    exact hextension.functions name f he
  · have hmet := Merge.conflicts_of_mapsWith hvalues hb he
    rcases b with _ | bf
    · rcases e with _ | _ <;> cases hvalue
    · obtain ⟨-, ef, -, rfl⟩ := function_of_valueEntries hmet (.inl ⟨bf, rfl⟩)
      cases hvalue
      change Merge.appendNew bf.overloads ef.overloads = _
      rw [hbase.functions name bf hb, hextension.functions name ef he,
        Merge.appendNew_eraseDups, Merge.eraseDups_append_eq]

theorem isFunction_append (hne : overloadsOf name (ss ++ ts) ≠ []) :
    ∃ f, (Merge.declarations .gather base extension).value.values.get? name =
      some (.function f) := by
  obtain ⟨-, hvalues⟩ := List.append_eq_nil_iff.1 hclean
  rw [overloadsOf_append, ne_eq, List.append_eq_nil_iff, not_and_or] at hne
  obtain ⟨v, hv, f, rfl⟩ := Merge.exists_get?_mapsWith (k := name)
    (Q := fun entry ↦ ∃ f, entry = .function f) hvalues
    (fun b e hmet hQ ↦ by
      obtain ⟨bf, ef, rfl, rfl⟩ := function_of_valueEntries hmet hQ
      exact ⟨_, rfl⟩)
    (hne.imp
      (fun hne ↦ by obtain ⟨f, hf⟩ := hbase.isFunction name hne; exact ⟨_, hf, f, rfl⟩)
      fun hne ↦ by obtain ⟨f, hf⟩ := hextension.isFunction name hne; exact ⟨_, hf, f, rfl⟩)
  exact ⟨f, hv⟩

theorem isAlias_append {s : Statement} (hs : s ∈ ss ++ ts) {typeParams : List TypeParam}
    {type : TypeExpr} (hbody : s.body = .typeAlias typeParams type) :
    ∃ a, (Merge.declarations .gather base extension).value.types.get? s.name =
      some (.typeAlias a) ∧ a.typeParams = typeParams ∧ a.type = type := by
  obtain ⟨htypes, -⟩ := List.append_eq_nil_iff.1 hclean
  obtain ⟨v, hv, a, rfl, h⟩ := Merge.exists_get?_mapsWith (k := s.name)
    (Q := fun entry ↦ ∃ a, entry = .typeAlias a ∧ a.typeParams = typeParams ∧ a.type = type)
    htypes (fun b e hmet hQ ↦ alias_of_typeEntries hmet hQ)
    ((List.mem_append.1 hs).imp
      (fun hs ↦ by
        obtain ⟨a, ha, h⟩ := hbase.isAlias s hs typeParams type hbody
        exact ⟨_, ha, a, rfl, h⟩)
      fun hs ↦ by
        obtain ⟨a, ha, h⟩ := hextension.isAlias s hs typeParams type hbody
        exact ⟨_, ha, a, rfl, h⟩)
  exact ⟨a, hv, h⟩

omit hclean in
theorem aliases_append {a : TypeAlias}
    (ha : (Merge.declarations .gather base extension).value.types.get? name =
      some (.typeAlias a)) :
    ∃ s ∈ ss ++ ts, s.name = name ∧ s.body = .typeAlias a.typeParams a.type := by
  have hfrom : base.types.get? name = some (.typeAlias a) ∨
      extension.types.get? name = some (.typeAlias a) := by
    rcases Merge.get?_mapsWith_cases ha with ⟨hb, -⟩ | ⟨-, he⟩ | ⟨b, e, hb, he, hvalue⟩
    · exact .inl hb
    · exact .inr he
    · cases b with
      | interface _ => cases e <;> cases hvalue
      | typeAlias _ => cases e <;> cases hvalue <;> exact .inl hb
  rcases hfrom with hb | he
  · obtain ⟨s, hs, h⟩ := hbase.aliases name a hb
    exact ⟨s, List.mem_append_left _ hs, h⟩
  · obtain ⟨s, hs, h⟩ := hextension.aliases name a he
    exact ⟨s, List.mem_append_right _ hs, h⟩

theorem append : (Merge.declarations .gather base extension).value.Gathers (ss ++ ts) where
  interfaces _ _ hi := hbase.interfaces_append hextension hclean hi
  isInterface _ hs hinterface := hbase.isInterface_append hextension hclean hs hinterface
  functions _ _ hf := hbase.functions_append hextension hclean hf
  isFunction _ hne := hbase.isFunction_append hextension hclean hne
  aliases _ _ ha := hbase.aliases_append hextension ha
  isAlias _ hs _ _ hbody := hbase.isAlias_append hextension hclean hs hbody

end Together

end Declarations.Gathers

end Files

namespace Binding

theorem gathers_empty : Declarations.Gathers [] .empty :=
  ⟨fun _ _ ↦ nofun, fun _ ↦ nofun, fun _ _ ↦ nofun, fun _ h ↦ absurd rfl h, fun _ _ ↦ nofun,
    fun _ ↦ nofun⟩

theorem get?_singleton_eq_some {κ ν : Type} [DecidableEq κ] {j k : κ} {v w : ν}
    (h : (OrderedMap.singleton j v).get? k = some w) : j = k ∧ v = w := by
  rw [OrderedMap.get?_singleton] at h
  split at h
  · next hk => exact ⟨hk, Option.some.inj h⟩
  · cases h

section Single

variable {s : Statement}

theorem gathers_single_interface (c : Context) {typeParams : List TypeParam}
    {heritage : List TypeExpr} {members : List PlacedMember}
    (hbody : s.body = .interface typeParams heritage members)
    (hclean : (single c s).conflicts = []) : (single c s).value.Gathers [s] := by
  obtain ⟨name, nameSpan, span, body⟩ := s
  cases hbody
  let start : Merged Interface := .clean ⟨name, typeParams, heritage, .empty, c.origin span⟩
  have hbound : (members.foldl (addMember c) start).value.Gathers
      (members.map PlacedMember.form) :=
    gathers_foldl_addMember c [] ⟨rfl, fun _ _ ↦ nofun⟩ hclean
  have hname : (members.foldl (addMember c) start).value.name = name :=
    name_foldl_addMember c members start
  refine ⟨fun n i hi ↦ ?_, fun t ht _ ↦ ?_, fun _ _ ↦ nofun, fun _ hne ↦ absurd rfl hne,
    fun n a ha ↦ ?_, fun t ht _ _ hbody ↦ ?_⟩
  · obtain ⟨hn, ⟨⟩⟩ := get?_singleton_eq_some hi
    obtain rfl : name = n := hname.symm.trans hn
    simpa [membersOf, Statement.membersOf] using hbound
  · rw [List.mem_singleton.1 ht]
    exact ⟨_, (OrderedMap.get?_singleton ..).trans (if_pos hname)⟩
  · obtain ⟨-, ⟨⟩⟩ := get?_singleton_eq_some ha
  · rw [List.mem_singleton.1 ht] at hbody
    cases hbody

theorem gathers_single_typeAlias (c : Context) {typeParams : List TypeParam} {type : TypeExpr}
    (hbody : s.body = .typeAlias typeParams type) : (single c s).value.Gathers [s] := by
  obtain ⟨name, nameSpan, span, body⟩ := s
  cases hbody
  refine ⟨fun n i hi ↦ ?_, fun t ht hinterface ↦ ?_, fun _ _ ↦ nofun, fun _ hne ↦ absurd rfl hne,
    fun n a ha ↦ ?_, fun t ht _ _ hbody ↦ ?_⟩
  · obtain ⟨-, ⟨⟩⟩ := get?_singleton_eq_some hi
  · rw [List.mem_singleton.1 ht] at hinterface
    cases hinterface
  · obtain ⟨rfl, ⟨⟩⟩ := get?_singleton_eq_some ha
    exact ⟨_, List.mem_singleton_self _, rfl, rfl⟩
  · rw [List.mem_singleton.1 ht] at hbody ⊢
    cases hbody
    exact ⟨_, (OrderedMap.get?_singleton ..).trans (if_pos rfl), rfl, rfl⟩

theorem gathers_single_function (c : Context) {signature : Signature}
    (hbody : s.body = .function signature) : (single c s).value.Gathers [s] := by
  obtain ⟨name, nameSpan, span, body⟩ := s
  cases hbody
  refine ⟨fun _ _ ↦ nofun, fun t ht hinterface ↦ ?_, fun n f hf ↦ ?_, fun n hne ↦ ?_,
    fun _ _ ↦ nofun, fun t ht _ _ hbody ↦ ?_⟩
  · rw [List.mem_singleton.1 ht] at hinterface
    cases hinterface
  · obtain ⟨rfl, ⟨⟩⟩ := get?_singleton_eq_some hf
    simp [overloadsOf, Statement.overloadsOf, ValueEntry.name, Merge.eraseDups_of_nodup]
  · obtain rfl : name = n := by
      by_contra hn
      simp [overloadsOf, Statement.overloadsOf, hn] at hne
    exact ⟨_, (OrderedMap.get?_singleton ..).trans (if_pos rfl)⟩
  · rw [List.mem_singleton.1 ht] at hbody
    cases hbody

theorem gathers_single_variable (c : Context) {kind : VariableKind} {type : TypeExpr}
    (hbody : s.body = .variable kind type) : (single c s).value.Gathers [s] := by
  obtain ⟨name, nameSpan, span, body⟩ := s
  cases hbody
  refine ⟨fun _ _ ↦ nofun, fun t ht hinterface ↦ ?_, fun n f hf ↦ ?_, fun _ hne ↦ absurd rfl hne,
    fun _ _ ↦ nofun, fun t ht _ _ hbody ↦ ?_⟩
  · rw [List.mem_singleton.1 ht] at hinterface
    cases hinterface
  · obtain ⟨-, ⟨⟩⟩ := get?_singleton_eq_some hf
  · rw [List.mem_singleton.1 ht] at hbody
    cases hbody

theorem gathers_single (c : Context) (hclean : (single c s).conflicts = []) :
    (single c s).value.Gathers [s] := by
  match hbody : s.body with
  | .interface _ _ _ => exact gathers_single_interface c hbody hclean
  | .typeAlias _ _ => exact gathers_single_typeAlias c hbody
  | .variable _ _ => exact gathers_single_variable c hbody
  | .function _ => exact gathers_single_function c hbody

end Single

theorem conflicts_addStatement (c : Context) (merged : Merged Declarations) (s : Statement) :
    merged.conflicts <+: (addStatement c merged s).conflicts :=
  (List.prefix_append ..).trans (List.prefix_append ..)

theorem gathers_foldl_addStatement (c : Context) {ss : List Statement} (ts : List Statement)
    {merged : Merged Declarations} (hmerged : merged.value.Gathers ts)
    (hclean : (ss.foldl (addStatement c) merged).conflicts = []) :
    (ss.foldl (addStatement c) merged).value.Gathers (ts ++ ss) := by
  induction ss generalizing merged ts with
  | nil => rwa [List.append_nil]
  | cons s ss ih =>
    have hadded : (addStatement c merged s).conflicts = [] :=
      conflicts_of_foldl (l := ss) (conflicts_addStatement c) hclean
    obtain ⟨hbefore, hnext⟩ := List.append_eq_nil_iff.1 hadded
    have hown := gathers_single c (List.append_eq_nil_iff.1 hbefore).2
    rw [List.append_cons]
    exact ih _ (hmerged.append hown hnext) hclean

end Binding

namespace DeclarationSet

/-- A file that binds is bound statement by statement without a conflict. -/
theorem declarations_of_ofSourceFile {f : SourceFile} {S : DeclarationSet}
    (h : ofSourceFile f = .ok S) :
    ∃ c, S.declarations = (Binding.statements c f.statements).value ∧
      (Binding.statements c f.statements).conflicts = [] := by
  obtain ⟨head, -, -, -, hclean, rfl⟩ := ofSourceFile_eq_ok_iff.1 h
  exact ⟨_, rfl, hclean⟩

/-- In a file that binds, what is bound under a key of an interface, and as a function, are the
signatures in the order of the source, each where it came first.  Whether the member is optional,
the first form says; the members stand in the order in which their keys came first. -/
theorem overloads_in_source_order {f : SourceFile} {S : DeclarationSet}
    (h : ofSourceFile f = .ok S) :
    (∀ s ∈ f.statements, s.isInterface = true →
      ∃ i, S.declarations.types.get? s.name = some (.interface i)) ∧
    (∀ name i, S.declarations.types.get? name = some (.interface i) →
      i.members.keys = ((membersOf name f.statements).map MemberForm.memberKey).eraseDups ∧
        ∀ form ∈ membersOf name f.statements, ∃ m, i.members.get? form.memberKey = some m ∧
          (form.overloading? = none → m.body.overloads? = none) ∧
          ∀ kind, form.overloading? = some kind →
            m.body = kind.body ((under form.memberKey (membersOf name f.statements)).flatMap
              MemberForm.signatures).eraseDups ∧
            (under form.memberKey (membersOf name f.statements)).head?.map
              Relation.isOptionalForm = some m.isOptional) ∧
    (∀ name, overloadsOf name f.statements ≠ [] →
      ∃ g, S.declarations.values.get? name = some (.function g)) ∧
    ∀ name g, S.declarations.values.get? name = some (.function g) →
      g.overloads = (overloadsOf name f.statements).eraseDups := by
  obtain ⟨c, hvalue, hclean⟩ := declarations_of_ofSourceFile h
  have hgathers : (Binding.statements c f.statements).value.Gathers f.statements :=
    Binding.gathers_foldl_addStatement c [] Binding.gathers_empty hclean
  rw [← hvalue] at hgathers
  refine ⟨hgathers.isInterface, fun name i hi ↦ ?_, hgathers.isFunction, hgathers.functions⟩
  have hi := hgathers.interfaces name i hi
  refine ⟨hi.keys, fun form hform ↦ ?_⟩
  obtain ⟨m, hm⟩ : ∃ m, i.members.get? form.memberKey = some m := by
    rw [← OrderedMap.mem_keys_iff, hi.keys, List.mem_eraseDups]
    exact List.mem_map_of_mem hform
  have hunder : form ∈ under form.memberKey (membersOf name f.statements) :=
    List.mem_filter.2 ⟨hform, by simp⟩
  refine ⟨m, hm, ?_⟩
  cases hi.members _ m hm with
  | overloads k hkinds hbody hfirst =>
    have hform := hkinds form hunder
    refine ⟨fun hnone ↦ ?_, fun kind hkind ↦ ?_⟩
    · rw [hform] at hnone
      cases hnone
    · obtain rfl : k = kind := Option.some.inj (hform.symm.trans hkind)
      exact ⟨hbody, hfirst⟩
  | value hkinds hbody _ =>
    refine ⟨fun _ ↦ hbody, fun kind hkind ↦ ?_⟩
    rw [hkinds form hunder] at hkind
    cases hkind

/-- A file with a repeated interface and a repeated function. -/
def repeatedSource : String :=
  "/// <set id=\"base\" />\ninterface Box \x7b at?(i: int): int; at(i: string): int \x7d" ++
    "\ninterface Box \x7b (): void; at(i: int): int; at(i: any): int \x7d" ++
    "\ndeclare function f(): int;\ndeclare function f(i: int): int;\ndeclare function f(): int;"

theorem overloads_in_source_order_repeated :
    ∃ S i m overloads g, ofSourceFile (.parse "base.d.ts" repeatedSource) = .ok S ∧
      S.declarations.types.get? "Box" = some (.interface i) ∧
      i.members.keys = [.named "at", .call] ∧ i.members.get? (.named "at") = some m ∧
      m.body = .method overloads ∧ overloads.length = 3 ∧ m.isOptional = true ∧
      S.declarations.values.get? "f" = some (.function g) ∧ g.overloads.length = 2 := by
  let ss := (SourceFile.parse "base.d.ts" repeatedSource).statements
  have hrun : (ofSourceFile (.parse "base.d.ts" repeatedSource)).toOption.isSome = true ∧
      (∃ s ∈ ss, s.isInterface = true ∧ s.name = "Box") ∧
      ((membersOf "Box" ss).map MemberForm.memberKey).eraseDups = [.named "at", .call] ∧
      (∃ form ∈ membersOf "Box" ss,
        form.memberKey = .named "at" ∧ form.overloading? = some .method) ∧
      ((under (.named "at") (membersOf "Box" ss)).flatMap
        MemberForm.signatures).eraseDups.length = 3 ∧
      (under (.named "at") (membersOf "Box" ss)).head?.map Relation.isOptionalForm = some true ∧
      (overloadsOf "f" ss).eraseDups.length = 2 := by decide +kernel
  obtain ⟨hbinds, hstatement, hkeys, hform, hoverloads, hfirst, hfunction⟩ := hrun
  obtain ⟨S, hS⟩ := exists_eq_ok_of_toOption hbinds
  obtain ⟨hinterface, hmembers, hdeclared, hfunctions⟩ := overloads_in_source_order hS
  obtain ⟨s, hs, hkind, hname⟩ := hstatement
  obtain ⟨i, hi⟩ := hname ▸ hinterface s hs hkind
  obtain ⟨hi', hforms⟩ := hmembers "Box" i hi
  obtain ⟨form, hform, hkey, hmethod⟩ := hform
  obtain ⟨m, hm, -, hbody⟩ := hforms form hform
  rw [hkey] at hm hbody
  obtain ⟨hbody, hoptional⟩ := hbody _ hmethod
  obtain ⟨g, hg⟩ := hdeclared "f" fun hnil ↦ by
    rw [show overloadsOf "f" ss = [] from hnil] at hfunction
    cases hfunction
  refine ⟨S, i, m, _, g, hS, hi, hi'.trans hkeys, hm, hbody, hoverloads, ?_, hg, ?_⟩
  · exact Option.some.inj (hoptional.symm.trans hfirst)
  · rw [hfunctions "f" g hg]
    exact hfunction

end DeclarationSet
end TypeSurface
