import TypeSurface.Proofs.Binding.Bound
import TypeSurface.Proofs.Relation.Reflexivity

/-!
# Binding printed declarations

The statements that declarations are printed as are bound as the declarations again: the overloads
of a member or a function come one behind the other, and are gathered in their order.
-/

namespace TypeSurface

/-! ### Entries one by one -/

namespace OrderedMap

variable {κ ν : Type} [DecidableEq κ]

theorem entries_insert_of_last {m : OrderedMap κ ν} {front : List (κ × ν)} {k : κ} {v : ν}
    (h : m.entries = front ++ [(k, v)]) (w : ν) : (m.insert k w).entries = front ++ [(k, w)] := by
  have hkeys : k ∉ front.map Prod.fst := by
    have hnodup := m.nodup
    rw [h, List.map_append] at hnodup
    exact List.disjoint_singleton.1 (List.disjoint_of_nodup_append hnodup)
  have hfront : replaceEntry k w front = front := by
    refine (List.map_congr_left fun e he ↦ if_neg ?_).trans (List.map_id front)
    rintro rfl
    exact hkeys (List.mem_map_of_mem he)
  have hknown : k ∈ m.entries.map Prod.fst := by simp [h]
  unfold insert
  rw [dif_pos hknown]
  simp only [h]
  rw [replaceEntry, List.map_append]
  simpa [replaceEntry] using hfront

end OrderedMap

section Entries

variable {σ α φ κ ν μ : Type} {H : σ → List (κ × ν) → Prop} {step : σ → α → σ} {form : α → φ}
  {F : ν → List φ} {look : ν → μ} {entries : List (κ × ν)}

/-- Where the forms of one entry make one more entry that looks the same, those of all entries make
entries that look the same. -/
theorem exists_foldl_entries_behind
    (hone : ∀ e ∈ entries, ∀ (s : σ) (held : List (κ × ν)) (as : List α), H s held →
      e.1 ∉ held.map Prod.fst → as.map form = F e.2 →
      ∃ v, H (as.foldl step s) (held ++ [(e.1, v)]) ∧ look v = look e.2)
    {s : σ} {held : List (κ × ν)} {as : List α} (hs : H s held)
    (hkeys : (held.map Prod.fst ++ entries.map Prod.fst).Nodup)
    (hforms : as.map form = entries.flatMap fun e ↦ F e.2) :
    ∃ made, H (as.foldl step s) (held ++ made) ∧
      made.map (fun e ↦ (e.1, look e.2)) = entries.map fun e ↦ (e.1, look e.2) := by
  -- Each entry is new to those that are held, as no key comes twice.
  induction entries generalizing s held as with
  | nil =>
    cases List.map_eq_nil_iff.1 hforms
    exact ⟨[], by rwa [List.append_nil], rfl⟩
  | cons e entries ih =>
    rw [List.forall_mem_cons] at hone
    rw [List.flatMap_cons] at hforms
    obtain ⟨bs, cs, rfl, hbs, hcs⟩ := List.map_eq_append_iff.1 hforms
    have hnew : e.1 ∉ held.map Prod.fst := by
      intro hmem
      exact List.disjoint_of_nodup_append hkeys hmem (List.mem_map_of_mem List.mem_cons_self)
    obtain ⟨v, hv, hlook⟩ := hone.1 s held bs hs hnew hbs
    have hkeys' : ((held ++ [(e.1, v)]).map Prod.fst ++ entries.map Prod.fst).Nodup := by
      simpa using hkeys
    obtain ⟨made, hmade, hsame⟩ := ih hone.2 hv hkeys' hcs
    refine ⟨(e.1, v) :: made, ?_, ?_⟩
    · rwa [List.foldl_append, List.append_cons]
    · rw [List.map_cons, List.map_cons, hsame, hlook]

theorem exists_foldl_entries
    (hone : ∀ e ∈ entries, ∀ (s : σ) (held : List (κ × ν)) (as : List α), H s held →
      e.1 ∉ held.map Prod.fst → as.map form = F e.2 →
      ∃ v, H (as.foldl step s) (held ++ [(e.1, v)]) ∧ look v = look e.2)
    {s : σ} {as : List α} (hs : H s []) (hkeys : (entries.map Prod.fst).Nodup)
    (hforms : as.map form = entries.flatMap fun e ↦ F e.2) :
    ∃ made, H (as.foldl step s) made ∧
      made.map (fun e ↦ (e.1, look e.2)) = entries.map fun e ↦ (e.1, look e.2) :=
  exists_foldl_entries_behind hone hs (List.nil_append (entries.map Prod.fst) ▸ hkeys) hforms

end Entries

namespace Merge

variable {κ ν : Type} [DecidableEq κ]

/-- A map with one more entry, which goes together with the one that is there. -/
def gatherEntry (f : κ → ν → ν → Merged ν) (merged : Merged (OrderedMap κ ν)) (k : κ) (v : ν) :
    Merged (OrderedMap κ ν) :=
  let next := mapsWith f merged.value (.singleton k v)
  ⟨next.value, merged.conflicts ++ next.conflicts⟩

/-- A map without conflicts that holds these entries. -/
def Holds (merged : Merged (OrderedMap κ ν)) (entries : List (κ × ν)) : Prop :=
  merged.conflicts = [] ∧ merged.value.entries = entries

variable {f : κ → ν → ν → Merged ν} {merged : Merged (OrderedMap κ ν)} {entries : List (κ × ν)}
  {k : κ} {v w : ν}

theorem holds_gatherEntry_of_notMem (h : Holds merged entries) (hk : k ∉ entries.map Prod.fst) :
    Holds (gatherEntry f merged k v) (entries ++ [(k, v)]) := by
  obtain ⟨hconflicts, rfl⟩ := h
  have hnone : merged.value.get? k = none := OrderedMap.get?_eq_none_iff.2 hk
  refine ⟨?_, ?_⟩
  · simp [gatherEntry, mapsWith_conflicts, OrderedMap.singleton, metConflicts, hnone, hconflicts]
  · simp [gatherEntry, mapsWith_value, OrderedMap.singleton, metValue, hnone, Merged.clean,
      OrderedMap.entries_insert_of_notMem hk]

theorem holds_gatherEntry_of_last (h : Holds merged (entries ++ [(k, v)]))
    (hclean : (f k v w).conflicts = []) :
    Holds (gatherEntry f merged k w) (entries ++ [(k, (f k v w).value)]) := by
  obtain ⟨hconflicts, hentries⟩ := h
  have hsome : merged.value.get? k = some v := by
    rw [OrderedMap.get?_eq_some_iff, hentries]
    exact List.mem_append_right _ (List.mem_singleton_self _)
  refine ⟨?_, ?_⟩
  · simp [gatherEntry, mapsWith_conflicts, OrderedMap.singleton, metConflicts, hsome, hconflicts,
      hclean]
  · simp [gatherEntry, mapsWith_value, OrderedMap.singleton, metValue, hsome,
      OrderedMap.entries_insert_of_last hentries]

/-- One more overload of a member that has it not yet. -/
theorem member?_gather_next {types : OrderedMap String TypeEntry} {base extension : Member}
    {kind : Overloading} {overloads : List Signature} {s : Signature}
    (hbase : base.body = kind.body overloads) (hextension : extension.body = kind.body [s])
    (hoptional : base.isOptional = extension.isOptional) (hs : s ∉ overloads) :
    member? types .gather base extension =
      some { base with body := kind.body (overloads ++ [s]) } := by
  have hshape : base.hasSameShape extension = false := by
    have hbody : base.body ≠ extension.body := by
      rw [hbase, hextension]
      intro hsame
      have hoverloads : overloads = [s] := by
        cases kind <;> cases hsame <;> rfl
      exact hs (hoverloads ▸ List.mem_singleton_self s)
    simp [Member.hasSameShape, hbody]
  have hnew : appendNew overloads [s] = overloads ++ [s] := by
    simp [appendNew, hs]
  unfold member?
  rw [hshape, hbase, hextension, hoptional]
  cases kind <;> simp [Overloading.body, overloadedMember?, overloads?, hnew, hoptional]

end Merge

/-! ### Members -/

namespace Binding

variable {isQuiet : Bool}

/-- The members of an interface with one more. -/
def gatherMember (c : Context) (owner : String) (merged : Merged (OrderedMap MemberKey Member))
    (m : PlacedMember) : Merged (OrderedMap MemberKey Member) :=
  Merge.gatherEntry (Merge.members .empty .gather owner) merged (member c m).key (member c m)

theorem haveSameParams_self {i j : Interface} (h : j.typeParams = i.typeParams) :
    Merge.haveSameParams i j = true := by
  simp [Merge.haveSameParams, h, Relation.haveSameNames_self]

theorem addMember_eq (c : Context) (i : Interface)
    (merged : Merged (OrderedMap MemberKey Member)) (m : PlacedMember) :
    addMember c ⟨{ i with members := merged.value }, merged.conflicts⟩ m =
      ⟨{ i with members := (gatherMember c i.name merged m).value },
        (gatherMember c i.name merged m).conflicts⟩ := by
  simp only [addMember, Merge.interfaces, Merge.appendNew_nil, haveSameParams_self, if_true,
    List.nil_append]
  rfl

theorem foldl_addMember_eq (c : Context) (i : Interface)
    (merged : Merged (OrderedMap MemberKey Member)) (ms : List PlacedMember) :
    ms.foldl (addMember c) ⟨{ i with members := merged.value }, merged.conflicts⟩ =
      ⟨{ i with members := (ms.foldl (gatherMember c i.name) merged).value },
        (ms.foldl (gatherMember c i.name) merged).conflicts⟩ := by
  induction ms generalizing merged with
  | nil => rfl
  | cons m ms ih => rw [List.foldl_cons, addMember_eq, ih, List.foldl_cons]

section Members

variable {c : Context} {owner : String} {merged : Merged (OrderedMap MemberKey Member)}
  {entries : List (MemberKey × Member)} {key : MemberKey} {m : Member}

/-- A member of a block that is an overload of `m` is `m` with that overload alone. -/
theorem unplaced_overload {kind : Overloading} {p : PlacedMember} {s : Signature}
    (hform : p.form = m.overload kind s)
    (hagrees : m.unplaced = { (m.overload kind s).alone with body := m.body }) :
    (member c p).unplaced = { m.unplaced with body := kind.body [s] } := by
  rw [unplaced_member, hform, hagrees]
  cases kind <;> rfl

/-- The overloads of a member that come behind those that have been gathered. -/
theorem holds_foldl_overloads {kind : Overloading} {first : Member} {overloads rest : List Signature}
    {ms : List PlacedMember} (hfirst : first.unplaced = { m.unplaced with body := kind.body overloads })
    (hagrees : ∀ s ∈ rest, m.unplaced = { (m.overload kind s).alone with body := m.body })
    (hdistinct : (overloads ++ rest).Nodup) (hforms : ms.map (·.form) = rest.map (m.overload kind))
    (hmerged : Merge.Holds merged (entries ++ [(m.key, first)])) :
    ∃ last, Merge.Holds (ms.foldl (gatherMember c owner) merged) (entries ++ [(m.key, last)]) ∧
      last.unplaced = { m.unplaced with body := kind.body (overloads ++ rest) } := by
  -- What has been gathered stays the last entry, so that every further overload meets it.
  induction rest generalizing first overloads merged ms with
  | nil =>
    cases List.map_eq_nil_iff.1 hforms
    exact ⟨first, hmerged, by rw [List.append_nil, hfirst]⟩
  | cons s rest ih =>
    obtain ⟨p, ps, rfl, hp, hps⟩ := List.map_eq_cons_iff.1 hforms
    rw [List.forall_mem_cons] at hagrees
    rw [List.append_cons] at hdistinct ⊢
    have hs : s ∉ overloads := by
      have hleft := (List.nodup_append.1 hdistinct).1
      exact List.disjoint_singleton.1 (List.disjoint_of_nodup_append hleft)
    have hnext := unplaced_overload (c := c) hp hagrees.1
    have hkey : (member c p).key = m.key := (congrArg Member.key hnext :)
    have hbody : first.body = kind.body overloads := (congrArg Member.body hfirst :)
    have hown : (member c p).body = kind.body [s] := (congrArg Member.body hnext :)
    have hoptional : first.isOptional = (member c p).isOptional :=
      ((congrArg Member.isOptional hfirst).trans (congrArg Member.isOptional hnext).symm :)
    have hmembers : Merge.members .empty .gather owner m.key first (member c p) =
        .clean { first with body := kind.body (overloads ++ [s]) } := by
      unfold Merge.members
      rw [Merge.member?_gather_next hbody hown hoptional hs]
    have hstep : Merge.Holds (gatherMember c owner merged p)
        (entries ++ [(m.key, { first with body := kind.body (overloads ++ [s]) })]) := by
      unfold gatherMember
      rw [hkey]
      have hlast := Merge.holds_gatherEntry_of_last (w := member c p)
        (f := Merge.members .empty .gather owner) hmerged (by rw [hmembers]; rfl)
      rwa [hmembers] at hlast
    rw [List.foldl_cons]
    refine ih ?_ hagrees.2 hdistinct hps hstep
    calc ({ first with body := kind.body (overloads ++ [s]) } : Member).unplaced
        = { first.unplaced with body := kind.body (overloads ++ [s]) } := rfl
      _ = { m.unplaced with body := kind.body (overloads ++ [s]) } := by rw [hfirst]

theorem body_cases (m : Member) : (∃ kind overloads, m.body = Overloading.body kind overloads) ∨
    ∃ form, m.forms = [form] ∧ form.alone.body = m.body := by
  unfold Member.forms
  cases hbody : m.body with
  | property type => exact Or.inr ⟨_, rfl, rfl⟩
  | index keyName keyType type => exact Or.inr ⟨_, rfl, rfl⟩
  | method overloads => exact Or.inl ⟨.method, overloads, rfl⟩
  | call overloads => exact Or.inl ⟨.call, overloads, rfl⟩
  | construct overloads => exact Or.inl ⟨.construct, overloads, rfl⟩

/-- The members of a block that a member is printed as are gathered as this member. -/
theorem holds_foldl_forms (hm : m.IsBound isQuiet key) {ms : List PlacedMember}
    (hmerged : Merge.Holds merged entries) (hnew : key ∉ entries.map Prod.fst)
    (hforms : ms.map (·.form) = m.forms) :
    ∃ last, Merge.Holds (ms.foldl (gatherMember c owner) merged) (entries ++ [(key, last)]) ∧
      last.unplaced = m.unplaced := by
  obtain rfl := hm.key
  -- A member with overloads is made by the first of them, all others are gathered into it.
  rcases body_cases m with ⟨kind, overloads, hbody⟩ | ⟨form, hform, hbody⟩
  · have hall := Member.forms_of_body hbody
    have hagrees : ∀ s ∈ overloads, m.unplaced = { (m.overload kind s).alone with body := m.body } :=
      fun s hs ↦ hm.agrees _ (hall ▸ List.mem_map_of_mem hs)
    have hdistinct := hm.distinct kind overloads hbody
    cases overloads with
    | nil => exact absurd hall hm.printed
    | cons s rest =>
      rw [hall] at hforms
      obtain ⟨p, ps, rfl, hp, hps⟩ := List.map_eq_cons_iff.1 hforms
      rw [List.forall_mem_cons] at hagrees
      have hfirst := unplaced_overload (c := c) hp hagrees.1
      have hkey : (member c p).key = m.key := (congrArg Member.key hfirst :)
      have hstep : Merge.Holds (gatherMember c owner merged p) (entries ++ [(m.key, member c p)]) := by
        unfold gatherMember
        rw [hkey]
        exact Merge.holds_gatherEntry_of_notMem hmerged hnew
      obtain ⟨last, hlast, hunplaced⟩ :=
        holds_foldl_overloads hfirst hagrees.2 hdistinct hps hstep
      refine ⟨last, hlast, ?_⟩
      rw [hunplaced, List.singleton_append, ← hbody]
      rfl
  · rw [hform] at hforms
    obtain ⟨p, ps, rfl, hp, hps⟩ := List.map_eq_cons_iff.1 hforms
    cases List.map_eq_nil_iff.1 hps
    have hunplaced : (member c p).unplaced = m.unplaced := by
      rw [unplaced_member, hp, hm.agrees form (hform ▸ List.mem_singleton_self form), ← hbody]
    have hkey : (member c p).key = m.key := (congrArg Member.key hunplaced :)
    refine ⟨member c p, ?_, hunplaced⟩
    rw [List.foldl_cons, List.foldl_nil, gatherMember, hkey]
    exact Merge.holds_gatherEntry_of_notMem hmerged hnew

end Members

/-! ### Statements -/

theorem mem_of_entries {κ ν : Type} [DecidableEq κ] {P : κ → ν → Prop} {m : OrderedMap κ ν}
    (h : ∀ k v, m.get? k = some v → P k v) : ∀ e ∈ m.entries, P e.1 e.2 :=
  fun e he ↦ h e.1 e.2 (OrderedMap.get?_eq_some_iff.2 he)

section Statements

variable {c : Context} {s : Statement} {name : String}

/-- The statement that an interface is printed as declares the interface. -/
theorem single_interface {i : Interface} (hi : i.IsBound isQuiet name) (hform : s.form = i.form) :
    ∃ j, single c s = .clean (ofType (.interface j)) ∧ j.unplaced = i.unplaced := by
  obtain ⟨sname, nameSpan, span, body⟩ := s
  rcases body with ⟨typeParams, heritage, ms⟩ | ⟨typeParams, type⟩ | ⟨kind, type⟩ | signature
  · simp only [Statement.form, Interface.form, StatementForm.interface.injEq] at hform
    obtain ⟨rfl, rfl, rfl, hforms⟩ := hform
    rw [OrderedMap.values, List.flatMap_map] at hforms
    obtain ⟨bound, ⟨hconflicts, hentries⟩, hsame⟩ :
        ∃ bound, Merge.Holds (ms.foldl (gatherMember c i.name) (.clean .empty)) bound ∧
          bound.map (fun e ↦ (e.1, e.2.unplaced)) =
            i.members.entries.map fun e ↦ (e.1, e.2.unplaced) :=
      exists_foldl_entries (H := Merge.Holds)
        (fun e he _ _ _ hmerged ↦ holds_foldl_forms (mem_of_entries hi.members e he) hmerged)
        ⟨rfl, rfl⟩ i.members.nodup hforms
    have hfold : ms.foldl (addMember c)
          (.clean ⟨i.name, i.typeParams, i.heritage, .empty, c.origin span⟩) =
        ⟨⟨i.name, i.typeParams, i.heritage,
          (ms.foldl (gatherMember c i.name) (.clean .empty)).value, c.origin span⟩, []⟩ :=
      (foldl_addMember_eq c ⟨i.name, i.typeParams, i.heritage, .empty, c.origin span⟩
        (.clean .empty) ms).trans (by rw [hconflicts])
    refine ⟨⟨i.name, i.typeParams, i.heritage,
      (ms.foldl (gatherMember c i.name) (.clean .empty)).value, c.origin span⟩, ?_, ?_⟩
    · unfold single
      dsimp only
      rw [hfold]
      rfl
    · have hmembers : (ms.foldl (gatherMember c i.name) (.clean .empty)).value.mapValues
          Member.unplaced = i.members.mapValues Member.unplaced := by
        refine OrderedMap.ext_entries (Eq.trans ?_ hsame)
        exact congrArg (List.map fun e ↦ (e.1, e.2.unplaced)) hentries
      unfold Interface.unplaced
      rw [hmembers]
  all_goals cases hform

theorem single_typeAlias {a : TypeAlias} (hform : s.form = .typeAlias a.name a.typeParams a.type) :
    ∃ origin, single c s = .clean (ofType (.typeAlias { a with origin })) := by
  obtain ⟨sname, nameSpan, span, body⟩ := s
  rcases body with ⟨typeParams, heritage, ms⟩ | ⟨typeParams, type⟩ | ⟨kind, type⟩ | signature
  all_goals cases hform
  exact ⟨c.origin span, rfl⟩

theorem single_variable {v : Variable} (hform : s.form = .var v.name v.kind v.type) :
    ∃ origin, single c s = .clean (ofValue (.variable { v with origin })) := by
  obtain ⟨sname, nameSpan, span, body⟩ := s
  rcases body with ⟨typeParams, heritage, ms⟩ | ⟨typeParams, type⟩ | ⟨kind, type⟩ | signature
  all_goals cases hform
  exact ⟨c.origin span, rfl⟩

theorem single_function {signature : Signature} (hform : s.form = .function name signature) :
    ∃ origin, single c s = .clean (ofValue (.function ⟨name, [signature], origin⟩)) := by
  obtain ⟨sname, nameSpan, span, body⟩ := s
  rcases body with ⟨typeParams, heritage, ms⟩ | ⟨typeParams, type⟩ | ⟨kind, type⟩ | signature
  all_goals cases hform
  exact ⟨c.origin span, rfl⟩

theorem single_typeEntry {entry : TypeEntry} (hentry : entry.IsBound isQuiet name)
    (hform : s.form = entry.form) :
    ∃ e, single c s = .clean (ofType e) ∧ e.name = name ∧ e.unplaced = entry.unplaced := by
  cases entry with
  | interface i =>
    obtain ⟨j, hsingle, hunplaced⟩ := single_interface (c := c) hentry hform
    refine ⟨.interface j, hsingle, ?_, congrArg TypeEntry.interface hunplaced⟩
    exact (congrArg Interface.name hunplaced :).trans hentry.name
  | typeAlias a =>
    obtain ⟨origin, hsingle⟩ := single_typeAlias (c := c) hform
    exact ⟨.typeAlias { a with origin }, hsingle, hentry.1, rfl⟩

/-! ### Namespaces -/

/-- Declarations without conflicts that hold these entries. -/
structure HoldsBoth (merged : Merged Declarations) (types : List (String × TypeEntry))
    (values : List (String × ValueEntry)) : Prop where
  conflicts : merged.conflicts = []
  types : merged.value.types.entries = types
  values : merged.value.values.entries = values

variable {merged : Merged Declarations} {types : List (String × TypeEntry)}
  {values : List (String × ValueEntry)}

theorem HoldsBoth.addType (h : HoldsBoth merged types values) {e : TypeEntry}
    (hsingle : single c s = .clean (ofType e)) (hnew : e.name ∉ types.map Prod.fst) :
    HoldsBoth (addStatement c merged s) (types ++ [(e.name, e)]) values := by
  obtain ⟨hconflicts, htypes, hvalues⟩ := h
  have hgather : ∀ f, Merge.Holds (Merge.gatherEntry f (.clean merged.value.types) e.name e)
      (types ++ [(e.name, e)]) := fun f ↦ Merge.holds_gatherEntry_of_notMem ⟨rfl, htypes⟩ hnew
  unfold addStatement
  rw [hsingle]
  refine ⟨?_, (hgather _).2, hvalues⟩
  have hnext := (hgather (Merge.typeEntries
    (Merge.aliases merged.value.types (.singleton e.name e)) .gather)).1
  simp only [Merge.gatherEntry, Merged.clean, List.nil_append] at hnext
  simp [Merge.declarations, ofType, Merged.clean, hconflicts, hnext]

/-- What an added value comes to in its namespace. -/
theorem HoldsBoth.addValue (h : HoldsBoth merged types values) {e : ValueEntry}
    {values' : List (String × ValueEntry)} (hsingle : single c s = .clean (ofValue e))
    (hgather : ∀ table, Merge.Holds (Merge.gatherEntry (Merge.valueEntries table .gather)
      (.clean merged.value.values) e.name e) values') :
    HoldsBoth (addStatement c merged s) types values' := by
  obtain ⟨hconflicts, htypes, hvalues⟩ := h
  unfold addStatement
  rw [hsingle]
  refine ⟨?_, htypes, (hgather _).2⟩
  have hnext := (hgather (Merge.aliases merged.value.types .empty)).1
  simp only [Merge.gatherEntry, Merged.clean, List.nil_append] at hnext
  simp [Merge.declarations, ofValue, Merged.clean, hconflicts, hnext]

theorem HoldsBoth.addValue_of_notMem (h : HoldsBoth merged types values) {e : ValueEntry}
    (hsingle : single c s = .clean (ofValue e)) (hnew : e.name ∉ values.map Prod.fst) :
    HoldsBoth (addStatement c merged s) types (values ++ [(e.name, e)]) :=
  h.addValue hsingle fun _ ↦ Merge.holds_gatherEntry_of_notMem ⟨rfl, h.values⟩ hnew

/-- The overloads of a function that come behind those that have been gathered. -/
theorem HoldsBoth.addOverloads {f : Function} {overloads : List Signature} {ss : List Statement}
    (h : HoldsBoth merged types (values ++ [(f.name, .function f)]))
    (hdistinct : (f.overloads ++ overloads).Nodup)
    (hforms : ss.map Statement.form = overloads.map (.function f.name)) :
    HoldsBoth (ss.foldl (addStatement c) merged) types
      (values ++ [(f.name, .function { f with overloads := f.overloads ++ overloads })]) := by
  induction overloads generalizing f merged ss with
  | nil =>
    cases List.map_eq_nil_iff.1 hforms
    rwa [List.append_nil]
  | cons signature overloads ih =>
    obtain ⟨s, ss, rfl, hs, hss⟩ := List.map_eq_cons_iff.1 hforms
    obtain ⟨origin, hsingle⟩ := single_function (c := c) hs
    rw [List.append_cons] at hdistinct
    have hnew : signature ∉ f.overloads := by
      have hleft := (List.nodup_append.1 hdistinct).1
      exact List.disjoint_singleton.1 (List.disjoint_of_nodup_append hleft)
    have happend : Merge.appendNew f.overloads [signature] = f.overloads ++ [signature] := by
      simp [Merge.appendNew, hnew]
    have hstep : HoldsBoth (addStatement c merged s) types (values ++
        [(f.name, .function { f with overloads := f.overloads ++ [signature] })]) := by
      refine h.addValue hsingle fun table ↦ ?_
      have hlast := Merge.holds_gatherEntry_of_last (f := Merge.valueEntries table .gather)
        (w := .function ⟨f.name, [signature], origin⟩)
        (⟨rfl, h.values⟩ : Merge.Holds (.clean merged.value.values) _) rfl
      simpa [Merge.valueEntries, Merge.functionEntries, Merge.overloads?, Merged.clean, happend,
        ValueEntry.name] using hlast
    have hrest := ih (f := { f with overloads := f.overloads ++ [signature] }) hstep hdistinct hss
    rwa [List.append_assoc, List.singleton_append] at hrest

/-- The statements that a value is printed as declare the value. -/
theorem HoldsBoth.addValueForms (h : HoldsBoth merged types values) {entry : ValueEntry}
    (hentry : entry.IsBound isQuiet name) (hnew : name ∉ values.map Prod.fst) {ss : List Statement}
    (hforms : ss.map Statement.form = entry.forms) :
    ∃ e, HoldsBoth (ss.foldl (addStatement c) merged) types (values ++ [(name, e)]) ∧
      e.unplaced = entry.unplaced := by
  obtain rfl := hentry.name
  rcases entry with v | f
  · obtain ⟨s, ss, rfl, hs, hss⟩ := List.map_eq_cons_iff.1 hforms
    cases List.map_eq_nil_iff.1 hss
    obtain ⟨origin, hsingle⟩ := single_variable (c := c) hs
    exact ⟨.variable { v with origin }, h.addValue_of_notMem hsingle hnew, rfl⟩
  · obtain ⟨fname, overloads, place⟩ := f
    cases overloads with
    | nil => exact absurd rfl hentry.printed
    | cons signature overloads =>
      obtain ⟨s, ss, rfl, hs, hss⟩ := List.map_eq_cons_iff.1 hforms
      obtain ⟨origin, hsingle⟩ := single_function (c := c) hs
      have hfirst := h.addValue_of_notMem hsingle hnew
      have hall := hfirst.addOverloads (c := c) (hentry.distinct _ rfl) hss
      exact ⟨_, hall, rfl⟩

theorem HoldsBoth.addTypeForm (h : HoldsBoth merged types values) {entry : TypeEntry}
    (hentry : entry.IsBound isQuiet name) (hnew : name ∉ types.map Prod.fst) {ss : List Statement}
    (hforms : ss.map Statement.form = [entry.form]) :
    ∃ e, HoldsBoth (ss.foldl (addStatement c) merged) (types ++ [(name, e)]) values ∧
      e.unplaced = entry.unplaced := by
  obtain ⟨s, ss, rfl, hs, hss⟩ := List.map_eq_cons_iff.1 hforms
  cases List.map_eq_nil_iff.1 hss
  obtain ⟨e, hsingle, rfl, hunplaced⟩ := single_typeEntry (c := c) hentry hs
  exact ⟨e, h.addType hsingle hnew, hunplaced⟩

/-- The statements that declarations are printed as declare them again, without a conflict. -/
theorem statements_forms {d : Declarations} (hd : d.IsBound isQuiet) {ss : List Statement}
    (hforms : ss.map Statement.form = d.forms) :
    (statements c ss).conflicts = [] ∧ (statements c ss).value.unplaced = d.unplaced := by
  unfold Declarations.forms at hforms
  obtain ⟨ps, qs, rfl, hps, hqs⟩ := List.map_eq_append_iff.1 hforms
  rw [OrderedMap.values, List.map_map, List.map_eq_flatMap (l := d.types.entries)] at hps
  rw [OrderedMap.values, List.flatMap_map] at hqs
  have hstart : HoldsBoth (.clean .empty) [] [] := ⟨rfl, rfl, rfl⟩
  obtain ⟨types, htypes, hsameTypes⟩ :=
    exists_foldl_entries (H := fun merged types ↦ HoldsBoth merged types [])
      (F := fun e ↦ [TypeEntry.form e])
      (fun e he _ _ _ h hnew ↦ h.addTypeForm (c := c) (mem_of_entries hd.types e he) hnew)
      hstart d.types.nodup hps
  obtain ⟨values, hvalues, hsameValues⟩ :=
    exists_foldl_entries (H := fun merged values ↦ HoldsBoth merged types values)
      (fun e he _ _ _ h hnew ↦ h.addValueForms (c := c) (mem_of_entries hd.values e he) hnew)
      htypes d.values.nodup hqs
  -- The types are bound before the values, and neither touches the namespace of the other.
  rw [← List.foldl_append] at hvalues
  refine ⟨hvalues.conflicts, ?_⟩
  have htypeEntries : (statements c (ps ++ qs)).value.types.mapValues TypeEntry.unplaced =
      d.types.mapValues TypeEntry.unplaced := by
    refine OrderedMap.ext_entries (Eq.trans ?_ hsameTypes)
    exact congrArg (List.map fun e ↦ (e.1, e.2.unplaced)) hvalues.types
  have hvalueEntries : (statements c (ps ++ qs)).value.values.mapValues ValueEntry.unplaced =
      d.values.mapValues ValueEntry.unplaced := by
    refine OrderedMap.ext_entries (Eq.trans ?_ hsameValues)
    exact congrArg (List.map fun e ↦ (e.1, e.2.unplaced)) hvalues.values
  unfold Declarations.unplaced
  rw [htypeEntries, hvalueEntries]

end Statements

end Binding
end TypeSurface
