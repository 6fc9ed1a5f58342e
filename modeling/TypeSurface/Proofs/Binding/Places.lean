import TypeSurface.Proofs.Binding.Bound
import TypeSurface.Proofs.Binding.Overloads
import TypeSurface.Proofs.Syntax.Statement

/-!
# Two bindings side by side

Two files with the same statements are bound alike wherever the statements stand: what comes
together in both is the same but for its place, and it clashes in both as long as the aliases of
both judge its value types alike.
-/

namespace TypeSurface
namespace OrderedMap

theorem keys_mapValues {κ ν μ : Type} (view : ν → μ) (m : OrderedMap κ ν) :
    (m.mapValues view).keys = m.keys := by
  simp only [keys, mapValues, List.map_map]
  rfl

variable {κ ν μ : Type} [DecidableEq κ] {p : κ → Bool} {view : ν → μ} {m m' : OrderedMap κ ν}

theorem get?_mapValues (view : ν → μ) (m : OrderedMap κ ν) (k : κ) :
    (m.mapValues view).get? k = (m.get? k).map view := by
  simp only [get?, mapValues, List.find?_map, Option.map_map]
  rfl

/-- A map is given by its keys, in their order, and what it holds under them. -/
theorem ext_get? (hkeys : m.keys = m'.keys) (hget : ∀ k, m.get? k = m'.get? k) : m = m' := by
  refine ext_entries ?_
  have hentries (n : OrderedMap κ ν) :
      n.entries.map some = n.keys.map fun k ↦ (n.get? k).map (k, ·) := by
    rw [keys, List.map_map]
    refine List.map_congr_left fun e he ↦ ?_
    rw [Function.comp, get?_eq_some_iff.2 (show (e.1, e.2) ∈ n.entries from he)]
    rfl
  have hsame : m.entries.map some = m'.entries.map some := by
    rw [hentries, hentries, hkeys]
    exact List.map_congr_left fun k _ ↦ by rw [hget]
  exact List.map_injective_iff.2 (fun _ _ ↦ Option.some.inj) hsame

/-- Whether two maps look the same under the keys that `p` holds of, in one order. -/
structure Agree (p : κ → Bool) (view : ν → μ) (m m' : OrderedMap κ ν) : Prop where
  keys : m.keys.filter p = m'.keys.filter p
  get? : ∀ k, p k = true → (m.get? k).map view = (m'.get? k).map view

theorem agree_iff : Agree (fun _ ↦ true) view m m' ↔ m.mapValues view = m'.mapValues view := by
  constructor
  · intro h
    refine ext_get? ?_ fun k ↦ ?_
    · simpa [keys_mapValues] using h.keys
    · rw [get?_mapValues, get?_mapValues]
      exact h.get? k rfl
  · intro h
    refine ⟨?_, fun k _ ↦ ?_⟩
    · rw [← keys_mapValues view m, h, keys_mapValues]
    · rw [← get?_mapValues, h, get?_mapValues]

theorem Agree.refl (p : κ → Bool) (view : ν → μ) (m : OrderedMap κ ν) : Agree p view m m :=
  ⟨rfl, fun _ _ ↦ rfl⟩

theorem Agree.symm (h : Agree p view m m') : Agree p view m' m :=
  ⟨h.keys.symm, fun k hk ↦ (h.get? k hk).symm⟩

theorem Agree.get?_eq_none (h : Agree p view m m') {k : κ} (hk : p k = true)
    (hm : m.get? k = none) : m'.get? k = none := by
  have hget := h.get? k hk
  rw [hm] at hget
  exact Option.map_eq_none_iff.1 hget.symm

theorem Agree.get?_eq_some (h : Agree p view m m') {k : κ} {v : ν} (hk : p k = true)
    (hm : m.get? k = some v) : ∃ v', m'.get? k = some v' ∧ view v = view v' := by
  have hget := h.get? k hk
  rw [hm] at hget
  obtain ⟨v', hv', hview⟩ := Option.map_eq_some_iff.1 hget.symm
  exact ⟨v', hv', hview.symm⟩

theorem Agree.mem_keys_iff (h : Agree p view m m') {k : κ} (hk : p k = true) :
    k ∈ m.keys ↔ k ∈ m'.keys := by
  have hfilter : k ∈ m.keys.filter p ↔ k ∈ m'.keys.filter p := by rw [h.keys]
  simpa [List.mem_filter, hk] using hfilter

theorem agree_singleton {j : κ} {v v' : ν} (h : view v = view v') :
    Agree p view (singleton j v) (singleton j v') := by
  refine ⟨rfl, fun k _ ↦ ?_⟩
  rw [get?_singleton, get?_singleton]
  split
  · exact congrArg some h
  · rfl

end OrderedMap

/-- Whether of two merges one is clean just if the other one is, on a condition, and their values
are related if both are. -/
structure Merged.Tracks {α : Type} (Q : Prop) (A : α → α → Prop) (m m' : Merged α) : Prop where
  clean : Q → (m.conflicts = [] ↔ m'.conflicts = [])
  value : m.conflicts = [] → m'.conflicts = [] → A m.value m'.value

theorem Merged.Tracks.bind {α β : Type} {Q : Prop} {A : α → α → Prop} {B : β → β → Prop}
    {m m' : Merged α} {n n' : Merged β} (h : m.Tracks Q A m')
    (hnext : m.conflicts = [] → m'.conflicts = [] → A m.value m'.value → n.Tracks Q B n') :
    Merged.Tracks Q B ⟨n.value, m.conflicts ++ n.conflicts⟩
      ⟨n'.value, m'.conflicts ++ n'.conflicts⟩ where
  clean hQ := by
    have hclean := h.clean hQ
    rw [List.append_eq_nil_iff, List.append_eq_nil_iff, hclean]
    refine and_congr_right fun hm' ↦ ?_
    have hm := hclean.2 hm'
    exact (hnext hm hm' (h.value hm hm')).clean hQ
  value hn hn' := by
    obtain ⟨hm, hn⟩ := List.append_eq_nil_iff.1 hn
    obtain ⟨hm', hn'⟩ := List.append_eq_nil_iff.1 hn'
    exact (hnext hm hm' (h.value hm hm')).value hn hn'

namespace Merge

section Maps

variable {κ ν μ : Type} [DecidableEq κ] {p : κ → Bool} {view : ν → μ} {f f' : κ → ν → ν → Merged ν}
  {base base' extension extension' : OrderedMap κ ν} {Q : Prop}

theorem conflicts_mapsWith_iff : (mapsWith f base extension).conflicts = [] ↔
    ∀ k b e, base.get? k = some b → extension.get? k = some e → (f k b e).conflicts = [] := by
  constructor
  · exact fun h k b e ↦ conflicts_of_mapsWith h
  · intro h
    rw [mapsWith_conflicts, List.flatMap_eq_nil_iff]
    rintro ⟨k, e⟩ he
    unfold metConflicts
    split
    · rfl
    · next b hb => exact h k b e hb (OrderedMap.get?_eq_some_iff.2 he)

theorem filter_keys_mapsWith (f : κ → ν → ν → Merged ν) (base extension : OrderedMap κ ν) :
    (mapsWith f base extension).value.keys.filter p =
      base.keys.filter p ++ (extension.keys.filter p).filter (· ∉ base.keys) := by
  have hjoins : Joins (fun k b e m ↦ (f k b e).value = m) base extension
      (mapsWith f base extension).value := mapsWith_joins (fun _ _ _ ↦ rfl) base extension
  rw [hjoins.keys, List.filter_append, List.filter_filter, List.filter_filter]
  simp only [Bool.and_comm]

/-- Maps that look the same still do when what is brought to them looks the same. -/
theorem tracks_mapsWith (hbase : OrderedMap.Agree p view base base')
    (hextension : OrderedMap.Agree p view extension extension')
    (hkeys : ∀ k ∈ extension.keys, p k = true) (hkeys' : ∀ k ∈ extension'.keys, p k = true)
    (hf : ∀ k b b' e e', base.get? k = some b → base'.get? k = some b' →
      extension.get? k = some e → extension'.get? k = some e' → view b = view b' →
        view e = view e' → (f k b e).Tracks Q (fun v v' ↦ view v = view v') (f' k b' e')) :
    (mapsWith f base extension).Tracks Q (OrderedMap.Agree p view)
      (mapsWith f' base' extension') where
  clean hQ := by
    rw [conflicts_mapsWith_iff, conflicts_mapsWith_iff]
    constructor
    · intro h k b' e' hb' he'
      have hk := hkeys' k (OrderedMap.mem_keys_iff.2 ⟨e', he'⟩)
      obtain ⟨b, hb, hbview⟩ := hbase.symm.get?_eq_some hk hb'
      obtain ⟨e, he, heview⟩ := hextension.symm.get?_eq_some hk he'
      exact ((hf k b b' e e' hb hb' he he' hbview.symm heview.symm).clean hQ).1 (h k b e hb he)
    · intro h k b e hb he
      have hk := hkeys k (OrderedMap.mem_keys_iff.2 ⟨e, he⟩)
      obtain ⟨b', hb', hbview⟩ := hbase.get?_eq_some hk hb
      obtain ⟨e', he', heview⟩ := hextension.get?_eq_some hk he
      exact ((hf k b b' e e' hb hb' he he' hbview heview).clean hQ).2 (h k b' e' hb' he')
  value h h' := by
    refine ⟨?_, fun k hk ↦ ?_⟩
    · rw [filter_keys_mapsWith, filter_keys_mapsWith, hbase.keys, hextension.keys]
      congr 1
      refine List.filter_congr fun k hmem ↦ ?_
      rw [decide_eq_decide, hbase.mem_keys_iff (List.mem_filter.1 hmem).2]
    · cases he : extension.get? k with
      | none =>
        rw [get?_mapsWith_of_none he, get?_mapsWith_of_none (hextension.get?_eq_none hk he)]
        exact hbase.get? k hk
      | some e =>
        obtain ⟨e', he', heview⟩ := hextension.get?_eq_some hk he
        rw [get?_mapsWith_of_some he, get?_mapsWith_of_some he', Option.map_some, Option.map_some]
        cases hb : base.get? k with
        | none =>
          have hb' := hbase.get?_eq_none hk hb
          simpa [metValue, hb, hb', Merged.clean] using heview
        | some b =>
          obtain ⟨b', hb', hbview⟩ := hbase.get?_eq_some hk hb
          have hmet := (hf k b b' e e' hb hb' he he' hbview heview).value
            (conflicts_of_mapsWith h hb he) (conflicts_of_mapsWith h' hb' he')
          simpa [metValue, hb, hb'] using hmet

end Maps

/-! ### Members -/

/-- What two members of one body or of one file make if they go together. -/
def gathered (base extension : Member) : Member :=
  if base.hasSameShape extension then extension
  else
    match base.body, extension.body with
    | .method b, .method e => { base with body := .method (appendNew b e) }
    | .call b, .call e => { base with body := .call (appendNew b e) }
    | .construct b, .construct e => { base with body := .construct (appendNew b e) }
    | _, _ => extension

/-- Whether two tables judge alike of the types that two members hold. -/
def SameVerdict (types types' : OrderedMap String TypeEntry) (base extension : Member) : Prop :=
  ∀ t u, base.body.valueType? = some t → extension.body.valueType? = some u →
    Relation.isAssignable types u t = Relation.isAssignable types' u t

section Members

variable {types types' : OrderedMap String TypeEntry} {base base' extension extension' m : Member}

theorem eq_gathered_of_member? (h : member? types .gather base extension = some m) :
    m = gathered base extension := by
  unfold member? at h
  unfold gathered
  split at h
  · next hshape =>
    rw [if_pos hshape]
    exact (Option.some.inj h).symm
  next hshape =>
  rw [if_neg hshape]
  split at h
  · cases h
  split at h
  · next hb he =>
    rw [hb, he]
    exact (valueMember?_eq_some h).1
  · next hb he =>
    rw [hb, he]
    exact (valueMember?_eq_some h).1
  · next hb he =>
    rw [hb, he]
    exact (Option.some.inj h).symm
  · next hb he =>
    rw [hb, he]
    exact (Option.some.inj h).symm
  · next hb he =>
    rw [hb, he]
    exact (Option.some.inj h).symm
  · cases h

theorem gathered_unplaced (base extension : Member) :
    (gathered base.unplaced extension.unplaced).unplaced = (gathered base extension).unplaced := by
  have hshape : base.unplaced.hasSameShape extension.unplaced = base.hasSameShape extension := rfl
  unfold gathered
  rw [hshape]
  split
  · rfl
  · change (match base.body, extension.body with
      | .method b, .method e => { base.unplaced with body := .method (appendNew b e) }
      | .call b, .call e => { base.unplaced with body := .call (appendNew b e) }
      | .construct b, .construct e => { base.unplaced with body := .construct (appendNew b e) }
      | _, _ => extension.unplaced : Member).unplaced = _
    split <;> rfl

theorem isSome_valueMember? (types : OrderedMap String TypeEntry) (base extension : Member)
    (b e : TypeExpr) : (valueMember? types base extension b e).isSome =
      (!(base.isReadonly && !extension.isReadonly) && Relation.isAssignable types e b) := by
  unfold valueMember?
  cases base.isReadonly && !extension.isReadonly <;>
    cases Relation.isAssignable types e b <;> rfl

/-- Whether two members go together depends on their places in nothing, and on the aliases only as
far as their value types are concerned. -/
theorem isSome_member?_congr (hb : base.unplaced = base'.unplaced)
    (he : extension.unplaced = extension'.unplaced)
    (hvalues : SameVerdict types types' base extension) :
    (member? types .gather base extension).isSome =
      (member? types' .gather base' extension').isSome := by
  obtain ⟨key, name, body, isReadonly, isOptional, origin⟩ := base
  obtain ⟨key', name', body', isReadonly', isOptional', origin'⟩ := base'
  obtain ⟨ekey, ename, ebody, eisReadonly, eisOptional, eorigin⟩ := extension
  obtain ⟨ekey', ename', ebody', eisReadonly', eisOptional', eorigin'⟩ := extension'
  simp only [Member.unplaced, Member.mk.injEq, and_true] at hb he
  obtain ⟨rfl, rfl, rfl, rfl, rfl⟩ := hb
  obtain ⟨rfl, rfl, rfl, rfl, rfl⟩ := he
  simp only [member?, Member.hasSameShape]
  split
  · rfl
  split
  · rfl
  cases body with
  | property t =>
    cases ebody with
    | property u => simp only [isSome_valueMember?, hvalues t u rfl rfl]
    | _ => rfl
  | index keyName keyType t =>
    cases ebody with
    | index ekeyName ekeyType u => simp only [isSome_valueMember?, hvalues t u rfl rfl]
    | _ => rfl
  | method overloads => cases ebody <;> rfl
  | call overloads => cases ebody <;> rfl
  | construct overloads => cases ebody <;> rfl

theorem conflicts_members_iff {owner : String} {key : MemberKey} :
    (members types .gather owner key base extension).conflicts = [] ↔
      (member? types .gather base extension).isSome = true := by
  unfold members
  cases member? types .gather base extension <;> simp [Merged.clean]

theorem members_value {owner : String} {key : MemberKey}
    (h : (members types .gather owner key base extension).conflicts = []) :
    (members types .gather owner key base extension).value = gathered base extension := by
  obtain ⟨m, hm⟩ := Option.isSome_iff_exists.1 (conflicts_members_iff.1 h)
  unfold members
  rw [hm]
  exact eq_gathered_of_member? hm

theorem tracks_members {Q : Prop} {owner owner' : String} {key : MemberKey}
    (hb : base.unplaced = base'.unplaced) (he : extension.unplaced = extension'.unplaced)
    (hvalues : Q → SameVerdict types types' base extension) :
    (members types .gather owner key base extension).Tracks Q
      (fun m m' ↦ m.unplaced = m'.unplaced)
      (members types' .gather owner' key base' extension') where
  clean hQ := by
    rw [conflicts_members_iff, conflicts_members_iff, isSome_member?_congr hb he (hvalues hQ)]
  value h h' := by
    rw [members_value h, members_value h', ← gathered_unplaced, hb, he, gathered_unplaced]

end Members

end Merge

/-! ### Interfaces and declarations -/

theorem Interface.unplaced_eq_iff {i j : Interface} : i.unplaced = j.unplaced ↔
    i.name = j.name ∧ i.typeParams = j.typeParams ∧ i.heritage = j.heritage ∧
      OrderedMap.Agree (fun _ ↦ true) Member.unplaced i.members j.members := by
  rw [OrderedMap.agree_iff]
  simp only [unplaced, Interface.mk.injEq, and_true]

namespace TypeEntry

variable {entry : TypeEntry}

theorem exists_interface {i : Interface} (h : (interface i).unplaced = entry.unplaced) :
    ∃ j, entry = interface j ∧ i.unplaced = j.unplaced := by
  cases entry with
  | interface j => exact ⟨j, rfl, TypeEntry.interface.inj h⟩
  | typeAlias b => cases h

theorem exists_typeAlias {a : TypeAlias} (h : (typeAlias a).unplaced = entry.unplaced) :
    ∃ b, entry = typeAlias b ∧ a.name = b.name ∧ a.typeParams = b.typeParams ∧ a.type = b.type := by
  cases entry with
  | interface j => cases h
  | typeAlias b => exact ⟨b, rfl, by simpa [unplaced] using h⟩

/-- The type parameters and the body of an alias. -/
def aliased? : TypeEntry → Option (List TypeParam × TypeExpr)
  | interface _ => none
  | typeAlias a => some (a.typeParams, a.type)

/-- Entries that look the same are the same alias or none. -/
theorem bind_aliased?_congr {o o' : Option TypeEntry} (h : o.map unplaced = o'.map unplaced) :
    o.bind aliased? = o'.bind aliased? := by
  have hview (o : Option TypeEntry) : (o.map unplaced).bind aliased? = o.bind aliased? := by
    rcases o with _ | i | a <;> rfl
  rw [← hview o, h, hview]

end TypeEntry

namespace ValueEntry

variable {entry : ValueEntry}

theorem exists_variable {v : Variable} (h : (ValueEntry.variable v).unplaced = entry.unplaced) :
    ∃ w, entry = .variable w ∧ v.name = w.name ∧ v.kind = w.kind ∧ v.type = w.type := by
  rcases entry with w | g
  · exact ⟨w, rfl, by simpa [unplaced] using h⟩
  · cases h

theorem exists_function {f : Function} (h : (ValueEntry.function f).unplaced = entry.unplaced) :
    ∃ g, entry = .function g ∧ f.name = g.name ∧ f.overloads = g.overloads := by
  rcases entry with w | g
  · cases h
  · exact ⟨g, rfl, by simpa [unplaced] using h⟩

end ValueEntry

/-- Whether declarations are the same but for their places, and for the type of a name. -/
structure Declarations.AgreeOff (name : String) (d d' : Declarations) : Prop where
  types : OrderedMap.Agree (fun n ↦ decide (n ≠ name)) TypeEntry.unplaced d.types d'.types
  values : OrderedMap.Agree (fun _ ↦ true) ValueEntry.unplaced d.values d'.values

theorem Declarations.AgreeOff.symm {name : String} {d d' : Declarations} (h : d.AgreeOff name d') :
    d'.AgreeOff name d :=
  ⟨h.types.symm, h.values.symm⟩

theorem Merged.tracks_of_conflict {α : Type} {Q : Prop} {A : α → α → Prop} {a a' : α}
    {d d' : Diagnostic} : Merged.Tracks Q A ⟨a, [d]⟩ ⟨a', [d']⟩ :=
  ⟨fun _ ↦ iff_of_false (List.cons_ne_nil _ _) (List.cons_ne_nil _ _),
    fun h ↦ absurd h (List.cons_ne_nil _ _)⟩

/-- Where the values are related, it is enough that the conflicts come and go together. -/
theorem Merged.tracks_of_iff {α : Type} {Q : Prop} {A : α → α → Prop} {m m' : Merged α}
    (hvalue : A m.value m'.value) (hclean : m.conflicts = [] ↔ m'.conflicts = []) :
    m.Tracks Q A m' :=
  ⟨fun _ ↦ hclean, fun _ _ ↦ hvalue⟩

namespace Merge

variable {types types' : OrderedMap String TypeEntry} {Q : Prop}

/-- Whether two tables judge alike wherever members of two interfaces meet. -/
def SameVerdicts (types types' : OrderedMap String TypeEntry) (base extension : Interface) : Prop :=
  ∀ k m n, base.members.get? k = some m → extension.members.get? k = some n →
    SameVerdict types types' m n

theorem tracks_interfaces {base base' extension extension' : Interface}
    (hb : base.unplaced = base'.unplaced) (he : extension.unplaced = extension'.unplaced)
    (hverdicts : Q → SameVerdicts types types' base extension) :
    (interfaces types .gather base extension).Tracks Q (fun i j ↦ i.unplaced = j.unplaced)
      (interfaces types' .gather base' extension') := by
  obtain ⟨hname, hparams, hheritage, hmembers⟩ := Interface.unplaced_eq_iff.1 hb
  obtain ⟨-, heparams, heheritage, hemembers⟩ := Interface.unplaced_eq_iff.1 he
  have hsame : haveSameParams base extension = haveSameParams base' extension' := by
    rw [haveSameParams, haveSameParams, hparams, heparams]
  have hmet : (mapsWith (members types .gather base.name) base.members extension.members).Tracks Q
      (OrderedMap.Agree (fun _ ↦ true) Member.unplaced)
      (mapsWith (members types' .gather base'.name) base'.members extension'.members) :=
    tracks_mapsWith hmembers hemembers (fun _ _ ↦ rfl) (fun _ _ ↦ rfl)
      fun k b b' e e' hb _ he _ hbview heview ↦
        tracks_members hbview heview fun hQ ↦ hverdicts hQ k b e hb he
  have hconflicts (t : OrderedMap String TypeEntry) (b e : Interface) :
      (interfaces t .gather b e).conflicts = [] ↔ haveSameParams b e = true ∧
        (mapsWith (members t .gather b.name) b.members e.members).conflicts = [] := by
    unfold interfaces
    cases haveSameParams b e <;> simp
  constructor
  · intro hQ
    rw [hconflicts, hconflicts, hsame, hmet.clean hQ]
  · intro h h'
    rw [Interface.unplaced_eq_iff]
    refine ⟨hname, hparams, ?_, ?_⟩
    · exact congrArg₂ appendNew hheritage heheritage
    · exact hmet.value ((hconflicts ..).1 h).2 ((hconflicts ..).1 h').2

theorem tracks_typeEntries {name : String} {base base' extension extension' : TypeEntry}
    (hb : base.unplaced = base'.unplaced) (he : extension.unplaced = extension'.unplaced)
    (hverdicts : Q → ∀ i j, base = .interface i → extension = .interface j →
      SameVerdicts types types' i j) :
    (typeEntries types .gather name base extension).Tracks Q (fun v w ↦ v.unplaced = w.unplaced)
      (typeEntries types' .gather name base' extension') := by
  cases base with
  | interface b =>
    obtain ⟨b', rfl, hbase⟩ := TypeEntry.exists_interface hb
    cases extension with
    | interface e =>
      obtain ⟨e', rfl, hextension⟩ := TypeEntry.exists_interface he
      have hmet := tracks_interfaces hbase hextension fun hQ ↦ hverdicts hQ b e rfl rfl
      exact ⟨hmet.clean, fun h h' ↦ congrArg TypeEntry.interface (hmet.value h h')⟩
    | typeAlias e =>
      obtain ⟨e', rfl, -⟩ := TypeEntry.exists_typeAlias he
      exact Merged.tracks_of_conflict
  | typeAlias b =>
    obtain ⟨b', rfl, -, hparams, htype⟩ := TypeEntry.exists_typeAlias hb
    cases extension with
    | interface e =>
      obtain ⟨e', rfl, -⟩ := TypeEntry.exists_interface he
      exact Merged.tracks_of_conflict
    | typeAlias e =>
      obtain ⟨e', rfl, -, heparams, hetype⟩ := TypeEntry.exists_typeAlias he
      refine Merged.tracks_of_iff hb ?_
      simp only [typeEntries, hparams, htype, heparams, hetype]
      split <;> simp

theorem tracks_valueEntries {name : String} {base base' extension extension' : ValueEntry}
    (hb : base.unplaced = base'.unplaced) (he : extension.unplaced = extension'.unplaced) :
    (valueEntries types .gather name base extension).Tracks Q (fun v w ↦ v.unplaced = w.unplaced)
      (valueEntries types' .gather name base' extension') := by
  rcases base with v | f
  · obtain ⟨v', rfl, -, hkind, htype⟩ := ValueEntry.exists_variable hb
    rcases extension with w | g
    · obtain ⟨w', rfl, -, hekind, hetype⟩ := ValueEntry.exists_variable he
      refine Merged.tracks_of_iff hb ?_
      simp only [valueEntries, variableEntries, hkind, htype, hekind, hetype]
      split
      · simp
      · split <;> simp
    · obtain ⟨g', rfl, -⟩ := ValueEntry.exists_function he
      exact Merged.tracks_of_conflict
  · obtain ⟨f', rfl, hname, hoverloads⟩ := ValueEntry.exists_function hb
    rcases extension with w | g
    · obtain ⟨w', rfl, -⟩ := ValueEntry.exists_variable he
      exact Merged.tracks_of_conflict
    · obtain ⟨g', rfl, -, heoverloads⟩ := ValueEntry.exists_function he
      refine Merged.tracks_of_iff ?_ Iff.rfl
      simp [valueEntries, functionEntries, overloads?, Merged.clean, ValueEntry.unplaced, hname,
        hoverloads, heoverloads]

theorem tracks_declarations {name : String} {base base' extension extension' : Declarations}
    (hb : base.AgreeOff name base') (he : extension.AgreeOff name extension')
    (hname : name ∉ extension.types.keys) (hname' : name ∉ extension'.types.keys)
    (hverdicts : Q → ∀ n i j, base.types.get? n = some (.interface i) →
      extension.types.get? n = some (.interface j) →
        SameVerdicts (aliases base.types extension.types) (aliases base'.types extension'.types)
          i j) :
    (declarations .gather base extension).Tracks Q (Declarations.AgreeOff name)
      (declarations .gather base' extension') := by
  have hkeys {d : Declarations} (h : name ∉ d.types.keys) (n : String) (hn : n ∈ d.types.keys) :
      decide (n ≠ name) = true := by
    rw [decide_eq_true_eq]
    rintro rfl
    exact h hn
  have htypes : (mapsWith (typeEntries (aliases base.types extension.types) .gather) base.types
      extension.types).Tracks Q (OrderedMap.Agree (fun n ↦ decide (n ≠ name)) TypeEntry.unplaced)
      (mapsWith (typeEntries (aliases base'.types extension'.types) .gather) base'.types
        extension'.types) :=
    tracks_mapsWith hb.types he.types (hkeys hname) (hkeys hname')
      fun n b b' e e' hb' _ he' _ hbview heview ↦
        tracks_typeEntries hbview heview fun hQ i j hi hj ↦
          hverdicts hQ n i j (hi ▸ hb') (hj ▸ he')
  have hvalues : (mapsWith (valueEntries (aliases base.types extension.types) .gather) base.values
      extension.values).Tracks Q (OrderedMap.Agree (fun _ ↦ true) ValueEntry.unplaced)
      (mapsWith (valueEntries (aliases base'.types extension'.types) .gather) base'.values
        extension'.values) :=
    tracks_mapsWith hb.values he.values (fun _ _ ↦ rfl) (fun _ _ ↦ rfl)
      fun n b b' e e' _ _ _ _ hbview heview ↦ tracks_valueEntries hbview heview
  constructor
  · intro hQ
    rw [declarations, declarations, List.append_eq_nil_iff, List.append_eq_nil_iff,
      htypes.clean hQ, hvalues.clean hQ]
  · intro h h'
    obtain ⟨h₁, h₂⟩ := List.append_eq_nil_iff.1 h
    obtain ⟨h₁', h₂'⟩ := List.append_eq_nil_iff.1 h'
    exact ⟨htypes.value h₁ h₁', hvalues.value h₂ h₂'⟩

/-! ### Tables of aliases -/

section Tables

variable {κ ν : Type} [DecidableEq κ]

theorem get?_foldl_insert (l : List (κ × ν)) (m : OrderedMap κ ν) (k : κ) :
    (l.foldl (fun m (e : κ × ν) ↦ m.insert e.1 e.2) m).get? k =
      ((l.reverse.find? fun e ↦ decide (e.1 = k)).map Prod.snd).or (m.get? k) := by
  induction l generalizing m with
  | nil => rfl
  | cons e l ih =>
    rw [List.foldl_cons, ih, List.reverse_cons, List.find?_append]
    cases l.reverse.find? fun e ↦ decide (e.1 = k) with
    | some found => rfl
    | none =>
      by_cases hk : e.1 = k
      · simp [← hk]
      · simp [hk, OrderedMap.get?_insert_of_ne _ _ (Ne.symm hk)]

/-- A map holds one entry under a key, whatever else is asked of it. -/
theorem find?_filter_entries (m : OrderedMap κ ν) (p : κ × ν → Bool) (k : κ) :
    ((m.entries.filter p).reverse.find? fun e ↦ decide (e.1 = k)).map Prod.snd =
      (m.get? k).filter fun v ↦ p (k, v) := by
  have hmem {e : κ × ν} (he : e ∈ (m.entries.filter p).reverse) : e ∈ m.entries ∧ p e = true :=
    List.mem_filter.1 (List.mem_reverse.1 he)
  cases hm : m.get? k with
  | none =>
    have hfind : ((m.entries.filter p).reverse.find? fun e ↦ decide (e.1 = k)) = none := by
      refine List.find?_eq_none.2 fun e he hk ↦ OrderedMap.get?_eq_none_iff.1 hm ?_
      exact of_decide_eq_true hk ▸ List.mem_map_of_mem (hmem he).1
    rw [hfind]
    rfl
  | some v =>
    have hentry := OrderedMap.get?_eq_some_iff.1 hm
    have hunique {e : κ × ν} (he : e ∈ m.entries) (hk : e.1 = k) : e = (k, v) := by
      obtain ⟨j, w⟩ := e
      cases hk
      rw [OrderedMap.eq_of_mem_entries he hentry]
    rw [Option.filter_some]
    cases hfind : (m.entries.filter p).reverse.find? fun e ↦ decide (e.1 = k) with
    | none =>
      rw [if_neg fun hp ↦ List.find?_eq_none.1 hfind _
        (List.mem_reverse.2 (List.mem_filter.2 ⟨hentry, hp⟩)) (decide_eq_true rfl)]
      rfl
    | some e =>
      have hk : e.1 = k := by simpa using List.find?_some hfind
      obtain ⟨he, hp⟩ := hmem (List.mem_of_find?_eq_some hfind)
      rw [hunique he hk] at hp ⊢
      rw [if_pos hp]
      rfl

end Tables

theorem get?_aliases (base extension : OrderedMap String TypeEntry) (n : String) :
    (aliases base extension).get? n =
      ((extension.get? n).filter (·.interface?.isNone)).or
        ((base.get? n).filter (·.interface?.isNone)) := by
  have hfold := get?_foldl_insert
    ((base.entries ++ extension.entries).filter fun e ↦ e.2.interface?.isNone) .empty n
  rw [List.filter_append, List.reverse_append, List.find?_append, Option.map_or,
    find?_filter_entries, find?_filter_entries, OrderedMap.get?_empty, Option.or_none] at hfold
  rw [aliases, OrderedMap.ofList, ← hfold, List.filter_append]

/-- The alias that a table of aliases holds is that of the extension, or else that of the base. -/
theorem aliased?_get?_aliases (base extension : OrderedMap String TypeEntry) (n : String) :
    ((aliases base extension).get? n).bind TypeEntry.aliased? =
      ((extension.get? n).bind TypeEntry.aliased?).or ((base.get? n).bind TypeEntry.aliased?) := by
  have hfilter (o : Option TypeEntry) : (o.filter (·.interface?.isNone)).bind TypeEntry.aliased? =
      o.bind TypeEntry.aliased? := by
    rcases o with _ | i | a <;> rfl
  rw [get?_aliases, ← hfilter (extension.get? n), ← hfilter (base.get? n)]
  rcases extension.get? n with _ | i | a <;> rfl

/-- What a type is expanded to depends on the alias of the name that it is. -/
theorem expandAlias?_congr {types types' : OrderedMap String TypeEntry} {t : TypeExpr}
    (h : ∀ n, t = .named n →
      (types.get? n).bind TypeEntry.aliased? = (types'.get? n).bind TypeEntry.aliased?) :
    Relation.expandAlias? types t = Relation.expandAlias? types' t := by
  have hread (types : OrderedMap String TypeEntry) (n : String) :
      Relation.expandAlias? types (.named n) = if n = Index.typeName then none else
        ((types.get? n).bind TypeEntry.aliased?).bind fun p ↦
          if p.1.isEmpty && p.2 != .named n then some p.2 else none := by
    rw [TypeExpr.named, Relation.expandAlias?]
    rcases types.get? n with _ | i | a <;> rfl
  by_cases hnamed : ∃ n, t = .named n
  · obtain ⟨n, rfl⟩ := hnamed
    rw [hread, hread, h n rfl]
  · unfold Relation.expandAlias?
    split
    · exact absurd ⟨_, rfl⟩ hnamed
    · rfl

end Merge

/-! ### Statements -/

/-- Whether a statement declares a type. -/
def Statement.isType (s : Statement) : Bool :=
  match s.body with
  | .interface _ _ _ | .typeAlias _ _ => true
  | .variable _ _ | .function _ => false

/-- Statements that say the same declare the same name, in the same namespace. -/
theorem Statement.eq_of_form {s s' : Statement} (h : s.form = s'.form) :
    s.name = s'.name ∧ s.isType = s'.isType := by
  obtain ⟨name, nameSpan, span, body⟩ := s
  obtain ⟨name', nameSpan', span', body'⟩ := s'
  cases body <;> cases body' <;> simp_all [form, isType]

namespace Binding

variable {Q : Prop} (c c' : Context)

theorem tracks_foldl_addMember {ms ms' : List PlacedMember} {merged merged' : Merged Interface}
    (hforms : ms.map PlacedMember.form = ms'.map PlacedMember.form)
    (h : merged.Tracks Q (fun i j ↦ i.unplaced = j.unplaced) merged') :
    (ms.foldl (addMember c) merged).Tracks Q (fun i j ↦ i.unplaced = j.unplaced)
      (ms'.foldl (addMember c') merged') := by
  induction ms generalizing ms' merged merged' with
  | nil =>
    obtain rfl : ms' = [] := List.map_eq_nil_iff.1 hforms.symm
    exact h
  | cons m ms ih =>
    cases ms' with
    | nil => cases hforms
    | cons m' ms' =>
      obtain ⟨hform, hrest⟩ := List.cons.inj hforms
      rw [List.foldl_cons, List.foldl_cons]
      refine ih hrest (h.bind fun _ _ hvalue ↦ ?_)
      have hmember : (member c m).unplaced = (member c' m').unplaced := by
        rw [unplaced_member, unplaced_member, hform]
      have hkey : (member c m).key = (member c' m').key := by
        rw [key_member, key_member, hform]
      obtain ⟨hname, hparams, -, -⟩ := Interface.unplaced_eq_iff.1 hvalue
      refine Merge.tracks_interfaces hvalue ?_ fun _ _ _ _ _ _ _ _ _ _ ↦ rfl
      rw [Interface.unplaced_eq_iff]
      exact ⟨hname, hparams, rfl, hkey ▸ OrderedMap.agree_singleton hmember⟩

theorem agreeOff_ofType {name : String} {entry entry' : TypeEntry}
    (hname : entry.name = entry'.name) (h : entry.unplaced = entry'.unplaced) :
    (ofType entry).AgreeOff name (ofType entry') :=
  ⟨by rw [ofType, ofType, hname]; exact OrderedMap.agree_singleton h, .refl _ _ _⟩

theorem agreeOff_ofValue {name : String} {entry entry' : ValueEntry}
    (hname : entry.name = entry'.name) (h : entry.unplaced = entry'.unplaced) :
    (ofValue entry).AgreeOff name (ofValue entry') :=
  ⟨.refl _ _ _, by rw [ofValue, ofValue, hname]; exact OrderedMap.agree_singleton h⟩

/-- A statement is bound alike wherever it stands. -/
theorem tracks_single {s s' : Statement} (name : String) (hform : s.form = s'.form) :
    (single c s).Tracks Q (Declarations.AgreeOff name) (single c' s') := by
  obtain ⟨n, nameSpan, span, body⟩ := s
  obtain ⟨n', nameSpan', span', body'⟩ := s'
  rcases body with ⟨typeParams, heritage, members⟩ | ⟨typeParams, type⟩ | ⟨kind, type⟩ | signature
  · rcases body' with ⟨typeParams', heritage', members'⟩ | _ | _ | _
    · obtain ⟨rfl, rfl, rfl, hmembers⟩ := StatementForm.interface.inj hform
      have hstart : Merged.Tracks Q (fun i j ↦ i.unplaced = j.unplaced)
          (.clean (Interface.mk n typeParams heritage .empty (c.origin span)))
          (.clean ⟨n, typeParams, heritage, .empty, c'.origin span'⟩) :=
        Merged.tracks_of_iff rfl Iff.rfl
      have hbound := tracks_foldl_addMember c c' hmembers hstart
      refine ⟨hbound.clean, fun h h' ↦ ?_⟩
      have hvalue := hbound.value h h'
      exact agreeOff_ofType (Interface.unplaced_eq_iff.1 hvalue).1
        (congrArg TypeEntry.interface hvalue)
    all_goals cases hform
  · rcases body' with _ | _ | _ | _ <;> cases hform
    exact Merged.tracks_of_iff (agreeOff_ofType rfl rfl) Iff.rfl
  · rcases body' with _ | _ | _ | _ <;> cases hform
    exact Merged.tracks_of_iff (agreeOff_ofValue rfl rfl) Iff.rfl
  · rcases body' with _ | _ | _ | _ <;> cases hform
    exact Merged.tracks_of_iff (agreeOff_ofValue rfl rfl) Iff.rfl

theorem keys_types_single (c : Context) (s : Statement) :
    (single c s).value.types.keys = if s.isType then [s.name] else [] := by
  obtain ⟨name, nameSpan, span, body⟩ := s
  match body with
  | .interface typeParams heritage members =>
    exact congrArg (fun n ↦ [n]) (name_foldl_addMember c members
      (.clean ⟨name, typeParams, heritage, .empty, c.origin span⟩))
  | .typeAlias _ _ => rfl
  | .variable _ _ => rfl
  | .function _ => rfl

theorem notMem_keys_types_single {s : Statement} {name : String}
    (hname : s.isType = true → s.name ≠ name) : name ∉ (single c s).value.types.keys := by
  rw [keys_types_single]
  split
  · next htype => simpa using (hname htype).symm
  · exact List.not_mem_nil

theorem tracks_addStatement {s s' : Statement} {name : String}
    {merged merged' : Merged Declarations}
    (h : merged.Tracks Q (Declarations.AgreeOff name) merged') (hform : s.form = s'.form)
    (hname : s.isType = true → s.name ≠ name)
    (hverdicts : Q → merged.conflicts = [] → merged'.conflicts = [] → (single c s).conflicts = [] →
      merged.value.AgreeOff name merged'.value →
        (single c s).value.AgreeOff name (single c' s').value → ∀ n i j,
          merged.value.types.get? n = some (.interface i) →
            (single c s).value.types.get? n = some (.interface j) →
              Merge.SameVerdicts (Merge.aliases merged.value.types (single c s).value.types)
                (Merge.aliases merged'.value.types (single c' s').value.types) i j) :
    (addStatement c merged s).Tracks Q (Declarations.AgreeOff name)
      (addStatement c' merged' s') := by
  have hname' : s'.isType = true → s'.name ≠ name := by
    obtain ⟨hsame, htype⟩ := Statement.eq_of_form hform
    rwa [← hsame, ← htype]
  have hnext := h.bind fun hm hm' hvalue ↦
    (tracks_single (Q := Q) c c' name hform).bind fun hs _ hown ↦
      Merge.tracks_declarations hvalue hown (notMem_keys_types_single c hname)
        (notMem_keys_types_single c' hname')
        fun hQ ↦ hverdicts hQ hm hm' hs hvalue hown
  simpa only [addStatement, List.append_assoc] using hnext

end Binding
end TypeSurface
