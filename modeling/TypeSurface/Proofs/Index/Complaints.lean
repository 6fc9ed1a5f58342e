import TypeSurface.Proofs.Index.Unfolding
import TypeSurface.Proofs.Profile.Exclusion
import TypeSurface.Proofs.Relation.Matching

/-!
# Complaints about written out declarations

Where aliases are written out, the audit has as many complaints as before, of the same members and
owners.  There is one exception: the audit looks for the signature of a property in the type of the
property as it stands, so a signature behind an alias is seen only once it is written out.
-/

namespace TypeSurface

def TypeEntry.types : TypeEntry → List TypeExpr
  | .interface i => i.heritage ++ i.members.entries.flatMap (·.2.body.types)
  | .typeAlias a => [a.type]

def ValueEntry.types : ValueEntry → List TypeExpr
  | .variable v => [v.type]
  | .function f => f.overloads.flatMap Signature.types

/-- All types that are written in declarations, one after the other. -/
def Declarations.written (d : Declarations) : List TypeExpr :=
  d.types.entries.flatMap (·.2.types) ++ d.values.entries.flatMap (·.2.types)

theorem Declarations.Writes.mem_written {d : Declarations} {t : TypeExpr} (h : d.Writes t) :
    t ∈ d.written := by
  rw [Declarations.written, List.mem_append, List.mem_flatMap, List.mem_flatMap]
  cases h with
  | heritage hi ht => exact .inl ⟨_, hi, List.mem_append_left _ ht⟩
  | member hi hm ht =>
    exact .inl ⟨_, hi, List.mem_append_right _ (List.mem_flatMap.2 ⟨_, hm, ht⟩)⟩
  | aliasBody ha => exact .inl ⟨_, ha, List.mem_singleton_self _⟩
  | variableType hv => exact .inr ⟨_, hv, List.mem_singleton_self _⟩
  | overload hf hs ht => exact .inr ⟨_, hf, List.mem_flatMap.2 ⟨_, hs, ht⟩⟩

namespace Index

open TypeSurface.Relation

/-! ### Declarations -/

section Declarations

variable (types : OrderedMap String TypeEntry) (P : TypeExpr → TypeExpr → Prop)

/-- The types in the body of a member are written out.  `P` is asked of the types of properties.
The key of an index signature comes from its type. -/
inductive BodyUnfolds : MemberKey × MemberBody → MemberKey × MemberBody → Prop
  | property (key : MemberKey) {t u : TypeExpr} (h : Unfolds types t u) (hP : P t u) :
    BodyUnfolds (key, .property t) (key, .property u)
  | method (key : MemberKey) {ss ts : List Signature}
    (h : List.Forall₂ (NamesMatch (Unfolds types)) ss ts) :
    BodyUnfolds (key, .method ss) (key, .method ts)
  | index (key key' : MemberKey) (name : String) {k l t u : TypeExpr} (hkey : Unfolds types k l)
    (h : Unfolds types t u) : BodyUnfolds (key, .index name k t) (key', .index name l u)
  | call (key : MemberKey) {ss ts : List Signature}
    (h : List.Forall₂ (NamesMatch (Unfolds types)) ss ts) :
    BodyUnfolds (key, .call ss) (key, .call ts)
  | construct (key : MemberKey) {ss ts : List Signature}
    (h : List.Forall₂ (NamesMatch (Unfolds types)) ss ts) :
    BodyUnfolds (key, .construct ss) (key, .construct ts)

structure MemberUnfolds (e e' : MemberKey × Member) : Prop where
  isReadonly : e.2.isReadonly = e'.2.isReadonly
  origin : e.2.origin = e'.2.origin
  body : BodyUnfolds types P (e.1, e.2.body) (e'.1, e'.2.body)

/-- Heritage is not audited and may be any. -/
inductive TypeUnfolds : TypeEntry → TypeEntry → Prop
  | interface {i j : Interface}
    (h : List.Forall₂ (MemberUnfolds types P) i.members.entries j.members.entries) :
    TypeUnfolds (.interface i) (.interface j)
  | typeAlias {a b : TypeAlias} (h : AliasUnfolds types a b) :
    TypeUnfolds (.typeAlias a) (.typeAlias b)

/-- The types of variables are not audited and may be any. -/
inductive ValueUnfolds : ValueEntry → ValueEntry → Prop
  | variable (v w : Variable) : ValueUnfolds (.variable v) (.variable w)
  | function {f g : Function} (horigin : f.origin = g.origin)
    (h : List.Forall₂ (NamesMatch (Unfolds types)) f.overloads g.overloads) :
    ValueUnfolds (.function f) (.function g)

end Declarations

/-- The second declarations are the first ones with aliases written out at any number of places. -/
structure DeclarationsUnfold (P : TypeExpr → TypeExpr → Prop) (d d' : Declarations) : Prop where
  types : List.Forall₂ (fun e e' ↦ e.1 = e'.1 ∧ TypeUnfolds d.types P e.2 e'.2)
    d.types.entries d'.types.entries
  values : List.Forall₂ (fun e e' ↦ e.1 = e'.1 ∧ ValueUnfolds d.types e.2 e'.2)
    d.values.entries d'.values.entries

/-- The two complaints stand at one place and name one member of one owner.  An index signature is
named by its text, in which its types are shown. -/
inductive SameComplaint (types : OrderedMap String TypeEntry) : Diagnostic → Diagnostic → Prop
  | found (s : Site) (member : String) {t u : TypeExpr} (h : Unfolds types t u) :
    SameComplaint types (inconsistency s member t) (inconsistency s member u)
  | index (s : Site) {m n : Member} {name : String} {k l t u : TypeExpr}
    (hm : m.body = .index name k t) (hn : n.body = .index name l u)
    (hreadonly : m.isReadonly = n.isReadonly) (hkey : Unfolds types k l) (h : Unfolds types t u) :
    SameComplaint types (inconsistency s m.describe k) (inconsistency s n.describe l)

def IsFunction (t : TypeExpr) : Prop := ∃ s, t = .function s

variable {types types' : OrderedMap String TypeEntry} {t u : TypeExpr} {a b : Signature}
  {d d' : Declarations} {P : TypeExpr → TypeExpr → Prop}

/-! ### Tables -/

theorem DeclarationsUnfold.aliases (h : DeclarationsUnfold P d d')
    (hshort : ∀ t, d.Writes t → t.All (IsShort d.types)) : AliasesUnfold d.types d'.types where
  isShort name a ha := hshort _ (.aliasBody (OrderedMap.get?_eq_some_iff.1 ha))
  right name a ha := by
    obtain ⟨⟨name', entry⟩, hmem, hname, hentry⟩ :=
      exists_mem_right h.types (OrderedMap.get?_eq_some_iff.1 ha)
    obtain rfl : name = name' := hname
    cases hentry with
    | typeAlias hab => exact ⟨_, OrderedMap.get?_eq_some_iff.2 hmem, hab⟩
  left name b hb := by
    obtain ⟨⟨name', entry⟩, hmem, hname, hentry⟩ :=
      exists_mem_left h.types (OrderedMap.get?_eq_some_iff.1 hb)
    obtain rfl : name' = name := hname
    cases hentry with
    | typeAlias hab => exact ⟨_, OrderedMap.get?_eq_some_iff.2 hmem, hab⟩

/-! ### The audit of a type -/

theorem forall₂_flatMap_of_mem {α β γ δ : Type} {R : α → β → Prop} {T : γ → δ → Prop}
    {f : α → List γ} {g : β → List δ} {l : List α} {l' : List β} (h : List.Forall₂ R l l')
    (hRT : ∀ a ∈ l, ∀ b, R a b → List.Forall₂ T (f a) (g b)) :
    List.Forall₂ T (l.flatMap f) (l'.flatMap g) :=
  forall₂_flatMap (forall₂_imp_of_mem h fun a ha b _ hab ↦ hRT a ha b hab) fun _ _ ↦ id

theorem forall₂_guard {α β : Type} {T : α → β → Prop} {l : List α} {l' : List β} {c : Prop}
    [Decidable c] (h : List.Forall₂ T l l') :
    List.Forall₂ T (if c then l else []) (if c then l' else []) := by
  split
  · exact h
  · exact .nil

/-- The second type is the first one written out, and the levels of the audit suffice for the first
one and all types inside. -/
def ShortUnfolds (types : OrderedMap String TypeEntry) (t u : TypeExpr) : Prop :=
  t.All (IsShort types) ∧ Unfolds types t u

theorem signatureMatches_short (h : NamesMatch (Unfolds types) a b)
    (ha : ∀ t ∈ a.types, t.All (IsShort types)) : SignatureMatches (ShortUnfolds types) a b where
  typeParams := h.2.typeParams
  params := forall₂_imp_of_mem h.2.params fun _ hp _ _ hpq ↦
    have hmem := a.compared_subset_types (List.mem_append_left _ (List.mem_map_of_mem hp))
    { hpq with type := ⟨ha _ hmem, hpq.type⟩ }
  result :=
    have hmem := a.compared_subset_types (List.mem_append_right _ (List.mem_singleton_self _))
    ⟨ha _ hmem, h.2.result⟩

theorem checkProperty_of_not_isFunction (h : ¬IsFunction t) (interface name : String)
    (origin : Origin) : checkProperty types interface name origin t =
      if propertyNames.contains name then checkIndex types ⟨interface, origin⟩ name t else [] := by
  cases t with
  | function s => exact absurd ⟨s, rfl⟩ h
  | _ => exact List.append_nil _

section Audit

variable (haliases : AliasesUnfold types types')
include haliases

theorem checkIndex_unfolds (s : Site) (member : String) (h : ShortUnfolds types t u) :
    List.Forall₂ (SameComplaint types) (checkIndex types s member t)
      (checkIndex types' s member u) := by
  unfold checkIndex
  rw [(judgedAlike_resolve haliases h.1 h.2).isIndexValued]
  split
  · exact .nil
  · exact .cons (.found s member h.2) .nil

theorem checkNumeric_unfolds {s : Site} {member member' : String} (h : ShortUnfolds types t u)
    (hsame : SameComplaint types (inconsistency s member t) (inconsistency s member' u)) :
    List.Forall₂ (SameComplaint types) (checkNumeric types s member t)
      (checkNumeric types' s member' u) := by
  unfold checkNumeric
  rw [(judgedAlike_resolve haliases h.1 h.2).isPlainNumber]
  split
  · exact .cons hsame .nil
  · exact .nil

theorem checkParam_unfolds (s : Site) {p q : Param} (h : ParamMatches (ShortUnfolds types) p q) :
    List.Forall₂ (SameComplaint types) (checkParam types s p) (checkParam types' s q) := by
  unfold checkParam
  rw [h.name]
  split
  · exact checkIndex_unfolds haliases s _ h.type
  split
  · exact checkNumeric_unfolds haliases h.type (.found s _ h.type.2)
  · exact .nil

theorem checkParams_unfolds (s : Site) (h : SignatureMatches (ShortUnfolds types) a b) :
    List.Forall₂ (SameComplaint types) (checkParams types s a) (checkParams types' s b) :=
  forall₂_flatMap h.valueParams fun _ _ ↦ checkParam_unfolds haliases s

theorem checkCallbacks_unfolds (s : Site) (h : ShortUnfolds types t u) :
    List.Forall₂ (SameComplaint types) (checkCallbacks types s maxRelationDepth t)
      (checkCallbacks types' s maxRelationDepth u) := by
  refine unfolds_induction (C := fun k t k' u ↦ List.Forall₂ (SameComplaint types)
    (checkCallbacks types s k t) (checkCallbacks types' s k' u))
    haliases ?_ ?_ ?_ ?_ (Nat.le_refl _) (Nat.le_refl _) h.1.self h.1 h.2
  · intro k k' t u body hbody hC
    simpa only [checkCallbacks, hbody] using hC
  · intro k k' t u body body' hbody hbody' hC
    simpa only [checkCallbacks, hbody, hbody'] using hC
  · intro k k' ts us hC
    exact forall₂_flatMap hC fun _ _ ↦ id
  · intro k k' t u hnone hnone' hunion ht hmatch
    cases hmatch with
    | union h => cases hunion
    | @function a b hab =>
      apply checkParams_unfolds haliases
      exact signatureMatches_short hab fun _ ↦ ht.child
    | reference hname hargs =>
      simp only [checkCallbacks, hnone, hnone']
      exact .nil
    | _ => exact .nil

theorem checkSignature_unfolds (s : Site) (name : String)
    (h : SignatureMatches (ShortUnfolds types) a b) :
    List.Forall₂ (SameComplaint types) (checkSignature types s name a)
      (checkSignature types' s name b) := by
  have hresult := checkIndex_unfolds haliases s "return type" h.result
  have hparams := checkParams_unfolds haliases s h
  refine List.rel_append (List.rel_append (forall₂_guard hresult) hparams) ?_
  exact forall₂_flatMap h.valueParams fun _ _ hpq ↦ checkCallbacks_unfolds haliases s hpq.type

theorem checkSignatures_unfolds (s : Site) (name : String) {ss ts : List Signature}
    (h : List.Forall₂ (NamesMatch (Unfolds types)) ss ts)
    (hshort : ∀ t ∈ ss.flatMap Signature.types, t.All (IsShort types)) :
    List.Forall₂ (SameComplaint types) (ss.flatMap (checkSignature types s name))
      (ts.flatMap (checkSignature types' s name)) := by
  have hsignatures : List.Forall₂ (SignatureMatches (ShortUnfolds types)) ss ts :=
    forall₂_imp_of_mem h fun a ha b _ hab ↦
      signatureMatches_short hab fun t ht ↦ hshort t (List.mem_flatMap.2 ⟨a, ha, ht⟩)
  exact forall₂_flatMap hsignatures fun _ _ ↦ checkSignature_unfolds haliases s name

theorem checkProperty_unfolds (interface name : String) (origin : Origin)
    (h : ShortUnfolds types t u) (hfunction : IsFunction u → IsFunction t) :
    List.Forall₂ (SameComplaint types) (checkProperty types interface name origin t)
      (checkProperty types' interface name origin u) := by
  have hvalue := checkIndex_unfolds haliases ⟨interface, origin⟩ name h
  by_cases ht : IsFunction t
  · obtain ⟨a, rfl⟩ := ht
    rcases h.2.step with ⟨_, hnone, -⟩ | hmatch
    · cases hnone
    · cases hmatch with
      | function hab =>
        refine List.rel_append (forall₂_guard hvalue) ?_
        apply checkSignature_unfolds haliases
        exact signatureMatches_short hab fun _ ↦ h.1.child
  · rw [checkProperty_of_not_isFunction ht, checkProperty_of_not_isFunction (mt hfunction ht)]
    exact forall₂_guard hvalue

theorem checkMember_unfolds (interface : String) {e e' : MemberKey × Member}
    (h : MemberUnfolds types (fun t u ↦ IsFunction u → IsFunction t) e e')
    (hshort : ∀ t ∈ e.2.body.types, t.All (IsShort types)) :
    List.Forall₂ (SameComplaint types) (checkMember types interface e.1 e.2)
      (checkMember types' interface e'.1 e'.2) := by
  obtain ⟨key, m⟩ := e
  obtain ⟨key', n⟩ := e'
  obtain ⟨hreadonly, horigin, hbody⟩ := h
  -- The bodies are taken apart together with their members, which the complaints mention.
  obtain ⟨mkey, mname, mbody, mreadonly, moptional, origin⟩ := m
  obtain ⟨nkey, nname, nbody, nreadonly, noptional, norigin⟩ := n
  obtain rfl : origin = norigin := horigin
  cases hbody with
  | property key htu hfunction =>
    cases key with
    | named name =>
      apply checkProperty_unfolds haliases
      · exact ⟨hshort _ (List.mem_singleton_self _), htu⟩
      · exact hfunction
    | _ => exact .nil
  | method key hsignatures =>
    cases key with
    | named name => exact checkSignatures_unfolds haliases _ name hsignatures hshort
    | _ => exact .nil
  | index key key' name hkey hvalue =>
    apply checkNumeric_unfolds haliases ⟨hshort _ List.mem_cons_self, hkey⟩
    exact .index _ rfl rfl hreadonly hkey hvalue
  | call key hsignatures =>
    exact checkSignatures_unfolds haliases _ "" hsignatures hshort
  | construct key hsignatures =>
    exact checkSignatures_unfolds haliases _ "" hsignatures hshort

end Audit

/-! ### The audit of declarations -/

/-- The audit complains of the same members where aliases are written out, unless a property gets a
function type in that way. -/
theorem auditDefects_of_unfolded
    (h : DeclarationsUnfold (fun t u ↦ IsFunction u → IsFunction t) d d')
    (hshort : ∀ t, d.Writes t → t.All (IsShort d.types)) :
    List.Forall₂ (SameComplaint d.types) (auditDefects d) (auditDefects d') := by
  have haliases := h.aliases hshort
  apply List.rel_append
  · apply forall₂_flatMap_of_mem h.types
    rintro ⟨name, entry⟩ hmem ⟨name', entry'⟩ ⟨hname, hentry⟩
    obtain rfl : name = name' := hname
    cases hentry with
    | typeAlias _ => exact .nil
    | interface hmembers =>
      apply forall₂_flatMap_of_mem hmembers
      intro e he e' hmember
      apply checkMember_unfolds haliases name hmember
      exact fun t ht ↦ hshort t (.member hmem he ht)
  · apply forall₂_flatMap_of_mem h.values
    rintro ⟨name, entry⟩ hmem ⟨name', entry'⟩ ⟨hname, hentry⟩
    obtain rfl : name = name' := hname
    rcases hentry with _ | ⟨horigin, hsignatures⟩
    · exact .nil
    · simp only [checkValue, horigin]
      apply checkSignatures_unfolds haliases _ name hsignatures
      intro t ht
      obtain ⟨s, hs, ht⟩ := List.mem_flatMap.1 ht
      exact hshort t (.overload hmem hs ht)

/-- `(index: number) => void`, with the type of numbers given -/
def stepBy (number : TypeExpr) : TypeExpr :=
  .function ⟨[], [⟨"index", number, false, false⟩], .keyword .void⟩

/-- `type Count = number`, `type Step = (index: Count) => void` and an interface with the members
`length: Count`, `[place: Count]: string` and `each(step: Step): void`, whose types are given -/
def track (count step : TypeExpr) : Declarations :=
  let origin : Origin := ⟨"track", "track.d.ts", ⟨0, 0⟩⟩
  let member (key : MemberKey) (body : MemberBody) : MemberKey × Member :=
    (key, ⟨key, none, body, false, false, origin⟩)
  let members : OrderedMap MemberKey Member :=
    ⟨[member (.named "length") (.property count),
      member (.index (.ofType count)) (.index "place" count (.keyword .string)),
      member (.named "each") (.method [⟨[], [⟨"step", step, false, false⟩], .keyword .void⟩])],
      by simp [member]⟩
  ⟨⟨[("Count", .typeAlias ⟨"Count", [], .keyword .number, origin⟩),
      ("Step", .typeAlias ⟨"Step", [], stepBy (.named "Count"), origin⟩),
      ("Track", .interface ⟨"Track", [], [], members, origin⟩)], by simp⟩, .empty⟩

theorem auditDefects_of_unfolded_track :
    (auditDefects (track (.named "Count") (.named "Step"))).length = 3 ∧
      List.Forall₂ (SameComplaint (track (.named "Count") (.named "Step")).types)
        (auditDefects (track (.named "Count") (.named "Step")))
        (auditDefects (track (.keyword .number) (stepBy (.keyword .number)))) := by
  have hcount : expandAlias? (track (.named "Count") (.named "Step")).types (.named "Count") =
      some (.keyword .number) := by
    decide +kernel
  have hstep : expandAlias? (track (.named "Count") (.named "Step")).types (.named "Step") =
      some (stepBy (.named "Count")) := by
    decide +kernel
  have hshort : ∀ t ∈ (track (.named "Count") (.named "Step")).written, ∀ u ∈ t.nodes,
      IsShort (track (.named "Count") (.named "Step")).types u := by
    decide +kernel
  refine ⟨by decide +kernel, ?_⟩
  apply auditDefects_of_unfolded _ fun t ht ↦ hshort t ht.mem_written
  have hnumber := Unfolds.of_expandAlias? hcount (.refl _)
  have hnoFunction : IsFunction (.keyword .number) → IsFunction (.named "Count") := by
    rintro ⟨s, hs⟩
    cases hs
  have hcallback : Unfolds (track (.named "Count") (.named "Step")).types (.named "Step")
      (stepBy (.keyword .number)) := by
    refine ⟨4, .inl ⟨_, hstep, .inr (.function ⟨rfl, rfl, .cons ⟨rfl, ?_, rfl, rfl⟩ .nil, ?_⟩)⟩⟩
    · exact .inl ⟨_, hcount, .inr (.keyword _)⟩
    · exact .inr (.keyword _)
  refine ⟨.cons ⟨rfl, .typeAlias ⟨rfl, .refl _⟩⟩ (.cons ⟨rfl, .typeAlias ⟨rfl, .refl _⟩⟩
    (.cons ⟨rfl, .interface ?_⟩ .nil)), .nil⟩
  refine .cons ⟨rfl, rfl, .property _ hnumber hnoFunction⟩ (.cons ⟨rfl, rfl, ?_⟩
    (.cons ⟨rfl, rfl, .method _ ?_⟩ .nil))
  · exact .index _ _ _ hnumber (.refl _)
  · exact .cons ⟨rfl, rfl, .cons ⟨rfl, hcallback, rfl, rfl⟩ .nil, .refl _⟩ .nil

/-- `type Seek = (index: number) => void` and `interface Tape { seek: Seek; }`, with the type of
`seek` given -/
def tape (seek : TypeExpr) : Declarations :=
  let origin : Origin := ⟨"tape", "tape.d.ts", ⟨0, 0⟩⟩
  let member : Member := ⟨.named "seek", none, .property seek, false, false, origin⟩
  ⟨⟨[("Seek", .typeAlias ⟨"Seek", [], stepBy (.keyword .number), origin⟩),
      ("Tape", .interface ⟨"Tape", [], [], .singleton member.key member, origin⟩)], by simp⟩,
    .empty⟩

/-- The parameter of a property is lost to the audit if the type of the property is an alias. -/
theorem not_auditDefects_of_unfolded :
    ¬∀ d d' : Declarations, DeclarationsUnfold (fun _ _ ↦ True) d d' →
      (∀ t, d.Writes t → t.All (IsShort d.types)) →
        List.Forall₂ (SameComplaint d.types) (auditDefects d) (auditDefects d') := by
  intro h
  have hunfolds : DeclarationsUnfold (fun _ _ ↦ True) (tape (.named "Seek"))
      (tape (stepBy (.keyword .number))) := by
    refine ⟨.cons ⟨rfl, .typeAlias ⟨rfl, .refl _⟩⟩ (.cons ⟨rfl, .interface ?_⟩ .nil), .nil⟩
    refine .cons ⟨rfl, rfl, .property _ ?_ trivial⟩ .nil
    exact .of_expandAlias? (by decide +kernel) (.refl _)
  have hshort : ∀ t ∈ (tape (.named "Seek")).written, ∀ u ∈ t.nodes,
      IsShort (tape (.named "Seek")).types u := by
    decide +kernel
  have hlengths := (h _ _ hunfolds fun t ht ↦ hshort t ht.mem_written).length_eq
  have hnone : (auditDefects (tape (.named "Seek"))).length = 0 := by decide +kernel
  have hone : (auditDefects (tape (stepBy (.keyword .number)))).length = 1 := by decide +kernel
  omega

end Index
end TypeSurface
