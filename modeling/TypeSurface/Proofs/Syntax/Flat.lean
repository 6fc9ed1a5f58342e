import TypeSurface.Proofs.Syntax.Clear

/-!
# Flat types

A union inside a union is printed without parentheses, and so is an intersection inside an
intersection: a reader finds one combination of all members.  A type is made *flat* by putting the
members of such inner combinations in their place, which leaves its text and its depth as they are.
-/

namespace TypeSurface

/-! ### Combinations -/

/-- The two ways in which types stand side by side. -/
inductive Combination where
  | union
  | intersection

namespace Combination

/-- The combination of some types. -/
def of : Combination → List TypeExpr → TypeExpr
  | union, members => .union members
  | intersection, members => .intersection members

/-- Whether a type is such a combination. -/
def has : Combination → TypeExpr → Bool
  | union, t => t.isUnion
  | intersection, t => t.isIntersection

/-- Members that stand in parentheses. -/
def isLoose : Combination → TypeExpr → Bool
  | union, t => t.isLooseUnionMember
  | intersection, t => t.isLooseIntersectionMember

def separator : Combination → String
  | union => " | "
  | intersection => " & "

/-- The members that a member of a combination stands for. -/
def members : Combination → TypeExpr → List TypeExpr
  | union, .union members => members
  | intersection, .intersection members => members
  | _, t => [t]

variable {c : Combination} {t u : TypeExpr} {ts : List TypeExpr}

theorem members_of : c.members (c.of ts) = ts := by cases c <;> rfl

theorem isLoose_of : c.isLoose (c.of ts) = false := by cases c <;> rfl

theorem children_of : (c.of ts).children = ts := by cases c <;> rfl

theorem wholes_of : (c.of ts).wholes = ts.filter c.isLoose := by cases c <;> rfl

theorem isWrittenNode_of :
    (c.of ts).isWrittenNode = (decide (2 ≤ ts.length) && ts.all TypeExpr.isProper) := by
  cases c <;> rfl

theorem isFlatNode_of : (c.of ts).isFlatNode = ts.all (!c.has ·) := by cases c <;> rfl

theorem text_of : (c.of ts).text =
    c.separator.intercalate (ts.map fun t ↦ Text.parenthesized (c.isLoose t) t.text) := by
  cases c <;> exact TypeExpr.text.eq_def _

theorem depth_of : (c.of ts).depth =
    greatest (ts.map fun t ↦ t.depth + if c.isLoose t then 1 else 0) := by
  cases c <;> exact TypeExpr.depth.eq_def _

theorem front_of_cons :
    (c.of (t :: ts)).front = if c.isLoose t then c.of (t :: ts) else t.front := by
  cases c <;> rw [of, TypeExpr.front] <;> rfl

/-- A type is a combination, or a single member of one. -/
theorem has_or (c : Combination) (t : TypeExpr) :
    (∃ ts, t = c.of ts) ∨ c.has t = false ∧ c.members t = [t] := by
  cases c with
  | union =>
    cases t with
    | union members => exact Or.inl ⟨members, rfl⟩
    | _ => exact Or.inr ⟨rfl, rfl⟩
  | intersection =>
    cases t with
    | intersection members => exact Or.inl ⟨members, rfl⟩
    | _ => exact Or.inr ⟨rfl, rfl⟩

theorem members_ne_nil (c : Combination) (hwritten : t.isWrittenNode = true) : c.members t ≠ [] := by
  obtain ⟨ts, rfl⟩ | ⟨-, hmembers⟩ := c.has_or t
  · rw [isWrittenNode_of] at hwritten
    simp only [Bool.and_eq_true, decide_eq_true_eq] at hwritten
    rw [members_of]
    exact List.length_pos_iff.1 (Nat.lt_of_lt_of_le Nat.two_pos hwritten.1)
  · rw [hmembers]
    exact List.cons_ne_nil _ _

theorem isProper_of_mem_members (hwritten : t.isWrittenNode = true) (hproper : t.isProper = true)
    (hu : u ∈ c.members t) : u.isProper = true := by
  obtain ⟨ts, rfl⟩ | ⟨-, hmembers⟩ := c.has_or t
  · rw [isWrittenNode_of] at hwritten
    simp only [Bool.and_eq_true, List.all_eq_true] at hwritten
    rw [members_of] at hu
    exact hwritten.2 u hu
  · rw [hmembers, List.mem_singleton] at hu
    exact hu ▸ hproper

theorem intercalate_members (c : Combination) (t : TypeExpr) :
    c.separator.intercalate ((c.members t).map fun m ↦ Text.parenthesized (c.isLoose m) m.text) =
      Text.parenthesized (c.isLoose t) t.text := by
  obtain ⟨ts, rfl⟩ | ⟨-, hmembers⟩ := c.has_or t
  · rw [members_of, isLoose_of, text_of]
    rfl
  · rw [hmembers]
    exact String.intercalate_singleton

theorem greatest_members (c : Combination) (t : TypeExpr) :
    greatest ((c.members t).map fun m ↦ m.depth + if c.isLoose m then 1 else 0) =
      t.depth + if c.isLoose t then 1 else 0 := by
  obtain ⟨ts, rfl⟩ | ⟨-, hmembers⟩ := c.has_or t
  · rw [members_of, isLoose_of, depth_of]
    rfl
  · rw [hmembers]
    exact Nat.max_zero _

end Combination

/-! ### Flat forms -/

mutual

/-- The type in which no combination stands inside another of its kind without parentheses. -/
def TypeExpr.flat : TypeExpr → TypeExpr
  | .keyword word => .keyword word
  | .reference name args => .reference name (args.map TypeExpr.flat)
  | .literal value => .literal value
  | .array element => .array element.flat
  | .tuple elements => .tuple (elements.map TupleElement.flat)
  | .union members => .union ((members.map TypeExpr.flat).flatMap Combination.union.members)
  | .intersection members =>
    .intersection ((members.map TypeExpr.flat).flatMap Combination.intersection.members)
  | .function signature => .function signature.flat
  | .construct signature => .construct signature.flat
  | .object members => .object (members.map MemberForm.flat)
  | .keyOf operand => .keyOf operand.flat
  | .readonly operand => .readonly operand.flat
  | .predicate parameter type => .predicate parameter type.flat
termination_by t => sizeOf t

def TypeParam.flat : TypeParam → TypeParam
  | ⟨name, bound, default⟩ =>
    ⟨name, (match bound with | none => none | some t => some t.flat),
      (match default with | none => none | some t => some t.flat)⟩
termination_by p => sizeOf p

def Param.flat : Param → Param
  | ⟨name, type, isOptional, isRest⟩ => ⟨name, type.flat, isOptional, isRest⟩
termination_by p => sizeOf p

def Signature.flat : Signature → Signature
  | ⟨typeParams, params, result⟩ =>
    ⟨typeParams.map TypeParam.flat, params.map Param.flat, result.flat⟩
termination_by s => sizeOf s

def TupleElement.flat : TupleElement → TupleElement
  | ⟨type, isOptional, isRest⟩ => ⟨type.flat, isOptional, isRest⟩
termination_by e => sizeOf e

def MemberForm.flat : MemberForm → MemberForm
  | .property name isReadonly isOptional type => .property name isReadonly isOptional type.flat
  | .method name isOptional signature => .method name isOptional signature.flat
  | .index isReadonly keyName keyType type => .index isReadonly keyName keyType.flat type.flat
  | .call signature => .call signature.flat
  | .construct signature => .construct signature.flat
termination_by m => sizeOf m

end

/-! ### What stays in place -/

theorem TypeParam.types_flat (p : TypeParam) : p.flat.types = p.types.map TypeExpr.flat := by
  obtain ⟨name, bound, default⟩ := p
  rw [TypeParam.flat.eq_def]
  cases bound <;> cases default <;> rfl

theorem Param.type_flat (p : Param) : p.flat.type = p.type.flat := by
  cases p
  rw [Param.flat]

theorem TupleElement.type_flat (e : TupleElement) : e.flat.type = e.type.flat := by
  cases e
  rw [TupleElement.flat]

theorem Signature.result_flat (s : Signature) : s.flat.result = s.result.flat := by
  cases s
  rw [Signature.flat]

theorem Signature.types_flat (s : Signature) : s.flat.types = s.types.map TypeExpr.flat := by
  obtain ⟨typeParams, params, result⟩ := s
  simp [Signature.flat, Signature.types, List.flatMap_map, List.map_flatMap, TypeParam.types_flat,
    Param.type_flat, Function.comp_def]

theorem MemberForm.types_flat (m : MemberForm) : m.flat.types = m.types.map TypeExpr.flat := by
  cases m <;> simp [MemberForm.flat, MemberForm.types, Signature.types_flat]

theorem MemberForm.results_flat (m : MemberForm) : m.flat.results = m.results.map TypeExpr.flat := by
  cases m <;> simp [MemberForm.flat, MemberForm.results, Signature.result_flat]

theorem MemberForm.isShown_flat (m : MemberForm) : m.flat.isShown = m.isShown := by
  cases m <;> rw [MemberForm.flat] <;> rfl

theorem MemberForm.isBareNew_flat (m : MemberForm) : m.flat.isBareNew = m.isBareNew := by
  cases m with
  | method name isOptional signature =>
    rw [MemberForm.flat]
    cases name <;> rfl
  | _ =>
    rw [MemberForm.flat]
    rfl

theorem Combination.flat_of {c : Combination} {ts : List TypeExpr} :
    (c.of ts).flat = c.of ((ts.map TypeExpr.flat).flatMap c.members) := by
  cases c <;> exact TypeExpr.flat.eq_def _

/-- What a flat combination is made of: flat forms of members, and what these are made of. -/
theorem Combination.mem_flat {c : Combination} {u : TypeExpr} {ts : List TypeExpr}
    (h : u ∈ (ts.map TypeExpr.flat).flatMap c.members) :
    ∃ v ∈ ts, u = v.flat ∧ c.has u = false ∨ ∃ us, v.flat = c.of us ∧ u ∈ us := by
  obtain ⟨w, hw, hu⟩ := List.mem_flatMap.1 h
  obtain ⟨v, hv, rfl⟩ := List.mem_map.1 hw
  refine ⟨v, hv, ?_⟩
  obtain ⟨us, hus⟩ | ⟨hhas, hmembers⟩ := c.has_or v.flat
  · rw [hus, members_of] at hu
    exact Or.inr ⟨us, hus, hu⟩
  · rw [hmembers, List.mem_singleton] at hu
    exact Or.inl ⟨hu, hu ▸ hhas⟩

namespace TypeExpr

variable {t u : TypeExpr}

@[simp]
theorem isLoosePostfixOperand_flat (t : TypeExpr) :
    t.flat.isLoosePostfixOperand = t.isLoosePostfixOperand := by
  cases t <;> rw [flat] <;> rfl

@[simp]
theorem isLoosePrefixOperand_flat (t : TypeExpr) :
    t.flat.isLoosePrefixOperand = t.isLoosePrefixOperand := by
  cases t <;> rw [flat] <;> rfl

@[simp]
theorem isLooseUnionMember_flat (t : TypeExpr) :
    t.flat.isLooseUnionMember = t.isLooseUnionMember := by
  cases t <;> rw [flat] <;> rfl

@[simp]
theorem isLooseIntersectionMember_flat (t : TypeExpr) :
    t.flat.isLooseIntersectionMember = t.isLooseIntersectionMember := by
  cases t <;> rw [flat] <;> rfl

@[simp]
theorem isLoose_flat (c : Combination) (t : TypeExpr) : c.isLoose t.flat = c.isLoose t := by
  cases c with
  | union => exact isLooseUnionMember_flat t
  | intersection => exact isLooseIntersectionMember_flat t

@[simp]
theorem isPredicate_flat (t : TypeExpr) : t.flat.isPredicate = t.isPredicate := by
  cases t <;> rw [flat] <;> rfl

@[simp]
theorem isProper_flat (t : TypeExpr) : t.flat.isProper = t.isProper := by
  cases t <;> rw [flat] <;> rfl

@[simp]
theorem isTextOrNumber_flat (t : TypeExpr) : t.flat.isTextOrNumber = t.isTextOrNumber := by
  cases t <;> rw [flat] <;> rfl

@[simp]
theorem isObject_flat (t : TypeExpr) : t.flat.isObject = t.isObject := by
  cases t <;> rw [flat] <;> rfl

@[simp]
theorem isOperatorName_flat (t : TypeExpr) : t.flat.isOperatorName = t.isOperatorName := by
  cases t with
  | reference name args => cases args <;> simp [flat, isOperatorName]
  | _ => rw [flat] <;> rfl

@[simp]
theorem root_flat (t : TypeExpr) : t.flat.root = t.root.flat := by
  fun_induction root t with
  | case1 element ih => rw [flat, root, ih]
  | case2 t harray =>
    cases t with
    | array element => exact absurd rfl (harray element)
    | _ =>
      rw [flat]
      rfl

theorem children_flat (hunion : t.isUnion = false) (hintersection : t.isIntersection = false) :
    t.flat.children = t.children.map flat := by
  cases t with
  | union members => cases hunion
  | intersection members => cases hintersection
  | tuple elements => simp [flat, children, TupleElement.type_flat, Function.comp_def]
  | function signature => rw [flat, children, Signature.types_flat, children]
  | construct signature => rw [flat, children, Signature.types_flat, children]
  | object members =>
    simp [flat, children, MemberForm.types_flat, List.flatMap_map, List.map_flatMap]
  | _ =>
    rw [flat]
    rfl

/-- What stands inside a flat combination is a flat form, or stands inside the flat form of a member. -/
theorem mem_children_flat_of {c : Combination} {ts : List TypeExpr} (h : u ∈ (c.of ts).flat.children) :
    ∃ v ∈ ts, u = v.flat ∨ u ∈ v.flat.children := by
  rw [Combination.flat_of, Combination.children_of] at h
  obtain ⟨v, hv, ⟨hu, -⟩ | ⟨us, hus, hu⟩⟩ := Combination.mem_flat h
  · exact ⟨v, hv, Or.inl hu⟩
  · refine ⟨v, hv, Or.inr ?_⟩
    rwa [hus, Combination.children_of]

theorem mem_children_flat (h : u ∈ t.flat.children) :
    ∃ v ∈ t.children, u = v.flat ∨ u ∈ v.flat.children := by
  have hchildren := children_flat (t := t)
  have hmap : t.flat.children = t.children.map flat → ∃ v ∈ t.children,
      u = v.flat ∨ u ∈ v.flat.children := by
    intro hsame
    rw [hsame] at h
    obtain ⟨v, hv, rfl⟩ := List.mem_map.1 h
    exact ⟨v, hv, Or.inl rfl⟩
  cases t with
  | union members => exact mem_children_flat_of (c := .union) h
  | intersection members => exact mem_children_flat_of (c := .intersection) h
  | _ => exact hmap (hchildren rfl rfl)

/-- A property that passes from what stands inside a flat type to the type holds of all of it. -/
theorem all_flat {P Q : TypeExpr → Prop}
    (hstep : ∀ t : TypeExpr, t.All Q → (∀ u ∈ t.children, u.flat.All P) → P t.flat)
    (h : t.All Q) : t.flat.All P := by
  induction t using induction_on_children with
  | h t ih =>
    have hchildren : ∀ u ∈ t.children, u.flat.All P := fun u hu ↦ ih u hu (h.child hu)
    refine all_iff.2 ⟨hstep t h hchildren, fun u hu ↦ ?_⟩
    obtain ⟨v, hv, rfl | hu⟩ := mem_children_flat hu
    · exact hchildren v hv
    · exact (hchildren v hv).child hu

end TypeExpr

/-! ### Flat types are written -/

theorem TypeParam.isWritten_flat (p : TypeParam) : p.flat.isWritten = p.isWritten := by
  have hname : p.flat.name = p.name := by
    cases p
    rw [TypeParam.flat.eq_def]
  simp [TypeParam.isWritten, hname, TypeParam.types_flat, Function.comp_def]

theorem Param.isWritten_flat (p : Param) : p.flat.isWritten = p.isWritten := by
  cases p
  simp [Param.flat, Param.isWritten]

theorem Signature.isWritten_flat (s : Signature) : s.flat.isWritten = s.isWritten := by
  cases s
  simp [Signature.flat, Signature.isWritten, Function.comp_def, TypeParam.isWritten_flat,
    Param.isWritten_flat]

theorem MemberForm.isWritten_flat (m : MemberForm) : m.flat.isWritten = m.isWritten := by
  cases m <;> simp [MemberForm.flat, MemberForm.isWritten, Signature.isWritten_flat]

namespace TypeExpr

variable {t u : TypeExpr}

theorem length_le_length_flatMap {α β : Type} {items : List α} {f : α → List β}
    (h : ∀ a ∈ items, f a ≠ []) : items.length ≤ (items.flatMap f).length := by
  induction items with
  | nil => exact Nat.le_refl _
  | cons a items ih =>
    rw [List.forall_mem_cons] at h
    have hfirst := List.length_pos_iff.2 h.1
    have hothers := ih h.2
    rw [List.flatMap_cons, List.length_append, List.length_cons]
    omega

theorem isWrittenNode_flat_of {c : Combination} {ts : List TypeExpr}
    (h : (c.of ts).isWrittenNode = true) (hts : ∀ u ∈ ts, u.flat.isWrittenNode = true) :
    (c.of ts).flat.isWrittenNode = true := by
  rw [Combination.isWrittenNode_of] at h
  rw [Combination.flat_of, Combination.isWrittenNode_of]
  simp only [Bool.and_eq_true, decide_eq_true_eq, List.all_eq_true] at h ⊢
  have hflat : ∀ v ∈ ts.map flat, v.isWrittenNode = true := List.forall_mem_map.2 hts
  have hlength := length_le_length_flatMap fun v hv ↦ c.members_ne_nil (hflat v hv)
  rw [List.length_map] at hlength
  refine ⟨Nat.le_trans h.1 hlength, fun u hu ↦ ?_⟩
  obtain ⟨v, hv, hu⟩ := List.mem_flatMap.1 hu
  obtain ⟨w, hw, rfl⟩ := List.mem_map.1 hv
  exact Combination.isProper_of_mem_members (hts w hw) ((isProper_flat w).trans (h.2 w hw)) hu

theorem isWrittenNode_flat (h : t.isWrittenNode = true)
    (hchildren : ∀ u ∈ t.children, u.flat.isWrittenNode = true) : t.flat.isWrittenNode = true := by
  cases t with
  | union members => exact isWrittenNode_flat_of (c := .union) h hchildren
  | intersection members => exact isWrittenNode_flat_of (c := .intersection) h hchildren
  | reference name args => simpa [flat, isWrittenNode, Function.comp_def] using h
  | tuple elements =>
    simpa [flat, isWrittenNode, Function.comp_def, TupleElement.type_flat] using h
  | function signature => simpa [flat, isWrittenNode, Signature.isWritten_flat] using h
  | construct signature => simpa [flat, isWrittenNode, Signature.isWritten_flat] using h
  | object members =>
    simpa [flat, isWrittenNode, Function.comp_def, MemberForm.isWritten_flat] using h
  | keyword word => simp [flat, isWrittenNode]
  | _ => simpa [flat, isWrittenNode] using h

theorem allWritten_flat (h : t.All (·.isWrittenNode = true)) :
    t.flat.All (·.isWrittenNode = true) :=
  all_flat (fun _ hwritten hchildren ↦
    isWrittenNode_flat hwritten.self fun u hu ↦ (hchildren u hu).self) h

end TypeExpr

/-! ### The text of flat types -/

theorem intercalate_flatMap {α : Type} {separator : String} {f : α → String} {expand : α → List α}
    {items : List α} (h : ∀ a ∈ items, expand a ≠ [] ∧
      separator.intercalate ((expand a).map f) = f a) :
    separator.intercalate ((items.flatMap expand).map f) = separator.intercalate (items.map f) := by
  induction items with
  | nil => rfl
  | cons a items ih =>
    rw [List.forall_mem_cons] at h
    cases items with
    | nil => simpa using h.1.2
    | cons b items =>
      have hfirst : (expand a).map f ≠ [] := by simpa using h.1.1
      have hothers : ((b :: items).flatMap expand).map f ≠ [] := by
        have hb := (List.forall_mem_cons.1 h.2).1.1
        simp [hb]
      rw [List.flatMap_cons, List.map_append, String.intercalate_append_of_ne_nil hfirst hothers,
        h.1.2, ih h.2]
      simp only [List.map_cons, String.intercalate_cons_cons]

theorem TypeParam.text_flat {p : TypeParam} (h : ∀ t ∈ p.types, t.flat.text = t.text) :
    p.flat.text = p.text := by
  obtain ⟨name, bound, default⟩ := p
  rw [TypeParam.flat.eq_def, TypeParam.text.eq_def, TypeParam.text.eq_def]
  cases bound <;> cases default <;> simp_all [TypeParam.types]

theorem Param.text_flat {p : Param} (h : p.type.flat.text = p.type.text) : p.flat.text = p.text := by
  cases p
  rw [Param.flat, Param.text, Param.text, h]

theorem Signature.textWith_flat {s : Signature} (separator : String)
    (h : ∀ t ∈ s.types, t.flat.text = t.text) : s.flat.textWith separator = s.textWith separator := by
  obtain ⟨typeParams, params, result⟩ := s
  simp only [Signature.types, List.mem_append, List.mem_flatMap, List.mem_map,
    List.mem_singleton] at h
  have htypeParams : (typeParams.map TypeParam.flat).map TypeParam.text =
      typeParams.map TypeParam.text := by
    rw [List.map_map]
    exact List.map_congr_left fun p hp ↦
      TypeParam.text_flat fun t ht ↦ h t (Or.inl (Or.inl ⟨p, hp, ht⟩))
  have hparams : (params.map Param.flat).map Param.text = params.map Param.text := by
    rw [List.map_map]
    exact List.map_congr_left fun p hp ↦ Param.text_flat (h _ (Or.inl (Or.inr ⟨p, hp, rfl⟩)))
  rw [Signature.flat, Signature.textWith, Signature.textWith, htypeParams, hparams,
    h result (Or.inr rfl)]

theorem TupleElement.text_flat {e : TupleElement} (h : e.type.flat.text = e.type.text) :
    e.flat.text = e.text := by
  cases e
  rw [TupleElement.flat, TupleElement.text, TupleElement.text, h,
    TypeExpr.isLoosePostfixOperand_flat]

theorem MemberForm.text_flat {m : MemberForm} (h : ∀ t ∈ m.types, t.flat.text = t.text) :
    m.flat.text = m.text := by
  cases m with
  | property name isReadonly isOptional type =>
    rw [MemberForm.flat, MemberForm.text, MemberForm.text, h type (by simp [MemberForm.types])]
  | method name isOptional signature =>
    rw [MemberForm.flat, MemberForm.text, MemberForm.text, Signature.textWith_flat _ h]
  | index isReadonly keyName keyType type =>
    rw [MemberForm.flat, MemberForm.text, MemberForm.text, h keyType (by simp [MemberForm.types]),
      h type (by simp [MemberForm.types])]
  | call signature =>
    rw [MemberForm.flat, MemberForm.text, MemberForm.text, Signature.textWith_flat _ h]
  | construct signature =>
    rw [MemberForm.flat, MemberForm.text, MemberForm.text, Signature.textWith_flat _ h]

namespace TypeExpr

variable {t u : TypeExpr}

theorem text_flat_of {c : Combination} {ts : List TypeExpr} (h : ∀ u ∈ ts, u.flat.text = u.text)
    (hwritten : ∀ u ∈ ts, u.flat.isWrittenNode = true) : (c.of ts).flat.text = (c.of ts).text := by
  have hflat : ∀ v ∈ ts.map flat, v.isWrittenNode = true := List.forall_mem_map.2 hwritten
  rw [Combination.flat_of, Combination.text_of, Combination.text_of,
    intercalate_flatMap fun v hv ↦ ⟨c.members_ne_nil (hflat v hv), c.intercalate_members v⟩,
    List.map_map]
  refine congrArg _ (List.map_congr_left fun u hu ↦ ?_)
  simp [h u hu]

/-- The text of a type shows nothing of how its combinations are put together. -/
theorem text_flat (h : t.All (·.isWrittenNode = true)) : t.flat.text = t.text := by
  induction t using induction_on_children with
  | h t ih =>
    have hchildren : ∀ u ∈ t.children, u.flat.text = u.text := fun u hu ↦ ih u hu (h.child hu)
    have hwritten : ∀ u ∈ t.children, u.flat.isWrittenNode = true := fun u hu ↦
      (allWritten_flat (h.child hu)).self
    cases t with
    | keyword word => rw [flat]
    | literal value => rw [flat]
    | reference name args =>
      have hargs : (args.map flat).map text = args.map text := by
        rw [List.map_map]
        exact List.map_congr_left hchildren
      rw [flat, text, text, hargs]
    | array element =>
      rw [flat, text, text, isLoosePostfixOperand_flat, hchildren element (by simp [children])]
    | tuple elements =>
      have helements : (elements.map TupleElement.flat).map TupleElement.text =
          elements.map TupleElement.text := by
        rw [List.map_map]
        exact List.map_congr_left fun e he ↦
          TupleElement.text_flat (hchildren _ (List.mem_map_of_mem he))
      rw [flat, text, text, helements]
    | union members => exact text_flat_of (c := .union) hchildren hwritten
    | intersection members => exact text_flat_of (c := .intersection) hchildren hwritten
    | function signature => rw [flat, text, text, Signature.textWith_flat _ hchildren]
    | construct signature => rw [flat, text, text, Signature.textWith_flat _ hchildren]
    | object members =>
      have hmembers : ∀ m ∈ members, m.flat.text = m.text := fun m hm ↦
        MemberForm.text_flat fun u hu ↦ hchildren u (List.mem_flatMap.2 ⟨m, hm, hu⟩)
      cases members with
      | nil => rw [flat, List.map_nil]
      | cons m ms =>
        rw [List.forall_mem_cons] at hmembers
        have hothers : (ms.map MemberForm.flat).map (fun m ↦ m.text ++ "; ") =
            ms.map fun m ↦ m.text ++ "; " := by
          rw [List.map_map]
          exact List.map_congr_left fun m hm ↦ congrArg (· ++ "; ") (hmembers.2 m hm)
        rw [flat, List.map_cons, text, text, hmembers.1, hothers]
    | keyOf operand =>
      rw [flat, text, text, isLoosePrefixOperand_flat, hchildren operand (by simp [children])]
    | readonly operand =>
      rw [flat, text, text, isLoosePrefixOperand_flat, hchildren operand (by simp [children])]
    | predicate parameter type =>
      rw [flat, text, text, hchildren type (by simp [children])]

end TypeExpr

/-! ### The depth of flat types -/

theorem greatest_append (ms ns : List Nat) : greatest (ms ++ ns) = max (greatest ms) (greatest ns) := by
  induction ms with
  | nil => exact (Nat.zero_max _).symm
  | cons m ms ih =>
    change max m (greatest (ms ++ ns)) = max (max m (greatest ms)) (greatest ns)
    rw [ih, Nat.max_assoc]

theorem greatest_flatMap {α : Type} {f : α → Nat} {expand : α → List α} {items : List α}
    (h : ∀ a ∈ items, greatest ((expand a).map f) = f a) :
    greatest ((items.flatMap expand).map f) = greatest (items.map f) := by
  induction items with
  | nil => rfl
  | cons a items ih =>
    rw [List.forall_mem_cons] at h
    rw [List.flatMap_cons, List.map_append, greatest_append, h.1, ih h.2]
    rfl

theorem TypeParam.depth_flat {p : TypeParam} (h : ∀ t ∈ p.types, t.flat.depth = t.depth) :
    p.flat.depth = p.depth := by
  obtain ⟨name, bound, default⟩ := p
  rw [TypeParam.flat.eq_def, TypeParam.depth.eq_def, TypeParam.depth.eq_def]
  cases bound <;> cases default <;> simp_all [TypeParam.types]

theorem Param.depth_flat {p : Param} (h : p.type.flat.depth = p.type.depth) :
    p.flat.depth = p.depth := by
  cases p
  rw [Param.flat, Param.depth, Param.depth, h]

theorem Signature.depth_flat {s : Signature} (h : ∀ t ∈ s.types, t.flat.depth = t.depth) :
    s.flat.depth = s.depth := by
  obtain ⟨typeParams, params, result⟩ := s
  simp only [Signature.types, List.mem_append, List.mem_flatMap, List.mem_map,
    List.mem_singleton] at h
  have htypeParams : (typeParams.map TypeParam.flat).map TypeParam.depth =
      typeParams.map TypeParam.depth := by
    rw [List.map_map]
    exact List.map_congr_left fun p hp ↦
      TypeParam.depth_flat fun t ht ↦ h t (Or.inl (Or.inl ⟨p, hp, ht⟩))
  have hparams : (params.map Param.flat).map Param.depth = params.map Param.depth := by
    rw [List.map_map]
    exact List.map_congr_left fun p hp ↦ Param.depth_flat (h _ (Or.inl (Or.inr ⟨p, hp, rfl⟩)))
  rw [Signature.flat, Signature.depth, Signature.depth, htypeParams, hparams, h result (Or.inr rfl)]

theorem TupleElement.depth_flat {e : TupleElement} (h : e.type.flat.depth = e.type.depth) :
    e.flat.depth = e.depth := by
  cases e
  rw [TupleElement.flat, TupleElement.depth, TupleElement.depth, h,
    TypeExpr.isLoosePostfixOperand_flat]

theorem MemberForm.depth_flat {m : MemberForm} (h : ∀ t ∈ m.types, t.flat.depth = t.depth) :
    m.flat.depth = m.depth := by
  cases m with
  | property name isReadonly isOptional type =>
    rw [MemberForm.flat, MemberForm.depth, MemberForm.depth, h type (by simp [MemberForm.types])]
  | method name isOptional signature =>
    rw [MemberForm.flat, MemberForm.depth, MemberForm.depth, Signature.depth_flat h]
  | index isReadonly keyName keyType type =>
    rw [MemberForm.flat, MemberForm.depth, MemberForm.depth, h keyType (by simp [MemberForm.types]),
      h type (by simp [MemberForm.types])]
  | call signature =>
    rw [MemberForm.flat, MemberForm.depth, MemberForm.depth, Signature.depth_flat h]
  | construct signature =>
    rw [MemberForm.flat, MemberForm.depth, MemberForm.depth, Signature.depth_flat h]

namespace TypeExpr

variable {t u : TypeExpr}

theorem depth_flat_of {c : Combination} {ts : List TypeExpr} (h : ∀ u ∈ ts, u.flat.depth = u.depth) :
    (c.of ts).flat.depth = (c.of ts).depth := by
  rw [Combination.flat_of, Combination.depth_of, Combination.depth_of,
    greatest_flatMap fun u _ ↦ c.greatest_members u, List.map_map]
  refine congrArg greatest (List.map_congr_left fun u hu ↦ ?_)
  simp [h u hu]

theorem depth_flat (t : TypeExpr) : t.flat.depth = t.depth := by
  induction t using induction_on_children with
  | h t ih =>
    cases t with
    | keyword word => rw [flat]
    | literal value => rw [flat]
    | reference name args =>
      rw [flat, depth, depth, List.map_map]
      refine congrArg greatest (List.map_congr_left fun u hu ↦ ?_)
      exact congrArg (· + 1) (ih u hu)
    | array element =>
      rw [flat, depth, depth, isLoosePostfixOperand_flat, ih element (by simp [children])]
    | tuple elements =>
      rw [flat, depth, depth, List.map_map]
      exact congrArg greatest (List.map_congr_left fun e he ↦
        TupleElement.depth_flat (ih _ (List.mem_map_of_mem he)))
    | union members => exact depth_flat_of (c := .union) ih
    | intersection members => exact depth_flat_of (c := .intersection) ih
    | function signature => rw [flat, depth, depth, Signature.depth_flat ih]
    | construct signature => rw [flat, depth, depth, Signature.depth_flat ih]
    | object members =>
      rw [flat, depth, depth, List.map_map]
      exact congrArg greatest (List.map_congr_left fun m hm ↦
        MemberForm.depth_flat fun u hu ↦ ih u (List.mem_flatMap.2 ⟨m, hm, hu⟩))
    | keyOf operand =>
      rw [flat, depth, depth, isLoosePrefixOperand_flat, ih operand (by simp [children])]
    | readonly operand =>
      rw [flat, depth, depth, isLoosePrefixOperand_flat, ih operand (by simp [children])]
    | predicate parameter type => rw [flat, depth, depth, ih type (by simp [children])]

end TypeExpr
end TypeSurface
