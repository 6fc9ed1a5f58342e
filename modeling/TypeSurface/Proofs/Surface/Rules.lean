import TypeSurface.Binding.File
import TypeSurface.Proofs.Merge.OrderedMaps
import TypeSurface.Surface.Pipeline

/-!
# Rules of the stages

Each stage on the way to a surface reports defects of its own rules, and of no others.  All of them
are errors.
-/

namespace TypeSurface

namespace Rule

/-- The rules by which the installed sets are refused. -/
def ofSelection : List Rule :=
  [.missingBaseSet, .duplicateBaseSet, .missingModeSet, .modeMismatch, .ambiguousMode]

/-- The rules by which two declarations are refused. -/
def ofMerging : List Rule :=
  [.incompatibleMember, .conflictingTypeAlias, .conflictingValue, .declarationKindConflict,
    .typeParameterMismatch]

/-- The rules by which merged declarations are refused under a profile. -/
def ofValidation : List Rule :=
  [.modeMismatch, .missingRequiredMember, .missingRequiredGlobal, .capabilityViolation,
    .capabilityReachable, .indexTypeInconsistency]

/-- The rules by which a file is refused that can be read. -/
def ofBinding : List Rule :=
  [.malformedDirective, .missingSetHeader, .unknownMode] ++ ofMerging

/-- Whether every one of the defects breaks one of the rules. -/
def Covers (rules : List Rule) (ds : List Diagnostic) : Prop :=
  ∀ d ∈ ds, ∃ r ∈ rules, d.code = r.code

/-- Whether a diagnostic says that the rule is broken, under its code and in its category. -/
structure IsReportedBy (r : Rule) (d : Diagnostic) : Prop where
  code : d.code = r.code
  category : d.category = r.category

/-- Whether every one of the defects is reported under one of the rules. -/
def Explains (rules : List Rule) (ds : List Diagnostic) : Prop :=
  ∀ d ∈ ds, ∃ r ∈ rules, r.IsReportedBy d

namespace Explains

variable {rules : List Rule}

theorem covers {ds : List Diagnostic} (h : Explains rules ds) : Covers rules ds := by
  intro d hd
  obtain ⟨r, hr, hreported⟩ := h d hd
  exact ⟨r, hr, hreported.code⟩

/-- All rules but the one on deprecated sets are for errors. -/
theorem isError {ds : List Diagnostic} (h : Explains rules ds)
    (hrules : .deprecatedDeclarationSet ∉ rules) : ∀ d ∈ ds, d.isError = true := by
  intro d hd
  obtain ⟨r, hr, hreported⟩ := h d hd
  have hcategory : r.category = .error := by
    cases r with
    | deprecatedDeclarationSet => exact absurd hr hrules
    | _ => rfl
  simp [Diagnostic.isError, hreported.category, hcategory]

theorem mono {rules' : List Rule} (hrules : rules ⊆ rules') {ds : List Diagnostic}
    (h : Explains rules ds) : Explains rules' ds := by
  intro d hd
  obtain ⟨r, hr, hreported⟩ := h d hd
  exact ⟨r, hrules hr, hreported⟩

theorem nil : Explains rules [] := by
  intro d hd
  cases hd

theorem append {ds es : List Diagnostic} (hd : Explains rules ds) (he : Explains rules es) :
    Explains rules (ds ++ es) := by
  intro d h
  rcases List.mem_append.1 h with h | h
  · exact hd d h
  · exact he d h

theorem flatMap {α : Type} {l : List α} {f : α → List Diagnostic}
    (h : ∀ a ∈ l, Explains rules (f a)) : Explains rules (l.flatMap f) := by
  intro d hd
  obtain ⟨a, ha, hd⟩ := List.mem_flatMap.1 hd
  exact h a ha d hd

theorem singleton {r : Rule} (hr : r ∈ rules) {d : Diagnostic} (hd : r.IsReportedBy d) :
    Explains rules [d] := by
  intro e he
  rw [List.mem_singleton.1 he]
  exact ⟨r, hr, hd⟩

theorem ite {P : Prop} [Decidable P] {ds es : List Diagnostic} (hd : Explains rules ds)
    (he : Explains rules es) : Explains rules (if P then ds else es) := by
  split
  · exact hd
  · exact he

end Explains

end Rule

open Rule

theorem Selection.explains_baseDefects (sets : List DeclarationSet) :
    Explains ofSelection (Selection.baseDefects sets) :=
  match sets with
  | [] => .singleton (r := .missingBaseSet) (by simp [ofSelection]) ⟨rfl, rfl⟩
  | [_] => .nil
  | _ :: _ :: _ => .singleton (r := .duplicateBaseSet) (by simp [ofSelection]) ⟨rfl, rfl⟩

theorem Selection.explains_modeDefects (mode : Mode) (sets : List DeclarationSet) :
    Explains ofSelection (Selection.modeDefects mode sets) :=
  match sets with
  | [] => .singleton (r := .missingModeSet) (by simp [ofSelection]) ⟨rfl, rfl⟩
  | [_] => .ite .nil (.singleton (r := .modeMismatch) (by simp [ofSelection]) ⟨rfl, rfl⟩)
  | _ :: _ :: _ => .singleton (r := .ambiguousMode) (by simp [ofSelection]) ⟨rfl, rfl⟩

namespace Merge

variable (types : OrderedMap String TypeEntry) (policy : Policy)

theorem explains_kindConflict (name baseKind : String) (base : Origin) (extensionKind : String)
    (extension : Origin) :
    Explains ofMerging [kindConflict name baseKind base extensionKind extension] :=
  .singleton (r := .declarationKindConflict) (by simp [ofMerging]) ⟨rfl, rfl⟩

theorem explains_valueConflict (name baseText extensionText : String) (base extension : Origin) :
    Explains ofMerging [valueConflict name baseText extensionText base extension] :=
  .singleton (r := .conflictingValue) (by simp [ofMerging]) ⟨rfl, rfl⟩

/-- Of two maps only entries of one key conflict. -/
theorem explains_mapsWith {κ ν : Type} [DecidableEq κ] {f : κ → ν → ν → Merged ν}
    (hf : ∀ k b e, Explains ofMerging (f k b e).conflicts) (base extension : OrderedMap κ ν) :
    Explains ofMerging (mapsWith f base extension).conflicts := by
  rw [mapsWith_conflicts]
  refine .flatMap fun e _ ↦ ?_
  unfold metConflicts
  split
  · exact .nil
  · exact hf _ _ _

theorem explains_members (owner : String) (key : MemberKey) (base extension : Member) :
    Explains ofMerging (members types policy owner key base extension).conflicts := by
  unfold members
  split
  · exact .nil
  · exact .singleton (r := .incompatibleMember) (by simp [ofMerging]) ⟨rfl, rfl⟩

theorem explains_interfaces (base extension : Interface) :
    Explains ofMerging (interfaces types policy base extension).conflicts :=
  .append (.ite .nil (.singleton (r := .typeParameterMismatch) (by simp [ofMerging]) ⟨rfl, rfl⟩))
    (explains_mapsWith (explains_members types policy base.name) _ _)

theorem explains_typeEntries (name : String) (base extension : TypeEntry) :
    Explains ofMerging (typeEntries types policy name base extension).conflicts :=
  match base, extension with
  | .interface b, .interface e => explains_interfaces types policy b e
  | .typeAlias _, .typeAlias _ =>
    .ite .nil (.singleton (r := .conflictingTypeAlias) (by simp [ofMerging]) ⟨rfl, rfl⟩)
  | .interface _, .typeAlias _ => explains_kindConflict _ _ _ _ _
  | .typeAlias _, .interface _ => explains_kindConflict _ _ _ _ _

theorem explains_functionEntries (name : String) (base extension : Function) :
    Explains ofMerging (functionEntries types policy name base extension).conflicts := by
  unfold functionEntries
  split
  · exact .nil
  · exact explains_valueConflict _ _ _ _ _

theorem explains_variableEntries (name : String) (base extension : Variable) :
    Explains ofMerging (variableEntries name base extension).conflicts :=
  .ite (explains_kindConflict _ _ _ _ _) (.ite (explains_valueConflict _ _ _ _ _) .nil)

theorem explains_valueEntries (name : String) (base extension : ValueEntry) :
    Explains ofMerging (valueEntries types policy name base extension).conflicts :=
  match base, extension with
  | .variable b, .variable e => explains_variableEntries name b e
  | .function b, .function e => explains_functionEntries types policy name b e
  | .variable _, .function _ => explains_kindConflict _ _ _ _ _
  | .function _, .variable _ => explains_kindConflict _ _ _ _ _

theorem explains_conflicts (base extension : Declarations) :
    Explains ofMerging (declarations policy base extension).conflicts :=
  (explains_mapsWith (explains_typeEntries _ policy) _ _).append
    (explains_mapsWith (explains_valueEntries _ policy) _ _)

end Merge

namespace Profile

theorem explains_coverageDefects (p : Profile) (d : Declarations) :
    Explains ofValidation (p.coverageDefects d) := by
  intro e he
  obtain ⟨r, -, rfl⟩ := List.mem_map.1 he
  cases r with
  | member owner name => exact ⟨.missingRequiredMember, by simp [ofValidation], ⟨rfl, rfl⟩⟩
  | «global» name => exact ⟨.missingRequiredGlobal, by simp [ofValidation], ⟨rfl, rfl⟩⟩

theorem explains_exposureDefects (p : Profile) (owner : String) (origin : Origin)
    (found : List Exposure) : Explains ofValidation (p.exposureDefects owner origin found) := by
  intro e he
  obtain ⟨x, -, rfl⟩ := List.mem_map.1 he
  exact ⟨.capabilityReachable, by simp [ofValidation], ⟨rfl, rfl⟩⟩

theorem explains_declarationDefects (p : Profile) (d : Declarations) :
    Explains ofValidation (p.declarationDefects d) := by
  intro e he
  obtain ⟨name, -, hname⟩ := List.mem_filterMap.1 he
  obtain ⟨origin, -, rfl⟩ := Option.map_eq_some_iff.1 hname
  exact ⟨.capabilityViolation, by simp [ofValidation], ⟨rfl, rfl⟩⟩

theorem explains_exclusionDefects (p : Profile) (d : Declarations) :
    Explains ofValidation (p.exclusionDefects d) :=
  ((p.explains_declarationDefects d).append
    (.flatMap fun e _ ↦ p.explains_exposureDefects e.1 e.2.origin _)).append
      (.flatMap fun e _ ↦ p.explains_exposureDefects e.1 e.2.origin _)

end Profile

namespace Index

variable (types : OrderedMap String TypeEntry)

theorem explains_inconsistency (s : Site) (member : String) (t : TypeExpr) :
    Explains ofValidation [inconsistency s member t] :=
  .singleton (r := .indexTypeInconsistency) (by simp [ofValidation]) ⟨rfl, rfl⟩

theorem explains_checkIndex (s : Site) (member : String) (t : TypeExpr) :
    Explains ofValidation (checkIndex types s member t) :=
  .ite .nil (explains_inconsistency s member t)

theorem explains_checkNumeric (s : Site) (member : String) (t : TypeExpr) :
    Explains ofValidation (checkNumeric types s member t) :=
  .ite (explains_inconsistency s member t) .nil

theorem explains_checkParams (s : Site) (signature : Signature) :
    Explains ofValidation (checkParams types s signature) :=
  .flatMap fun p _ ↦ .ite (explains_checkIndex types s _ p.type)
    (.ite (explains_checkNumeric types s _ p.type) .nil)

theorem explains_checkCallbacks (s : Site) (depth : Nat) (t : TypeExpr) :
    Explains ofValidation (checkCallbacks types s depth t) := by
  induction depth generalizing t with
  | zero => exact .nil
  | succ depth ih =>
    unfold checkCallbacks
    split
    · exact ih _
    · split
      · exact explains_checkParams types s.callback _
      · exact .flatMap fun m _ ↦ ih m
      · exact .nil

theorem explains_checkSignature (s : Site) (name : String) (signature : Signature) :
    Explains ofValidation (checkSignature types s name signature) :=
  ((Explains.ite (explains_checkIndex types s _ signature.result) .nil).append
    (explains_checkParams types s signature)).append
      (.flatMap fun p _ ↦ explains_checkCallbacks types s _ p.type)

theorem explains_checkProperty (interface name : String) (origin : Origin) (t : TypeExpr) :
    Explains ofValidation (checkProperty types interface name origin t) := by
  unfold checkProperty
  refine .append (.ite (explains_checkIndex types _ name t) .nil) ?_
  split
  · exact explains_checkSignature types _ name _
  · exact .nil

theorem explains_checkMember (interface : String) (key : MemberKey) (m : Member) :
    Explains ofValidation (checkMember types interface key m) := by
  unfold checkMember
  split
  · exact explains_checkProperty types interface _ m.origin _
  · exact explains_checkNumeric types _ _ _
  · exact .flatMap fun s _ ↦ explains_checkSignature types _ _ s
  · exact .flatMap fun s _ ↦ explains_checkSignature types _ _ s
  · exact .flatMap fun s _ ↦ explains_checkSignature types _ _ s
  · exact .nil

theorem explains_checkType (name : String) (entry : TypeEntry) :
    Explains ofValidation (checkType types name entry) :=
  match entry with
  | .interface _ => .flatMap fun e _ ↦ explains_checkMember types name e.1 e.2
  | .typeAlias _ => .nil

theorem explains_checkValue (name : String) (entry : ValueEntry) :
    Explains ofValidation (checkValue types name entry) :=
  match entry with
  | .function _ => .flatMap fun s _ ↦ explains_checkSignature types _ name s
  | .variable _ => .nil

theorem explains_auditDefects (d : Declarations) : Explains ofValidation (auditDefects d) :=
  (Explains.flatMap fun e _ ↦ explains_checkType d.types e.1 e.2).append
    (.flatMap fun e _ ↦ explains_checkValue d.types e.1 e.2)

end Index

namespace MergedSurface

theorem explains_defects (m : MergedSurface) (p : Profile) (options : ValidationOptions) :
    Explains ofValidation (m.defects p options) := by
  have hmode : Explains ofValidation (m.modeDefects p) :=
    .ite .nil (.singleton (r := .modeMismatch) (by simp [ofValidation]) ⟨rfl, rfl⟩)
  exact ((hmode.append (p.explains_coverageDefects m.declarations)).append
    (p.explains_exclusionDefects m.declarations)).append
      (.ite (Index.explains_auditDefects m.declarations) .nil)

end MergedSurface
/-! ### Files -/

namespace Binding

theorem explains_foldl_addMember (c : Context) (ms : List PlacedMember) {merged : Merged Interface}
    (h : Explains ofMerging merged.conflicts) :
    Explains ofMerging (ms.foldl (addMember c) merged).conflicts := by
  induction ms generalizing merged with
  | nil => exact h
  | cons m ms ih =>
    apply ih
    exact h.append (Merge.explains_interfaces _ _ _ _)

theorem explains_single (c : Context) (s : Statement) :
    Explains ofMerging (single c s).conflicts := by
  obtain ⟨name, nameSpan, span, body⟩ := s
  rcases body with ⟨typeParams, heritage, members⟩ | ⟨typeParams, type⟩ | ⟨kind, type⟩ | signature
  · exact explains_foldl_addMember c members .nil
  · exact .nil
  · exact .nil
  · exact .nil

theorem explains_foldl_addStatement (c : Context) (ss : List Statement)
    {merged : Merged Declarations} (h : Explains ofMerging merged.conflicts) :
    Explains ofMerging (ss.foldl (addStatement c) merged).conflicts := by
  induction ss generalizing merged with
  | nil => exact h
  | cons s ss ih =>
    apply ih
    exact (h.append (explains_single c s)).append (Merge.explains_conflicts _ _ _)

theorem explains_header (f : SourceFile) :
    Explains ofBinding (problemOf? (header f)).toList := by
  unfold header
  split
  · exact .singleton (r := .missingSetHeader) (by simp [ofBinding]) ⟨rfl, rfl⟩
  · next d _ =>
    split
    · exact .singleton (r := .malformedDirective) (by simp [ofBinding]) ⟨rfl, rfl⟩
    · unfold headerMode
      split
      · exact .nil
      · split
        · exact .nil
        · exact .singleton (r := .unknownMode) (by simp [ofBinding]) ⟨rfl, rfl⟩

theorem explains_references (f : SourceFile) :
    Explains ofBinding ((references f).filterMap problemOf?) := by
  intro e he
  obtain ⟨reference, hreference, he⟩ := List.mem_filterMap.1 he
  obtain ⟨d, -, rfl⟩ := List.mem_map.1 hreference
  split at he
  · cases he
  · cases he
    exact ⟨.malformedDirective, by simp [ofBinding], ⟨rfl, rfl⟩⟩

end Binding

namespace DeclarationSet

theorem isError_problems (f : SourceFile) (c : Binding.Context) :
    ∀ d ∈ f.problems.filter (·.isError) ++ (Binding.problemOf? (Binding.header f)).toList ++
        (Binding.references f).filterMap Binding.problemOf? ++
          (Binding.statements c f.statements).conflicts, d.isError = true := by
  have hown : ∀ d ∈ f.problems.filter (·.isError), d.isError = true :=
    fun d hd ↦ (List.mem_filter.1 hd).2
  have hconflicts : Explains ofBinding (Binding.statements c f.statements).conflicts :=
    (Binding.explains_foldl_addStatement c _ .nil).mono (List.subset_append_right _ _)
  have hothers : ∀ d ∈ (Binding.problemOf? (Binding.header f)).toList ++
      (Binding.references f).filterMap Binding.problemOf? ++
        (Binding.statements c f.statements).conflicts, d.isError = true :=
    (((Binding.explains_header f).append (Binding.explains_references f)).append hconflicts).isError
      (by simp [ofBinding, ofMerging])
  intro d hd
  rw [List.append_assoc, List.append_assoc, List.mem_append, ← List.append_assoc] at hd
  exact hd.elim (hown d) (hothers d)

/-- A text that declares no set has a defect, and all its defects are errors. -/
theorem isError_of_parse {file source : String} {defects : List Diagnostic}
    (h : parse file source = .error defects) :
    defects ≠ [] ∧ ∀ d ∈ defects, d.isError = true := by
  unfold parse ofSourceFile at h
  dsimp only at h
  generalize hf : SourceFile.parse file source = f at h
  -- The header is only read for the context.
  split at h
  all_goals
    split at h
    · cases h
    · next hproblems =>
      cases h
      exact ⟨fun hnil ↦ hproblems (List.isEmpty_iff.2 hnil), isError_problems f _⟩

end DeclarationSet
end TypeSurface
