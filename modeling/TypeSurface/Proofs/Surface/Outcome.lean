import TypeSurface.Proofs.Merge.Serving
import TypeSurface.Proofs.Surface.Rules

/-!
# Outcomes of building a surface

Building gives a surface exactly when nothing is wrong at any stage; otherwise it gives all that is
wrong at the first stage that fails.  The order in which the sets are installed does not matter.
-/

namespace TypeSurface

/-- Whether the installed sets are one base set and one set for the mode, among nothing else. -/
structure IsSelected (mode : Mode) (installed : List DeclarationSet)
    (base extension : DeclarationSet) : Prop where
  bases : installed.filter (·.isBase) = [base]
  extensions : installed.filter (!·.isBase) = [extension]
  mode : extension.mode = some mode

/-- Whether merged declarations keep what the profile says, the audit included if it is asked
for. -/
structure IsValid (mode : Mode) (p : Profile) (options : ValidationOptions) (d : Declarations) :
    Prop where
  mode : p.mode = mode
  coverage : ∀ r ∈ p.required, Profile.isSatisfied d r = true
  exclusions : (p.exclude options.extraExclusions).exclusionDefects d = []
  audit : options.hasIndexAudit = true → Index.auditDefects d = []

namespace Selection

variable {mode : Mode} {installed : List DeclarationSet}

/-- All that is wrong with the installed sets. -/
def defects (mode : Mode) (installed : List DeclarationSet) : List Diagnostic :=
  baseDefects (installed.filter (·.isBase)) ++ modeDefects mode (installed.filter (!·.isBase))

theorem baseDefects_eq_nil_iff {sets : List DeclarationSet} :
    baseDefects sets = [] ↔ ∃ s, sets = [s] :=
  match sets with
  | [] => by simp [baseDefects]
  | [s] => by simp [baseDefects]
  | _ :: _ :: _ => by simp [baseDefects]

theorem modeDefects_eq_nil_iff {sets : List DeclarationSet} :
    modeDefects mode sets = [] ↔ ∃ s, sets = [s] ∧ s.mode = some mode :=
  match sets with
  | [] => by simp [modeDefects]
  | [s] => by simp [modeDefects]
  | _ :: _ :: _ => by simp [modeDefects]

theorem defects_eq_nil_iff :
    defects mode installed = [] ↔ ∃ base extension, IsSelected mode installed base extension := by
  unfold defects
  rw [List.append_eq_nil_iff, baseDefects_eq_nil_iff, modeDefects_eq_nil_iff]
  constructor
  · rintro ⟨⟨base, hbase⟩, extension, hextension, hmode⟩
    exact ⟨base, extension, hbase, hextension, hmode⟩
  · rintro ⟨base, extension, hbase, hextension, hmode⟩
    exact ⟨⟨base, hbase⟩, extension, hextension, hmode⟩

theorem select_of_isSelected {base extension : DeclarationSet}
    (h : IsSelected mode installed base extension) :
    select mode installed = .ok ⟨mode, base, extension⟩ := by
  simp [select, h.bases, h.extensions, baseDefects, modeDefects, h.mode]

theorem select_of_defects (h : defects mode installed ≠ []) :
    select mode installed = .error (.configuration (defects mode installed)) := by
  unfold select
  dsimp only
  split
  · next base extension hbase hextension hnone => exact absurd hnone h
  · rfl

theorem explains_defects (mode : Mode) (installed : List DeclarationSet) :
    Rule.Explains Rule.ofSelection (defects mode installed) :=
  (explains_baseDefects _).append (explains_modeDefects mode _)

/-! The order of the sets can be seen in the texts of defects only. -/

end Selection

namespace MergedSurface

/-- There are no defects exactly when the profile is kept. -/
theorem defects_eq_nil_iff {m : MergedSurface} {p : Profile} {options : ValidationOptions} :
    m.defects (p.exclude options.extraExclusions) options = [] ↔
      IsValid m.mode p options m.declarations := by
  have hcoverage : (p.exclude options.extraExclusions).coverageDefects m.declarations = [] ↔
      ∀ r ∈ p.required, Profile.isSatisfied m.declarations r = true := by
    rw [Profile.coverageDefects, List.map_eq_nil_iff, Profile.missing, List.filter_eq_nil_iff]
    simp [Profile.exclude]
  have hmode : m.modeDefects (p.exclude options.extraExclusions) = [] ↔ p.mode = m.mode := by
    unfold modeDefects
    by_cases h : p.mode = m.mode <;> simp [Profile.exclude, h]
  have haudit : (if options.hasIndexAudit then Index.auditDefects m.declarations else []) = [] ↔
      (options.hasIndexAudit = true → Index.auditDefects m.declarations = []) := by
    by_cases h : options.hasIndexAudit = true <;> simp [h]
  unfold defects
  rw [List.append_eq_nil_iff, List.append_eq_nil_iff, List.append_eq_nil_iff, hmode, hcoverage,
    haudit]
  constructor
  · rintro ⟨⟨⟨h₁, h₂⟩, h₃⟩, h₄⟩
    exact ⟨h₁, h₂, h₃, h₄⟩
  · rintro ⟨h₁, h₂, h₃, h₄⟩
    exact ⟨⟨⟨h₁, h₂⟩, h₃⟩, h₄⟩

end MergedSurface

namespace Surface

variable {mode : Mode} {installed : List DeclarationSet} {p : Profile}
  {options : ValidationOptions} {base extension : DeclarationSet}

/-- What two sets make. -/
def merged (base extension : DeclarationSet) : Merged Declarations :=
  Merge.sets [base, extension]

theorem merged_eq (base extension : DeclarationSet) :
    merged base extension =
      Merge.declarations .replace base.declarations extension.declarations := by
  simp [merged, Merge.sets, Merge.addSet, Merged.clean]

/-- The defects of what two sets make: first the mode of the profile, then coverage, exclusions and
the audit. -/
def defectsOf (mode : Mode) (p : Profile) (options : ValidationOptions) (d : Declarations) :
    List Diagnostic :=
  (if p.mode = mode then [] else [.global .modeMismatch [p.mode.text, "profile", mode.text]]) ++
    p.coverageDefects d ++ (p.exclude options.extraExclusions).exclusionDefects d ++
      if options.hasIndexAudit then Index.auditDefects d else []

theorem defects_exclude (m : MergedSurface) (p : Profile) (options : ValidationOptions) :
    m.defects (p.exclude options.extraExclusions) options =
      defectsOf m.mode p options m.declarations := rfl

theorem defectsOf_eq_nil_iff {d : Declarations} :
    defectsOf mode p options d = [] ↔ IsValid mode p options d :=
  MergedSurface.defects_eq_nil_iff (m := ⟨mode, [], d, [], []⟩)

theorem build_of_defects (h : Selection.defects mode installed ≠ []) :
    build mode installed p options =
      .error (.configuration (Selection.defects mode installed)) := by
  unfold build
  rw [Selection.select_of_defects h]
  rfl

theorem build_of_isSelected (h : IsSelected mode installed base extension) :
    build mode installed p options =
      (Selection.merge ⟨mode, base, extension⟩).validate p options := by
  unfold build
  rw [Selection.select_of_isSelected h]
  rfl

theorem build_of_conflicts (h : IsSelected mode installed base extension)
    (hconflicts : (merged base extension).conflicts ≠ []) :
    build mode installed p options = .error (.merge (merged base extension).conflicts) := by
  rw [build_of_isSelected h, MergedSurface.validate, if_neg]
  · rfl
  · exact fun hempty ↦ hconflicts (List.isEmpty_iff.1 hempty)

/-- Sets that go together are held against the profile. -/
theorem build_of_clean (h : IsSelected mode installed base extension)
    (hclean : (merged base extension).conflicts = []) :
    build mode installed p options =
      if defectsOf mode p options (merged base extension).value = [] then
        .ok ⟨⟨mode, [base.info, extension.info], (merged base extension).value⟩,
          ([base, extension].filter (·.isDeprecated)).map deprecationWarning⟩
      else .error (.validation (defectsOf mode p options (merged base extension).value)) := by
  have hempty : (Selection.merge ⟨mode, base, extension⟩).conflicts.isEmpty = true :=
    List.isEmpty_iff.2 hclean
  rw [build_of_isSelected h, MergedSurface.validate, if_pos hempty]
  simp only [defects_exclude, List.isEmpty_iff]
  rfl

theorem isSelected_of_build_eq_ok {v : ValidatedSurface}
    (h : build mode installed p options = .ok v) :
    ∃ base extension, IsSelected mode installed base extension ∧
      (merged base extension).conflicts = [] ∧
        IsValid mode p options (merged base extension).value ∧
          v.surface.declarations = (merged base extension).value := by
  have hselected : Selection.defects mode installed = [] := by
    by_contra hne
    rw [build_of_defects hne] at h
    cases h
  obtain ⟨base, extension, hs⟩ := Selection.defects_eq_nil_iff.1 hselected
  have hclean : (merged base extension).conflicts = [] := by
    by_contra hne
    rw [build_of_conflicts hs hne] at h
    cases h
  rw [build_of_clean hs hclean] at h
  split at h
  · next hvalid =>
    refine ⟨base, extension, hs, hclean, defectsOf_eq_nil_iff.1 hvalid, ?_⟩
    rw [← Except.ok.inj h]
  · cases h

end Surface

namespace Surface

/-- A surface serves every user of its base set and declares what its other set declares. -/
theorem serves_base_and_realizes_extension {mode : Mode} {installed : List DeclarationSet}
    {p : Profile} {options : ValidationOptions} {v : ValidatedSurface}
    {base extension : DeclarationSet} (h : build mode installed p options = .ok v)
    (hbase : base ∈ installed) (hisBase : base.isBase = true) (hextension : extension ∈ installed)
    (hnotBase : extension.isBase = false) :
    Merge.Serves (Merge.aliases base.declarations.types extension.declarations.types)
        base.declarations v.surface.declarations ∧
      Merge.Realizes extension.declarations v.surface.declarations := by
  obtain ⟨b, e, hs, hclean, -, hv⟩ := isSelected_of_build_eq_ok h
  have hb : base ∈ installed.filter (·.isBase) := List.mem_filter.2 ⟨hbase, hisBase⟩
  have he : extension ∈ installed.filter (!·.isBase) :=
    List.mem_filter.2 ⟨hextension, by simp [hnotBase]⟩
  rw [hs.bases, List.mem_singleton] at hb
  rw [hs.extensions, List.mem_singleton] at he
  subst hb he
  have haccounted := Merge.declarations_isAccounted base.declarations extension.declarations
  rw [merged_eq] at hclean hv
  rw [hv]
  exact ⟨Merge.serves_of_clean haccounted hclean, Merge.realizes_of_clean haccounted hclean⟩

/-- One interface with one property. -/
def boxSet (id : String) (mode : Option Mode) (isReadonly : Bool) (type : TypeExpr) :
    DeclarationSet :=
  let origin : Origin := ⟨id, id ++ ".d.ts", ⟨0, 0⟩⟩
  let value : Member :=
    ⟨.named "value", some (.identifier "value"), .property type, isReadonly, false, origin⟩
  let box : Interface := ⟨"Box", [], [], .singleton value.key value, origin⟩
  { DeclarationSet.blank id mode with declarations := ⟨.singleton "Box" (.interface box), .empty⟩ }

/-- A property of type `string | number`. -/
def wideBox : DeclarationSet := boxSet "base" none false (.union [.keyword .string, .keyword .number])

/-- A readonly property of type `string`. -/
def narrowBox : DeclarationSet := boxSet "js" (some .js) true (.keyword .string)

theorem serves_base_and_realizes_extension_narrowed :
    ∃ v, build .js [wideBox, narrowBox] (.ofMode .js) ⟨false, []⟩ = .ok v ∧
      Merge.Serves .empty wideBox.declarations v.surface.declarations ∧
        Merge.Realizes narrowBox.declarations v.surface.declarations := by
  have hselected : IsSelected .js [wideBox, narrowBox] wideBox narrowBox := ⟨rfl, rfl, rfl⟩
  have hclean : (merged wideBox narrowBox).conflicts = [] := by decide +kernel
  have hvalid : defectsOf .js (.ofMode .js) ⟨false, []⟩ (merged wideBox narrowBox).value = [] := by
    decide +kernel
  have hbuild := (build_of_clean hselected hclean).trans (if_pos hvalid)
  exact ⟨_, hbuild, serves_base_and_realizes_extension hbuild (List.mem_cons_self ..) rfl
    (List.mem_cons_of_mem _ (List.mem_cons_self ..)) rfl⟩

end Surface
end TypeSurface
