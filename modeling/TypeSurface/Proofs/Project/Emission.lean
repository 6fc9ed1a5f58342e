import TypeSurface.CommandLine.Run
import TypeSurface.Proofs.Declaration.WellFormed
import TypeSurface.Proofs.FileTree.Writing
import TypeSurface.Proofs.Project.Loading
import TypeSurface.Proofs.Surface.Outcome

/-!
# Emission

A build has a surface exactly when it reports no error, whatever stage it fails at, and a run prints
this surface, or writes it into a file that is found there afterwards, exactly when it ends with exit
code zero.
-/

namespace TypeSurface

theorem exists_of_bind_eq_ok {ε α β : Type} {e : Except ε α} {f : α → Except ε β} {b : β}
    (h : e >>= f = .ok b) : ∃ a, e = .ok a ∧ f a = .ok b := by
  cases e with
  | error _ => cases h
  | ok a => exact ⟨a, rfl, h⟩

theorem eq_ok_of_mapError {ε ε' α : Type} {f : ε → ε'} {e : Except ε α} {a : α}
    (h : e.mapError f = .ok a) : e = .ok a := by
  cases e with
  | error _ => cases h
  | ok _ => exact congrArg Except.ok (Except.ok.inj h)

/-! ### Stages -/

/-- Whether something that failed says why: there is a defect, and all defects are errors. -/
structure SurfaceError.IsJustified (e : SurfaceError) : Prop where
  ne_nil : e.diagnostics ≠ []
  isError : ∀ d ∈ e.diagnostics, d.isError = true

namespace Surface

variable {mode : Mode} {installed : List DeclarationSet} {p : Profile}
  {options : ValidationOptions}

theorem isJustified_of_build {e : SurfaceError}
    (h : build mode installed p options = .error e) : e.IsJustified := by
  by_cases hselected : Selection.defects mode installed = []
  · obtain ⟨base, extension, hs⟩ := Selection.defects_eq_nil_iff.1 hselected
    by_cases hclean : (merged base extension).conflicts = []
    · rw [build_of_clean hs hclean] at h
      split at h
      · cases h
      · next hdefects =>
        cases h
        refine ⟨hdefects, ?_⟩
        exact (MergedSurface.explains_defects ⟨mode, [], (merged base extension).value, [], []⟩
          (p.exclude options.extraExclusions) options).isError (by simp [Rule.ofValidation])
    · rw [build_of_conflicts hs hclean] at h
      cases h
      refine ⟨hclean, ?_⟩
      rw [merged_eq]
      exact (Merge.explains_conflicts _ _ _).isError (by simp [Rule.ofMerging])
  · rw [build_of_defects hselected] at h
    cases h
    exact ⟨hselected, (Selection.explains_defects mode installed).isError
      (by simp [Rule.ofSelection])⟩

/-- A surface comes with warnings only. -/
theorem isError_of_build {v : ValidatedSurface} (h : build mode installed p options = .ok v) :
    ∀ d ∈ v.warnings, d.isError = false := by
  obtain ⟨base, extension, hs, hclean, -, -⟩ := isSelected_of_build_eq_ok h
  rw [build_of_clean hs hclean] at h
  split at h
  · cases h
    intro d hd
    obtain ⟨S, -, rfl⟩ := List.mem_map.1 hd
    rfl
  · cases h

theorem text_ne_empty (s : Surface) : s.text ≠ "" := by
  intro h
  have hchars := congrArg String.toList h
  simp [text, lineOf, String.toList_append] at hchars

theorem emitted_ne_empty (s : Surface) (emission : Emission) (isPretty : Bool) :
    s.emitted emission isPretty ≠ "" := by
  cases emission with
  | declarations => exact s.text_ne_empty
  | json =>
    intro h
    have hchars := congrArg String.toList h
    simp [emitted, lineOf, String.toList_append] at hchars

end Surface

theorem Loading.isJustified_of_error? {l : Loading} {e : SurfaceError} (h : l.GathersErrors)
    (he : l.error? = some e) : e.IsJustified := by
  unfold error? at he
  split at he
  · next hsyntax =>
    cases he
    have hne : l.syntaxErrors ≠ [] := by simpa using hsyntax
    exact ⟨hne, fun d hd ↦ h d (List.mem_append_left _ hd)⟩
  · split at he
    · next hconfig =>
      cases he
      have hne : l.configErrors ≠ [] := by simpa using hconfig
      exact ⟨hne, fun d hd ↦ h d (List.mem_append_right _ hd)⟩
    · cases he

/-! ### Builds -/

namespace Settings

variable {s : Settings} {t : FileTree} {b : Build}

theorem isJustified_of_outcome {l : Loading} {e : SurfaceError} (h : l.GathersErrors)
    (he : s.outcome l = .error e) : e.IsJustified := by
  unfold outcome at he
  split at he
  · next e' hfound =>
    cases he
    exact Loading.isJustified_of_error? h hfound
  · exact Surface.isJustified_of_build he

theorem isError_of_outcome {l : Loading} {v : ValidatedSurface} (hv : s.outcome l = .ok v) :
    ∀ d ∈ v.warnings, d.isError = false := by
  unfold outcome at hv
  split at hv
  · cases hv
  · exact Surface.isError_of_build hv

theorem exists_outcome_of_build (h : s.build t = .ok b) :
    ∃ l : Loading, l.GathersErrors ∧ b.outcome = s.outcome l := by
  unfold build at h
  obtain ⟨index, -, h⟩ := exists_of_bind_eq_ok h
  obtain ⟨l, hresult, h⟩ := exists_of_bind_eq_ok h
  have hloaded : l = Loading.run t index s.requested := by
    unfold Loading.result at hresult
    split at hresult
    · cases hresult
    · exact (Except.ok.inj hresult).symm
  cases h
  exact ⟨l, hloaded ▸ Loading.GathersErrors.run t index s.requested, rfl⟩

end Settings

/-- Whether a build has a surface exactly when it is published, and exactly when nothing that it
reports is an error. -/
structure Build.IsDecided (b : Build) : Prop where
  published : b.surface?.isSome = true ↔ b.stage = .published
  faultless : b.stage = .published ↔ ∀ d ∈ b.diagnostics, d.isError = false
  justified : b.surface? = none → ∃ d ∈ b.diagnostics, d.isError = true

theorem SurfaceError.stage_ne_published (e : SurfaceError) : e.stage ≠ .published := by
  cases e <;> simp [stage]

theorem SurfaceError.IsJustified.exists_isError {e : SurfaceError} (h : e.IsJustified) :
    ∃ d ∈ e.diagnostics, d.isError = true := by
  obtain ⟨d, hd⟩ := List.exists_mem_of_ne_nil _ h.ne_nil
  exact ⟨d, hd, h.isError d hd⟩

theorem Settings.isDecided_of_build {s : Settings} {t : FileTree} {b : Build}
    (h : s.build t = .ok b) : b.IsDecided := by
  obtain ⟨l, hl, houtcome⟩ := exists_outcome_of_build h
  obtain ⟨mode, ids, sources, outcome⟩ := b
  obtain rfl : outcome = s.outcome l := houtcome
  cases hresult : s.outcome l with
  | ok v => exact ⟨⟨fun _ ↦ rfl, fun _ ↦ rfl⟩, ⟨fun _ ↦ isError_of_outcome hresult, fun _ ↦ rfl⟩, nofun⟩
  | error e =>
    obtain ⟨d, hd, hisError⟩ := (isJustified_of_outcome hl hresult).exists_isError
    have hstage : e.stage ≠ .published := e.stage_ne_published
    refine ⟨⟨nofun, fun h ↦ absurd h hstage⟩, ⟨fun h ↦ absurd h hstage, fun h ↦ ?_⟩,
      fun _ ↦ ⟨d, hd, hisError⟩⟩
    have hno := h d hd
    rw [hisError] at hno
    cases hno

/-! ### Runs -/

theorem FileTree.exists_puts_of_output {t t' : FileTree} {path : Path} {text : String}
    (h : t.output path text = .ok t') : ∃ location, t.Puts t' path text location := by
  unfold output at h
  obtain ⟨made, hmade, h⟩ := exists_of_bind_eq_ok h
  exact (addsDirectories_of_ensureDirectory (eq_ok_of_mapError hmade)).exists_puts
    (eq_ok_of_mapError h)

namespace Outcome

variable {out : Outcome}

theorem exitCode_eq_zero_iff : out.exitCode = 0 ↔ ∀ d ∈ out.diagnostics, d.isError = false := by
  unfold exitCode hasErrors
  cases h : out.diagnostics.any (·.isError) with
  | true =>
    obtain ⟨d, hd, hisError⟩ := List.any_eq_true.1 h
    refine ⟨nofun, fun hno ↦ ?_⟩
    have := hno d hd
    rw [hisError] at this
    cases this
  | false => simpa using h

/-- Whether a text is printed, and all files are left as they are. -/
structure Prints (out : Outcome) (t : FileTree) (text : String) : Prop where
  output : out.output = text
  written : out.written = none
  files : out.files = t

/-- Whether nothing is printed, and a text is found in the file at a path. -/
structure Writes (out : Outcome) (t : FileTree) (path : Path) (text : String) : Prop where
  output : out.output = ""
  written : out.written = some path
  puts : ∃ location, t.Puts out.files path text location

end Outcome

namespace Options

variable {o : Options} {t : FileTree} {current : Path} {out : Outcome}

/-- Whether the text of a surface is printed or, if the options name a file, written there. -/
def Emits (o : Options) (t : FileTree) (current : Path) (surface : Surface) (out : Outcome) :
    Prop :=
  let text := surface.emitted (o.emission.getD .declarations) o.isPretty
  text ≠ "" ∧
    match o.out with
    | none => out.Prints t text
    | some path => out.Writes t (current.join path) text

/-- What prints nothing emits no surface. -/
theorem Emits.not_prints {surface : Surface} (h : o.Emits t current surface out) :
    ¬out.Prints t "" := by
  intro hprints
  obtain ⟨hne, hends⟩ := h
  split at hends
  · exact hne (hends.output.symm.trans hprints.output)
  · have hwritten := hends.written
    rw [hprints.written] at hwritten
    cases hwritten

/-- How a run ends that has built something: it reports what the build does, and emits the surface
of the build or, without one, nothing. -/
structure Ends (o : Options) (t : FileTree) (current : Path) (b : Build) (out : Outcome) :
    Prop where
  diagnostics : out.diagnostics = b.diagnostics
  sources : out.sources = b.sources
  emits : ∀ surface, b.surface? = some surface → o.Emits t current surface out
  prints : b.surface? = none → out.Prints t ""

theorem exists_ends_of_runBuild {settings : Settings}
    (h : o.runBuild settings t current = .ok out) :
    ∃ b, settings.build t = .ok b ∧ o.Ends t current b out := by
  unfold runBuild at h
  obtain ⟨b, hbuild, h⟩ := exists_of_bind_eq_ok h
  refine ⟨b, hbuild, ?_⟩
  cases hsurface : b.surface? with
  | none =>
    rw [hsurface] at h
    cases h
    refine ⟨rfl, rfl, fun surface hsome ↦ ?_, fun _ ↦ ⟨rfl, rfl, rfl⟩⟩
    rw [hsurface] at hsome
    cases hsome
  | some surface =>
    have hne := surface.emitted_ne_empty (o.emission.getD .declarations) o.isPretty
    rw [hsurface] at h
    -- It is enough that the run reports what the build does and emits its surface.
    suffices out.diagnostics = b.diagnostics ∧ out.sources = b.sources ∧
        o.Emits t current surface out by
      obtain ⟨hdiagnostics, hsources, hemits⟩ := this
      refine ⟨hdiagnostics, hsources, fun surface' hsome ↦ ?_, fun hnone ↦ ?_⟩
      · rw [hsurface] at hsome
        cases hsome
        exact hemits
      · rw [hsurface] at hnone
        cases hnone
    unfold Emits
    cases hout : o.out with
    | none =>
      rw [hout] at h
      cases h
      exact ⟨rfl, rfl, hne, rfl, rfl, rfl⟩
    | some path =>
      rw [hout] at h
      obtain ⟨t', houtput, h⟩ := exists_of_bind_eq_ok h
      cases h
      exact ⟨rfl, rfl, hne, rfl, rfl, FileTree.exists_puts_of_output houtput⟩

theorem exists_runBuild_of_run (hlists : o.listsSets = false) (hconfig : o.showsConfig = false)
    (hprofile : o.showsProfile = false) (h : o.run t current = .ok out) :
    ∃ settings, o.settings t current = .ok settings ∧
      o.runBuild settings t current = .ok out := by
  unfold run at h
  rw [hlists, if_neg Bool.false_ne_true] at h
  obtain ⟨settings, hsettings, h⟩ := exists_of_bind_eq_ok h
  rw [hconfig, hprofile, if_neg Bool.false_ne_true, if_neg Bool.false_ne_true] at h
  exact ⟨settings, hsettings, h⟩

theorem Ends.exitCode_eq_zero_iff {b : Build} (h : o.Ends t current b out) (hb : b.IsDecided) :
    out.exitCode = 0 ↔ b.surface?.isSome = true := by
  rw [Outcome.exitCode_eq_zero_iff, h.diagnostics, hb.published, hb.faultless]

/-- A build has a surface exactly when it reports no error, and so a run that builds one prints the
text of this surface, or puts it into the file that is asked for, exactly when it ends with exit
code zero; otherwise it prints nothing and leaves all files as they are. -/
theorem emits_iff_exitCode_eq_zero :
    (∀ (s : Settings) (t : FileTree) (b : Build), s.build t = .ok b → b.IsDecided) ∧
      ∀ (o : Options) (t : FileTree) (current : Path) (out : Outcome), o.listsSets = false →
        o.showsConfig = false → o.showsProfile = false → o.run t current = .ok out →
          ∃ settings b, o.settings t current = .ok settings ∧ settings.build t = .ok b ∧
            out.diagnostics = b.diagnostics ∧
              (out.exitCode = 0 ↔
                ∃ surface, b.surface? = some surface ∧ o.Emits t current surface out) ∧
              (out.exitCode ≠ 0 ↔ out.Prints t "") := by
  refine ⟨fun s t b h ↦ Settings.isDecided_of_build h, ?_⟩
  intro o t current out hlists hconfig hprofile hrun
  obtain ⟨settings, hsettings, hrunBuild⟩ := exists_runBuild_of_run hlists hconfig hprofile hrun
  obtain ⟨b, hbuild, hends⟩ := exists_ends_of_runBuild hrunBuild
  have hcode := hends.exitCode_eq_zero_iff (Settings.isDecided_of_build hbuild)
  have hemits : out.exitCode = 0 →
      ∃ surface, b.surface? = some surface ∧ o.Emits t current surface out := by
    intro hzero
    obtain ⟨surface, hsurface⟩ := Option.isSome_iff_exists.1 (hcode.1 hzero)
    exact ⟨surface, hsurface, hends.emits surface hsurface⟩
  refine ⟨settings, b, hsettings, hbuild, hends.diagnostics, ⟨hemits, ?_⟩, fun hne ↦ ?_, ?_⟩
  · rintro ⟨surface, hsurface, -⟩
    exact hcode.2 (hsurface ▸ rfl)
  · rw [ne_eq, hcode, Option.not_isSome_iff_eq_none] at hne
    exact hends.prints hne
  · intro hprints hzero
    obtain ⟨surface, -, hemits⟩ := hemits hzero
    exact hemits.not_prints hprints

/-- A base set, and a set for a mode that demands nothing of the base. -/
def nativeTree : FileTree :=
  (FileTree.empty.addFile ["base.d.ts"]
    "/// <set id=\"base\" />\ninterface Box \x7b name: string \x7d").addFile
      ["native.d.ts"] "/// <set id=\"native\" mode=\"host-native\" />"

/-- Options that ask for these sets, and for a file in a directory that is to be made. -/
def nativeOptions : Options :=
  { blank with
    mode := some "host-native"
    sets := some ["base.d.ts", "native.d.ts"]
    out := some ⟨"out/surface.d.ts"⟩ }

/-- The surface of these sets. -/
def nativeText : String :=
  "// jsm global type surface\n// mode: host-native\n// sets: base@0.0.0, native@0.0.0\n\n" ++
    "interface Box \x7b\n    name: string;\n\x7d\n\n"

/-- Options that ask for a set that is nowhere. -/
def unknownSetOptions : Options := { blank with sets := some ["none"] }

/-- The surface of two sets is written into a file, and one that cannot be built leaves nothing. -/
theorem emits_iff_exitCode_eq_zero_nativeTree :
    (∃ (b : Build) (surface : Surface) (out : Outcome), b.IsDecided ∧ b.surface? = some surface ∧
      nativeOptions.run nativeTree ⟨"/"⟩ = .ok out ∧ out.exitCode = 0 ∧
        nativeOptions.Emits nativeTree ⟨"/"⟩ surface out ∧
          out.files.read ⟨"/out/surface.d.ts"⟩ = .ok nativeText) ∧
      ∃ out, unknownSetOptions.run .empty ⟨"/"⟩ = .ok out ∧ out.exitCode = 1 ∧
        out.Prints .empty "" := by
  have hwritten : (nativeOptions.run nativeTree ⟨"/"⟩).toOption.map
      (fun out ↦ (out.exitCode, (out.files.read ⟨"/out/surface.d.ts"⟩).toOption)) =
        some (0, some nativeText) := by decide +kernel
  have hunknown : (unknownSetOptions.run .empty ⟨"/"⟩).toOption.map Outcome.exitCode = some 1 := by
    decide +kernel
  constructor
  · obtain ⟨out, hout, hends⟩ := Option.map_eq_some_iff.1 hwritten
    obtain ⟨hcode, htext⟩ := Prod.mk.inj hends
    have hrun := DeclarationSet.eq_ok_of_toOption hout
    obtain ⟨settings, b, -, hbuild, -, hemits, -⟩ :=
      emits_iff_exitCode_eq_zero.2 nativeOptions nativeTree ⟨"/"⟩ out rfl rfl rfl hrun
    obtain ⟨surface, hsurface, hsurfaces⟩ := hemits.1 hcode
    exact ⟨b, surface, out, emits_iff_exitCode_eq_zero.1 _ _ _ hbuild, hsurface, hrun, hcode,
      hsurfaces, DeclarationSet.eq_ok_of_toOption htext⟩
  · obtain ⟨out, hout, hcode⟩ := Option.map_eq_some_iff.1 hunknown
    have hrun := DeclarationSet.eq_ok_of_toOption hout
    obtain ⟨settings, b, -, -, -, -, hprints⟩ :=
      emits_iff_exitCode_eq_zero.2 unknownSetOptions .empty ⟨"/"⟩ out rfl rfl rfl hrun
    exact ⟨out, hrun, hcode, hprints.1 (by rw [hcode]; decide)⟩

end Options
end TypeSurface
