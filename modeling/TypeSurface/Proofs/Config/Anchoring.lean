import TypeSurface.Config.Inheritance
import TypeSurface.Proofs.FileTree.Directory
import TypeSurface.Proofs.Syntax.Tag

/-!
# Paths in inherited configurations

A configuration whose paths have been fixed comes to the same settings in every directory: a path
that starts at the root is still that path when it is read a second time.
-/

namespace TypeSurface

namespace Text

/-- A text that neither starts nor ends in white space has none to lose. -/
theorem trimmed_eq_self {s : String} (hfirst : ∀ c ∈ s.toList.head?, CharClass.isWhiteSpace c = false)
    (hlast : ∀ c ∈ s.toList.getLast?, CharClass.isWhiteSpace c = false) : trimmed s = s := by
  have hend : trimEnd s.toList = s.toList := by
    show s.toList.rdropWhile CharClass.isWhiteSpace = s.toList
    rw [List.rdropWhile_eq_self_iff]
    intro hne
    simp [hlast _ (List.getLast?_eq_some_getLast hne)]
  rw [trimmed, trim, trimStart_of_head hfirst, hend, String.ofList_toList]

theorem getLast?_trimmed {s : String} :
    ∀ c ∈ (trimmed s).toList.getLast?, CharClass.isWhiteSpace c = false := by
  intro c hc
  rw [trimmed, String.toList_ofList] at hc
  obtain ⟨hne, rfl⟩ := List.mem_getLast?_eq_getLast hc
  exact Bool.eq_false_iff.2
    (List.rdropWhile_last_not CharClass.isWhiteSpace (trimStart s.toList) hne)

end Text

namespace Path

theorem getLast?_join (base : Path) {p : Path} (hp : p.text.toList ≠ []) :
    (base.join p).text.toList.getLast? = p.text.toList.getLast? := by
  unfold join
  split
  · rfl
  · split <;> simp only [String.toList_append, List.getLast?_append_of_ne_nil _ hp]

/-- A path that is absolute is joined to nothing. -/
theorem join_eq_self {p : Path} (h : p.isAbsolute = true) (base : Path) : base.join p = p := by
  rw [join, if_pos h]

end Path

namespace SetSource

/-- The text of a source whose path is no longer relative to `directory`. -/
def anchorText (directory : Path) (text : String) : String :=
  if isPath (Text.trimmed text) then (directory.join ⟨Text.trimmed text⟩).text else text

theorem ne_nil_of_isPath {text : String} (h : isPath text = true) : text.toList ≠ [] := by
  intro hnil
  rw [isPath, hnil] at h
  cases h

/-- The path of a source is absolute once it has been fixed, and has no white space around it. -/
theorem trimmed_anchorText {directory : Path} (h : directory.isAbsolute = true) {text : String}
    (hpath : isPath (Text.trimmed text) = true) :
    (⟨anchorText directory text⟩ : Path).isAbsolute = true ∧
      Text.trimmed (anchorText directory text) = anchorText directory text := by
  have habsolute := Path.isAbsolute_join h ⟨Text.trimmed text⟩
  have hlast := Path.getLast?_join directory (p := ⟨Text.trimmed text⟩) (ne_nil_of_isPath hpath)
  rw [anchorText, if_pos hpath]
  generalize directory.join ⟨Text.trimmed text⟩ = joined at habsolute hlast ⊢
  refine ⟨habsolute, Text.trimmed_eq_self (fun c hc ↦ ?_) ?_⟩
  · rw [beq_iff_eq.1 habsolute] at hc
    cases hc
    decide
  · rw [hlast]
    exact Text.getLast?_trimmed

theorem ofText_eq (text : String) (directory : Path) :
    ofText text directory = if isPath (Text.trimmed text) then
      byFile (directory.join ⟨Text.trimmed text⟩) else byId (Text.trimmed text) := rfl

end SetSource

namespace Config

/-- Whether the paths of a configuration do not depend on a directory. -/
structure IsAnchored (c : Config) : Prop where
  sets : ∀ text ∈ c.sets.getD [], SetSource.isPath (Text.trimmed text) = true →
    (⟨text⟩ : Path).isAbsolute = true ∧ Text.trimmed text = text
  roots : ∀ root ∈ c.roots.getD [], (⟨root⟩ : Path).isAbsolute = true

/-- The settings of a configuration, with its paths as they are. -/
def settled (c : Config) (mode : Mode) : Settings where
  mode := mode
  sets := (c.sets.getD []).map fun text ↦
    if SetSource.isPath (Text.trimmed text) then .byFile ⟨text⟩ else .byId (Text.trimmed text)
  roots := (c.roots.getD []).map Path.mk
  exclusions := c.exclusions.getD []
  hasIndexAudit := c.hasIndexAudit.getD Settings.default.hasIndexAudit

/-- The settings come out as they are in any directory, if the mode is known. -/
theorem IsAnchored.settings {c : Config} (h : c.IsAnchored) (directory : Path) :
    c.settings directory =
      (c.mode.elim (.ok Settings.default.mode) Mode.ofTextOrFail).map c.settled := by
  have hsets : (c.sets.getD []).map (SetSource.ofText · directory) =
      (c.sets.getD []).map fun text ↦
        if SetSource.isPath (Text.trimmed text) then .byFile ⟨text⟩ else .byId (Text.trimmed text) := by
    refine List.map_congr_left fun text htext ↦ ?_
    rw [SetSource.ofText_eq]
    split
    · next hpath =>
      obtain ⟨habsolute, htrimmed⟩ := h.sets text htext hpath
      rw [htrimmed, Path.join_eq_self habsolute]
    · rfl
  have hroots : (c.roots.getD []).map (fun root ↦ directory.join ⟨root⟩) =
      (c.roots.getD []).map Path.mk :=
    List.map_congr_left fun root hroot ↦ Path.join_eq_self (h.roots root hroot) directory
  unfold Config.settings
  rw [hsets, hroots]
  cases c.mode with
  | none => rfl
  | some text => cases hmode : Mode.ofTextOrFail text <;> simp [hmode, Except.map, settled]

end Config
end TypeSurface
