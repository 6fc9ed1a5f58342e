import Mathlib.Data.List.Induction
import TypeSurface.Project.Loading
import TypeSurface.Proofs.Surface.Rules

/-!
# Loading sets once

What one step of the loading can do, and what follows for a whole run: no two installed sets have
one id, and no path is read or looked up under two spellings of one name.
-/

namespace TypeSurface

namespace Loading

variable {t : FileTree} {index : SetIndex} {source : SetSource} {l l' : Loading}

def Provides (l : Loading) (id : String) : Prop := (l.provider? id).isSome = true

def ids (l : Loading) : List String := l.sets.map (·.id)

def defects (l : Loading) : List Diagnostic := l.syntaxErrors ++ l.configErrors

/-- Whether only errors have been gathered. -/
def GathersErrors (l : Loading) : Prop := ∀ d ∈ l.defects, d.isError = true

/-- The loading has met no defect so far. -/
def IsClean (l : Loading) : Prop := l.failure? = none ∧ l.error? = none

theorem provides_iff {id : String} : l.Provides id ↔ id ∈ l.provided.map Prod.fst := by
  simp [Provides, provider?, List.find?_isSome]

theorem provides_provide {S : DeclarationSet} {id : String} :
    (l.provide S).Provides id ↔ id = S.id ∨ l.Provides id := by
  simp [provides_iff, provide]

theorem not_provides_of_provider? {id : String} (h : l.provider? id = none) : ¬l.Provides id := by
  simp [Provides, h]

theorem hasSeen_iff {file : Path} :
    l.hasSeen file = true ↔ ∃ other ∈ l.seen, file.sameAs other = true := by
  simp [hasSeen]

theorem error?_eq_none_iff : l.error? = none ↔ l.syntaxErrors = [] ∧ l.configErrors = [] := by
  unfold error?
  split
  · next h => simp_all
  · split
    · next h => simp_all
    · next h => simp_all

theorem GathersErrors.addSyntaxErrors (h : l.GathersErrors) {ds : List Diagnostic}
    (hds : ∀ d ∈ ds, d.isError = true) :
    GathersErrors { l with syntaxErrors := l.syntaxErrors ++ ds } := by
  intro d hd
  simp only [defects, List.mem_append] at hd
  rcases hd with (hd | hd) | hd
  · exact h d (List.mem_append_left _ hd)
  · exact hds d hd
  · exact h d (List.mem_append_right _ hd)

theorem GathersErrors.addConfigError (h : l.GathersErrors) {e : Diagnostic}
    (he : e.isError = true) :
    GathersErrors { l with configErrors := l.configErrors ++ [e] } := by
  intro d hd
  simp only [defects, List.mem_append, List.mem_singleton] at hd
  rcases hd with hd | hd | rfl
  · exact h d (List.mem_append_left _ hd)
  · exact h d (List.mem_append_right _ hd)
  · exact he

theorem ids_add (S : DeclarationSet) (h : l.failure? = none) : (l.add S).ids = l.ids ++ [S.id] := by
  simp [ids, add, h]

/-! ### One step -/

/-- The place where a source is looked up. -/
inductive LooksIn (index : SetIndex) : SetSource → Path → Prop where
  | file (p : Path) : LooksIn index (.byFile p) p
  | root {id : String} {p : Path} (h : index.get? id = some p) : LooksIn index (.byId id) p
  | catalog {id : String} {e : EmbeddedSet} (hroot : index.get? id = none)
      (h : Catalog.get? id = some e) : LooksIn index (.byId id) ⟨e.file⟩

/-- The text that is found for a source, with its place. -/
inductive Offers (t : FileTree) (index : SetIndex) : SetSource → Path → String → Prop where
  | file {p : Path} {text : String} (h : t.read p = .ok text) : Offers t index (.byFile p) p text
  | root {id : String} {p : Path} {text : String} (hroot : index.get? id = some p)
      (h : t.read p = .ok text) : Offers t index (.byId id) p text
  | catalog {id : String} {e : EmbeddedSet} (hroot : index.get? id = none)
      (h : Catalog.get? id = some e) : Offers t index (.byId id) ⟨e.file⟩ e.text

/-- Nothing has to be done for a source: its id is provided or its file has been seen. -/
def IsServed (index : SetIndex) (l : Loading) (source : SetSource) : Prop :=
  (∃ id, source = .byId id ∧ l.Provides id) ∨ ∃ p, LooksIn index source p ∧ l.hasSeen p = true

/-- The two hold the same sets and have read the same files. -/
structure SameContents (l l' : Loading) : Prop where
  sets : l'.sets = l.sets
  provided : l'.provided = l.provided
  seen : l'.seen = l.seen
  sources : l'.sources = l.sources

/-- The sets that a set refers to, one after the other. -/
def loadAll (t : FileTree) (index : SetIndex) (depth : Nat) (sources : List SetSource)
    (l : Loading) : Loading :=
  sources.foldl (fun l source ↦ load t index depth source l) l

/-- What loading a source comes to, if `depth` references may be followed behind it. -/
inductive Outcome (t : FileTree) (index : SetIndex) (depth : Nat) (source : SetSource)
    (l : Loading) : Loading → Prop where
  | idle (h : l.failure? = none → l.IsServed index source) : Outcome t index depth source l l
  | defective {l₁ l' : Loading}
      (h : l₁ = l ∨ ∃ p text, l.hasSeen p = false ∧ l₁ = l.enter p text)
      (hsame : SameContents l₁ l') (hclean : ¬l'.IsClean)
      (herrors : l.GathersErrors → l'.GathersErrors) : Outcome t index depth source l l'
  | installed {p : Path} {text : String} {S : DeclarationSet}
      (hoffer : Offers t index source p text) (hseen : l.hasSeen p = false)
      (hparse : DeclarationSet.parse p.text text = .ok S)
      (hfresh : l.provider? S.id = none) :
      Outcome t index depth source l
        ((loadAll t index depth (S.references.map .byId) ((l.enter p text).provide S)).add S)

/-- What is found for a source. -/
inductive Fetches (t : FileTree) (index : SetIndex) (source : SetSource) (l : Loading) :
    Fetched → Prop where
  | idle (h : l.failure? = none → l.IsServed index source) :
      Fetches t index source l (.settled l)
  | defective {l' : Loading} (hsame : SameContents l l') (hclean : ¬l'.IsClean)
      (herrors : l.GathersErrors → l'.GathersErrors) : Fetches t index source l (.settled l')
  | text {p : Path} {text : String} (hoffer : Offers t index source p text)
      (hseen : l.hasSeen p = false) : Fetches t index source l (.text (l.enter p text) ⟨p.text, text⟩)

theorem fetches_fetchFile {p : Path} (hlooks : LooksIn index source p)
    (hoffer : ∀ text, t.read p = .ok text → Offers t index source p text) :
    Fetches t index source l (l.fetchFile t p) := by
  unfold fetchFile
  split
  · next hseen => exact .idle fun _ ↦ Or.inr ⟨p, hlooks, hseen⟩
  · next hseen =>
    split
    · next text hread => exact .text (hoffer text hread) (Bool.eq_false_iff.2 hseen)
    · next fault hread =>
      refine .defective ⟨rfl, rfl, rfl, rfl⟩ (fun hclean ↦ ?_) id
      cases hclean.1

theorem fetches_fetchEmbedded {id : String} (hroot : index.get? id = none) :
    Fetches t index (.byId id) l (l.fetchEmbedded id) := by
  unfold fetchEmbedded
  split
  · next hnone =>
    refine .defective ⟨rfl, rfl, rfl, rfl⟩ (fun hclean ↦ ?_) fun h ↦ ?_
    · simp [error?_eq_none_iff, IsClean] at hclean
    · exact h.addConfigError rfl
  · next e he =>
    split
    · next hseen => exact .idle fun _ ↦ Or.inr ⟨_, .catalog hroot he, hseen⟩
    · next hseen => exact .text (.catalog hroot he) (Bool.eq_false_iff.2 hseen)

theorem fetches_fetch (t : FileTree) (index : SetIndex) (source : SetSource) (l : Loading) :
    Fetches t index source l (l.fetch t index source) := by
  unfold fetch
  split
  · next hstop =>
    refine .idle fun hnone ↦ ?_
    rw [hnone] at hstop
    cases hstop
  · cases source with
    | byFile p => exact fetches_fetchFile (.file p) fun text h ↦ .file h
    | byId id =>
      dsimp only
      split
      · next hprovided => exact .idle fun _ ↦ Or.inl ⟨id, rfl, hprovided⟩
      · split
        · next p hroot => exact fetches_fetchFile (.root hroot) fun text h ↦ .root hroot h
        · next hroot => exact fetches_fetchEmbedded hroot

theorem outcome_load (t : FileTree) (index : SetIndex) (depth : Nat) (source : SetSource)
    (l : Loading) : Outcome t index depth source l (load t index (depth + 1) source l) := by
  rw [load]
  generalize hfetched : l.fetch t index source = fetched
  have hfetches : Fetches t index source l fetched := hfetched ▸ fetches_fetch t index source l
  cases hfetches with
  | idle h => exact .idle h
  | defective hsame hclean herrors => exact .defective (Or.inl rfl) hsame hclean herrors
  | @text p text hoffer hseen =>
    have hentered : l.enter p text = l ∨
        ∃ p' text', l.hasSeen p' = false ∧ l.enter p text = l.enter p' text' :=
      Or.inr ⟨p, text, hseen, rfl⟩
    dsimp only
    cases hparse : DeclarationSet.parse p.text text with
    | error defects =>
      obtain ⟨hdefects, herrors⟩ := DeclarationSet.isError_of_parse hparse
      refine .defective hentered ⟨rfl, rfl, rfl, rfl⟩ (fun hclean ↦ ?_) fun h ↦ ?_
      · simp [IsClean, error?_eq_none_iff, hdefects] at hclean
      · exact h.addSyntaxErrors herrors
    | ok S =>
      dsimp only
      unfold install
      split
      · refine .defective hentered ⟨rfl, rfl, rfl, rfl⟩ (fun hclean ↦ ?_) fun h ↦ ?_
        · simp [IsClean, error?_eq_none_iff] at hclean
        · exact h.addConfigError rfl
      · next hfresh => exact .installed hoffer hseen hparse hfresh

/-! ### Each set and each file once -/

/-- The sets that are installed, or being installed in the order of `pending`, have ids of their
own, and no file is seen twice. -/
structure IsOnce (pending : List String) (l : Loading) : Prop where
  nodup : (pending ++ l.ids).Nodup
  provides : ∀ id ∈ pending ++ l.ids, l.Provides id
  sources : l.sources.map (fun s ↦ ⟨s.file⟩) = l.seen.reverse
  seen : l.seen.Pairwise fun p q ↦ p.sameAs q = false

namespace IsOnce

variable {pending : List String}

theorem start : IsOnce [] Loading.start :=
  ⟨List.nodup_nil, List.forall_mem_nil _, rfl, List.Pairwise.nil⟩

theorem of_sameContents (h : IsOnce pending l) (hsame : SameContents l l') : IsOnce pending l' := by
  obtain ⟨hsets, hprovided, hseen, hsources⟩ := hsame
  have hids : l'.ids = l.ids := by
    unfold ids
    rw [hsets]
  refine ⟨hids ▸ h.nodup, fun id hid ↦ ?_, ?_, hseen ▸ h.seen⟩
  · rw [provides_iff, hprovided, ← provides_iff]
    exact h.provides id (hids ▸ hid)
  · rw [hsources, hseen]
    exact h.sources

theorem enter (h : IsOnce pending l) {p : Path} {text : String} (hseen : l.hasSeen p = false) :
    IsOnce pending (l.enter p text) := by
  refine ⟨h.nodup, h.provides, ?_, List.pairwise_cons.2 ⟨fun q hq ↦ ?_, h.seen⟩⟩
  · simp [Loading.enter, h.sources]
  · exact Bool.eq_false_iff.2 (List.any_eq_false.1 hseen q hq)

theorem provide (h : IsOnce pending l) {S : DeclarationSet} (hfresh : l.provider? S.id = none) :
    IsOnce (S.id :: pending) (l.provide S) := by
  have hnew : S.id ∉ pending ++ l.ids :=
    fun hmem ↦ not_provides_of_provider? hfresh (h.provides _ hmem)
  refine ⟨List.nodup_cons.2 ⟨hnew, h.nodup⟩, fun id hid ↦ provides_provide.2 ?_, h.sources, h.seen⟩
  exact (List.mem_cons.1 hid).imp_right (h.provides id)

theorem add {S : DeclarationSet} (h : IsOnce (S.id :: pending) l) : IsOnce pending (l.add S) := by
  cases hfailure : l.failure? with
  | some failure =>
    have hkept : l.add S = l := by simp [Loading.add, hfailure]
    rw [hkept]
    exact ⟨(List.nodup_cons.1 h.nodup).2, fun id hid ↦ h.provides id (List.mem_cons_of_mem _ hid),
      h.sources, h.seen⟩
  | none =>
    have hmoved : (pending ++ (l.add S).ids).Perm (S.id :: pending ++ l.ids) := by
      rw [ids_add S hfailure, ← List.append_assoc]
      exact List.perm_append_comm
    have hadd : l.add S = { l with sets := l.sets ++ [S] } := by simp [Loading.add, hfailure]
    refine ⟨hmoved.nodup_iff.2 h.nodup, fun id hid ↦ ?_, ?_, ?_⟩
    · have hprovides := h.provides id (hmoved.mem_iff.1 hid)
      rw [hadd]
      exact hprovides
    · rw [hadd]
      exact h.sources
    · rw [hadd]
      exact h.seen

theorem load {depth : Nat} (h : IsOnce pending l) :
    IsOnce pending (Loading.load t index depth source l) := by
  induction depth generalizing source l pending with
  | zero => exact h
  | succ depth ih =>
    generalize hresult : Loading.load t index (depth + 1) source l = l'
    have houtcome : Outcome t index depth source l l' := hresult ▸ outcome_load t index depth source l
    cases houtcome with
    | idle => exact h
    | @defective l₁ _ hstart hsame _ _ =>
      obtain rfl | ⟨p, text, hseen, rfl⟩ := hstart
      · exact h.of_sameContents hsame
      · exact (h.enter hseen).of_sameContents hsame
    | @installed p text S _ hseen _ hfresh =>
      have hentered : IsOnce (S.id :: pending) ((l.enter p text).provide S) :=
        (h.enter hseen).provide hfresh
      -- Every reference is loaded while the set waits, and leaves it waiting.
      apply IsOnce.add
      exact List.foldlRecOn _ _ hentered fun l hl source _ ↦ ih hl

theorem run (requested : List SetSource) : IsOnce [] (Loading.run t index requested) :=
  List.foldlRecOn _ _ start fun _ hl _ _ ↦ hl.load

end IsOnce

/-! ### What was loaded stays -/

/-- Sets are only added, and a defect is never taken back. -/
structure Grows (l l' : Loading) : Prop where
  sets : l.sets ⊆ l'.sets
  clean : l'.IsClean → l.IsClean

namespace Grows

theorem refl (l : Loading) : Grows l l := ⟨List.Subset.refl _, id⟩

theorem trans {l₁ l₂ l₃ : Loading} (h : Grows l₁ l₂) (h' : Grows l₂ l₃) : Grows l₁ l₃ :=
  ⟨List.Subset.trans h.sets h'.sets, h.clean ∘ h'.clean⟩

theorem add (l : Loading) (S : DeclarationSet) : Grows l (l.add S) := by
  unfold Loading.add
  split
  · exact refl l
  · exact ⟨List.subset_append_left _ _, id⟩

theorem load (t : FileTree) (index : SetIndex) (depth : Nat) (source : SetSource) (l : Loading) :
    Grows l (Loading.load t index depth source l) := by
  induction depth generalizing source l with
  | zero => exact refl l
  | succ depth ih =>
    generalize hresult : Loading.load t index (depth + 1) source l = l'
    have houtcome : Outcome t index depth source l l' := hresult ▸ outcome_load t index depth source l
    cases houtcome with
    | idle => exact refl l
    | @defective l₁ _ hstart hsame hclean _ =>
      have hsets : l₁.sets = l.sets := by
        obtain rfl | ⟨p, text, -, rfl⟩ := hstart <;> rfl
      refine ⟨?_, fun h ↦ absurd h hclean⟩
      rw [hsame.sets, hsets]
      exact List.Subset.refl _
    | @installed p text S _ _ _ _ =>
      have hentered : Grows l ((l.enter p text).provide S) := ⟨List.Subset.refl _, id⟩
      refine trans ?_ (add _ S)
      exact List.foldlRecOn _ _ hentered fun l hl source _ ↦ hl.trans (ih source l)

theorem loadAll (t : FileTree) (index : SetIndex) (depth : Nat) (sources : List SetSource)
    (l : Loading) : Grows l (loadAll t index depth sources l) :=
  List.foldlRecOn _ _ (refl l) fun l hl source _ ↦ hl.trans (load t index depth source l)

end Grows

/-! ### Only errors are gathered -/

namespace GathersErrors

theorem add (h : l.GathersErrors) (S : DeclarationSet) : (l.add S).GathersErrors := by
  unfold Loading.add
  split <;> exact h

theorem load {depth : Nat} (h : l.GathersErrors) :
    (Loading.load t index depth source l).GathersErrors := by
  induction depth generalizing source l with
  | zero => exact h
  | succ depth ih =>
    generalize hresult : Loading.load t index (depth + 1) source l = l'
    have houtcome : Outcome t index depth source l l' := hresult ▸ outcome_load t index depth source l
    cases houtcome with
    | idle => exact h
    | defective _ _ _ herrors => exact herrors h
    | @installed p text S _ _ _ _ =>
      have hentered : ((l.enter p text).provide S).GathersErrors := h
      exact add (List.foldlRecOn _ _ hentered fun l hl source _ ↦ ih hl) S

theorem run (t : FileTree) (index : SetIndex) (requested : List SetSource) :
    (Loading.run t index requested).GathersErrors :=
  List.foldlRecOn _ _ (List.forall_mem_nil _) fun _ hl _ _ ↦ hl.load

end GathersErrors

end Loading
end TypeSurface
