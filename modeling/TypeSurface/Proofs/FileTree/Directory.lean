import Mathlib.Data.List.DropRight
import TypeSurface.Proofs.FileTree.Reading
import TypeSurface.Proofs.Syntax.Name

/-!
# Paths that start in the directory of a file

A path that starts in the directory of a file leads to a place that depends on where the file is, and
not on how the path to the file is spelled.
-/

namespace TypeSurface

theorem Text.not_mem_of_mem_splitOn {c : Char} {cs piece : List Char}
    (h : piece ∈ splitOn (· == c) cs) : c ∉ piece := by
  induction cs generalizing piece with
  | nil =>
    rw [List.mem_singleton.1 h]
    exact List.not_mem_nil
  | cons d cs ih =>
    rw [splitOn] at h
    split at h
    · rcases List.mem_cons.1 h with rfl | h
      · exact List.not_mem_nil
      · exact ih h
    · next hd =>
      have hd : c ≠ d := fun hcd ↦ hd (beq_iff_eq.2 hcd.symm)
      split at h
      · rw [List.mem_singleton.1 h]
        simpa using hd
      · next first others hsplit =>
        rw [hsplit] at ih
        rcases List.mem_cons.1 h with rfl | h
        · simpa [hd] using ih (List.mem_cons_self ..)
        · exact ih (List.mem_cons_of_mem _ h)

namespace Path

variable {p base : Path} {pieces : List String}

theorem not_mem_of_mem_pieces {piece : String} (h : piece ∈ p.pieces) : '/' ∉ piece.toList := by
  unfold Path.pieces at h
  obtain ⟨cs, hcs, rfl⟩ := List.mem_map.1 h
  rw [String.toList_ofList]
  exact Text.not_mem_of_mem_splitOn hcs

theorem isAbsolute_ofPieces (pieces : List String) : (ofPieces true pieces).isAbsolute = true := by
  simp [ofPieces, isAbsolute]

theorem pieces_ofPieces (h : ∀ piece ∈ pieces, '/' ∉ piece.toList) (hne : pieces ≠ []) :
    (ofPieces true pieces).pieces = pieces := by
  have hslash : ∀ l ∈ pieces.map String.toList, '/' ∉ l := List.forall_mem_map.2 h
  have hsplit := List.splitOn_intercalate '/' hslash (by simpa using hne)
  unfold List.splitOn at hsplit
  have hchars : "/".toList = ['/'] := rfl
  simp only [Path.pieces, if_pos (isAbsolute_ofPieces pieces), Text.splitOn_eq_splitOnP]
  simp only [ofPieces, if_true, String.toList_append, hchars, List.cons_append, List.nil_append,
    List.drop_one, List.tail_cons, String.toList_intercalate]
  rw [hsplit, List.map_map]
  simp [Function.comp_def]

theorem components_of_isAbsolute (h : p.isAbsolute = true) :
    p.components = p.pieces.filter (!isFiller ·) := by
  simp [components, startsInDot, h]

theorem components_ofPieces (h : ∀ piece ∈ pieces, '/' ∉ piece.toList) :
    (ofPieces true pieces).components = pieces.filter (!isFiller ·) := by
  rw [components_of_isAbsolute (isAbsolute_ofPieces pieces)]
  by_cases hne : pieces = []
  · subst hne
    rfl
  · rw [pieces_ofPieces h hne]

theorem withoutFiller_of_isAbsolute (h : p.isAbsolute = true) :
    p.withoutFiller = p.pieces.rdropWhile isFiller := by
  simp [withoutFiller, startsInDot, h, List.rdropWhile]

theorem filter_rdropWhile (pieces : List String) :
    (pieces.rdropWhile isFiller).filter (!isFiller ·) = pieces.filter (!isFiller ·) := by
  induction pieces using List.reverseRecOn with
  | nil => rfl
  | append_singleton pieces last ih =>
    cases hlast : isFiller last with
    | true => simp [hlast, ih]
    | false => simp [hlast]

theorem components_ofPieces_withoutFiller (h : p.isAbsolute = true) :
    (ofPieces true p.withoutFiller).components = p.components := by
  have hkept := List.rdropWhile_prefix isFiller p.pieces
  rw [withoutFiller_of_isAbsolute h, components_of_isAbsolute h, components_ofPieces,
    filter_rdropWhile]
  exact fun piece hpiece ↦ not_mem_of_mem_pieces (hkept.subset hpiece)

/-- The directory of an absolute path is reached without its last component. -/
theorem components_directory (h : p.isAbsolute = true) :
    p.directory.components = p.components.dropLast := by
  have htrimmed := withoutFiller_of_isAbsolute h
  rcases List.eq_nil_or_concat (p.pieces.rdropWhile isFiller) with hnil | ⟨front, last, hfront⟩
  · have hcomponents : p.components = [] := by
      rw [components_of_isAbsolute h, ← filter_rdropWhile, hnil]
      rfl
    have hparent : p.parent? = none := by
      rw [parent?, htrimmed, hnil]
    rw [directory, hparent, Option.getD_none, hcomponents]
    rfl
  · have hlast : isFiller last = false := by
      have hnot := List.rdropWhile_last_not isFiller p.pieces
      simp only [hfront] at hnot
      simpa using hnot
    have hparent : p.parent? =
        some (ofPieces true (ofPieces true front).withoutFiller) := by
      rw [parent?, htrimmed, hfront, h]
      simp
    have hfront' : ∀ piece ∈ front, '/' ∉ piece.toList := by
      intro piece hpiece
      refine not_mem_of_mem_pieces ((List.rdropWhile_prefix isFiller p.pieces).subset ?_)
      rw [hfront]
      simp [hpiece]
    rw [directory, hparent, Option.getD_some,
      components_ofPieces_withoutFiller (isAbsolute_ofPieces front), components_ofPieces hfront',
      components_of_isAbsolute h, ← filter_rdropWhile p.pieces, hfront]
    simp [hlast]

theorem isAbsolute_directory (h : p.isAbsolute = true) : p.directory.isAbsolute = true := by
  unfold directory parent?
  split
  · exact h
  · rw [Option.getD_some, h]
    exact isAbsolute_ofPieces _

theorem isAbsolute_join (h : base.isAbsolute = true) (p : Path) :
    (base.join p).isAbsolute = true := by
  obtain ⟨cs, hcs⟩ : ∃ cs, base.text.toList = '/' :: cs :=
    List.head?_eq_some_iff.1 (by simpa [isAbsolute] using h)
  unfold join
  split
  · assumption
  · split <;> simp [isAbsolute, hcs]

theorem pieces_of_text {cs : List Char} (h : p.text.toList = '/' :: cs) :
    p.pieces = (cs.splitOnP (· == '/')).map String.ofList := by
  simp [Path.pieces, isAbsolute, h, Text.splitOn_eq_splitOnP]

/-- A relative path goes on where the path before it ends. -/
theorem components_join (h : base.isAbsolute = true) (hp : p.isAbsolute = false) :
    (base.join p).components = base.components ++ p.pieces.filter (!isFiller ·) := by
  obtain ⟨cs, hcs⟩ : ∃ cs, base.text.toList = '/' :: cs :=
    List.head?_eq_some_iff.1 (by simpa [isAbsolute] using h)
  have hempty : base.text ≠ "" := by
    intro hempty
    simp [hempty] at hcs
  have hpieces : p.pieces = (p.text.toList.splitOnP (· == '/')).map String.ofList := by
    simp [Path.pieces, hp, Text.splitOn_eq_splitOnP]
  rw [components_of_isAbsolute (isAbsolute_join h p), components_of_isAbsolute h,
    pieces_of_text hcs, hpieces]
  cases hslash : base.endsInSlash with
  | false =>
    have hjoined : (base.join p).text.toList = '/' :: (cs ++ '/' :: p.text.toList) := by
      simp [join, hp, hempty, hslash, hcs]
    rw [pieces_of_text hjoined, List.splitOnP_append_cons _ _ rfl, List.map_append,
      List.filter_append]
  | true =>
    have hjoined : (base.join p).text.toList = '/' :: (cs ++ p.text.toList) := by
      simp [join, hp, hslash, hcs]
    rw [pieces_of_text hjoined]
    rcases List.eq_nil_or_concat cs with rfl | ⟨front, last, rfl⟩
    · simp [isFiller]
    · -- The slash at the end starts a last piece, which is empty.
      rw [List.concat_eq_append] at *
      rw [endsInSlash, hcs, ← List.cons_append, List.getLast?_concat] at hslash
      obtain rfl : last = '/' := by simpa using hslash
      simp only [List.append_assoc, List.cons_append, List.nil_append]
      rw [List.splitOnP_append_cons _ _ rfl, List.splitOnP_append_cons _ _ rfl]
      simp [isFiller]

end Path

namespace FileTree

variable {t : FileTree} {here location : Location} {steps : List String} {p q : Path} {text : String}

/-- Where one step leads from a directory. -/
inductive StepsTo (t : FileTree) (here : Location) : String → Location → Prop
  | stay : StepsTo t here "." here
  | up : StepsTo t here ".." here.dropLast
  | down {name : String} {entry : FileEntry} (hstay : name ≠ ".") (hup : name ≠ "..")
    (h : t.lookUp here name = .ok (some entry)) : StepsTo t here name (here ++ [name])

theorem follow_cons_iff {step : String} :
    t.follow here (step :: steps) = .ok location ↔
      t.get? here = some .directory ∧
        ∃ next, t.StepsTo here step next ∧ t.follow next steps = .ok location := by
  constructor
  · intro h
    rw [follow] at h
    split at h
    · next hhere =>
      refine ⟨hhere, ?_⟩
      split at h
      · next hstay => exact ⟨here, hstay ▸ .stay, h⟩
      · next hstay =>
        split at h
        · next hup => exact ⟨here.dropLast, hup ▸ .up, h⟩
        · next hup =>
          split at h
          · cases h
          · next hentry => exact ⟨here ++ [step], .down hstay hup hentry, h⟩
          · cases h
    · cases h
  · rintro ⟨hhere, next, hstep, h⟩
    rw [follow, hhere]
    cases hstep with
    | stay => exact h
    | up => exact h
    | down hstay hup hentry => simpa [hstay, hup, hentry] using h

theorem follow_append_iff {front back : List String} :
    t.follow here (front ++ back) = .ok location ↔
      ∃ middle, t.follow here front = .ok middle ∧ t.follow middle back = .ok location := by
  induction front generalizing here with
  | nil => simp [follow]
  | cons step front ih =>
    simp only [List.cons_append, follow_cons_iff, ih]
    constructor
    · rintro ⟨hhere, next, hstep, middle, hfront, hback⟩
      exact ⟨middle, ⟨hhere, next, hstep, hfront⟩, hback⟩
    · rintro ⟨middle, ⟨hhere, next, hstep, hfront⟩, hback⟩
      exact ⟨hhere, next, hstep, middle, hfront, hback⟩

/-- Whether a location is below directories only. -/
def IsBelowDirectories (t : FileTree) (location : Location) : Prop :=
  ∀ above, above <+: location → above ≠ location → t.get? above = some .directory

theorem isBelowDirectories_nil : t.IsBelowDirectories [] :=
  fun _ habove hne ↦ absurd (List.prefix_nil.1 habove) hne

theorem IsBelowDirectories.get?_dropLast (h : t.IsBelowDirectories here) :
    t.get? here.dropLast = some .directory := by
  cases here with
  | nil => rfl
  | cons name names =>
    refine h _ (List.dropLast_prefix _) fun heq ↦ ?_
    simpa using congrArg List.length heq

theorem IsBelowDirectories.step {step : String} {next : Location} (h : t.IsBelowDirectories here)
    (hhere : t.get? here = some .directory) (hstep : t.StepsTo here step next) :
    t.IsBelowDirectories next := by
  intro above habove hne
  have hbelow : above <+: here → t.get? above = some .directory := fun habove ↦ by
    by_cases heq : above = here
    · rw [heq, hhere]
    · exact h above habove heq
  cases hstep with
  | stay => exact hbelow habove
  | up => exact hbelow (habove.trans (List.dropLast_prefix here))
  | down => exact hbelow ((List.prefix_concat_iff.1 habove).resolve_left hne)

/-- The names that are followed are those of directories. -/
theorem isBelowDirectories_of_follow (h : t.follow here steps = .ok location)
    (hhere : t.IsBelowDirectories here) : t.IsBelowDirectories location := by
  induction steps generalizing here with
  | nil =>
    cases h
    exact hhere
  | cons step steps ih =>
    obtain ⟨hdirectory, next, hstep, h⟩ := follow_cons_iff.1 h
    exact ih h (hhere.step hdirectory hstep)

/-- The directory of a file is where its location says. -/
theorem follow_directory (h : t.locate p = .ok location)
    (hfile : t.get? location = some (.file text)) :
    t.follow [] p.directory.components = .ok location.dropLast := by
  rw [Path.components_directory (isAbsolute_of_locate h)]
  have hfollow := follow_components h
  rcases List.eq_nil_or_concat p.components with hnil | ⟨front, last, hlast⟩
  · rw [hnil] at hfollow
    cases hfollow
    cases hfile
  · rw [List.concat_eq_append] at hlast
    rw [hlast] at hfollow ⊢
    obtain ⟨middle, hmiddle, hrest⟩ := follow_append_iff.1 hfollow
    obtain ⟨hdirectory, next, hstep, hnext⟩ := follow_cons_iff.1 hrest
    cases hnext
    rw [List.dropLast_concat, hmiddle]
    cases hstep with
    | stay =>
      rw [hdirectory] at hfile
      cases hfile
    | up =>
      have hbelow := isBelowDirectories_of_follow hmiddle isBelowDirectories_nil
      rw [hbelow.get?_dropLast] at hfile
      cases hfile
    | down => rw [List.dropLast_concat]

/-- A path that starts in the directory of a file leads to one place, however the path to the file
is spelled. -/
theorem eq_of_locate_join {x : Path} {next next' : Location} (hp : t.locate p = .ok location)
    (hq : t.locate q = .ok location) (hfile : t.get? location = some (.file text))
    (hnext : t.locate (p.directory.join x) = .ok next)
    (hnext' : t.locate (q.directory.join x) = .ok next') : next = next' := by
  have hfollow {p : Path} {next : Location} (hp : t.locate p = .ok location)
      (hx : x.isAbsolute = false) (hnext : t.locate (p.directory.join x) = .ok next) :
      t.follow location.dropLast (x.pieces.filter (!Path.isFiller ·)) = .ok next := by
    have hjoin := follow_components hnext
    rw [Path.components_join (Path.isAbsolute_directory (isAbsolute_of_locate hp)) hx] at hjoin
    obtain ⟨middle, hmiddle, hrest⟩ := follow_append_iff.1 hjoin
    rw [follow_directory hp hfile] at hmiddle
    cases hmiddle
    exact hrest
  cases hx : x.isAbsolute with
  | true =>
    simp only [Path.join, hx, if_true] at hnext hnext'
    rw [hnext] at hnext'
    cases hnext'
    rfl
  | false =>
    have heq := hfollow hp hx hnext
    rw [hfollow hq hx hnext'] at heq
    cases heq
    rfl

end FileTree
end TypeSurface
