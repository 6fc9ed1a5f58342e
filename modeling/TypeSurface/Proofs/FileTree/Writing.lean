import TypeSurface.FileTree.Writing
import TypeSurface.Proofs.FileTree.Directory

/-!
# What is there after writing

A file that was written is found again at its path, with the text that was written, and all else is
as it was, but for directories that were made on the way.
-/

namespace TypeSurface
namespace FileTree

variable {t t' t'' : FileTree} {here above location : Location} {name text : String}
  {steps : List String} {p : Path}

theorem lookUp_eq_ok_iff {found : Option FileEntry} : t.lookUp here name = .ok found ↔
    name.utf8ByteSize ≤ maxNameLength ∧ t.get? (here ++ [name]) = found := by
  unfold lookUp
  split
  · next hlength => exact ⟨nofun, fun h ↦ absurd h.1 (Nat.not_le_of_lt hlength)⟩
  · next hlength => exact ⟨fun h ↦ ⟨Nat.le_of_not_lt hlength, Except.ok.inj h⟩, fun h ↦ by rw [h.2]⟩

/-! ### Following in a larger tree -/

/-- Whether the directories of one tree are directories of another, and no entry is missing
there. -/
structure IsKeptIn (t t' : FileTree) : Prop where
  directory : ∀ location, t.get? location = some .directory → t'.get? location = some .directory
  isSome : ∀ location, (t.get? location).isSome = true → (t'.get? location).isSome = true

theorem IsKeptIn.stepsTo {step : String} {next : Location} (h : t.IsKeptIn t')
    (hstep : t.StepsTo here step next) : t'.StepsTo here step next := by
  cases hstep with
  | stay => exact .stay
  | up => exact .up
  | down hstay hup hentry =>
    obtain ⟨hlength, hentry⟩ := lookUp_eq_ok_iff.1 hentry
    have hsome := h.isSome (here ++ [step]) (by rw [hentry]; rfl)
    obtain ⟨entry, hentry⟩ := Option.isSome_iff_exists.1 hsome
    exact .down hstay hup (lookUp_eq_ok_iff.2 ⟨hlength, hentry⟩)

theorem IsKeptIn.follow (h : t.IsKeptIn t') (hfollow : t.follow here steps = .ok location) :
    t'.follow here steps = .ok location := by
  induction steps generalizing here with
  | nil => exact hfollow
  | cons step steps ih =>
    obtain ⟨hhere, next, hstep, hrest⟩ := follow_cons_iff.1 hfollow
    exact follow_cons_iff.2 ⟨h.directory here hhere, next, h.stepsTo hstep, ih hrest⟩

theorem isKeptIn_set {entry : FileEntry} (h : t.get? location ≠ some .directory) :
    t.IsKeptIn (t.set location entry) := by
  have hne : location ≠ [] := by
    rintro rfl
    exact h rfl
  constructor
  · intro other hother
    have hother' : other ≠ location := by
      rintro rfl
      exact h hother
    rw [get?_set_of_ne _ _ hother', hother]
  · intro other hother
    by_cases heq : other = location
    · rw [heq, get?_set_self _ _ hne]
      rfl
    · rwa [get?_set_of_ne _ _ heq]

/-! ### Making directories -/

/-- Whether one tree is another with more directories, or with none. -/
def AddsDirectories (t t' : FileTree) : Prop :=
  ∀ location, t'.get? location = t.get? location ∨
    t.get? location = none ∧ t'.get? location = some .directory

theorem AddsDirectories.refl (t : FileTree) : t.AddsDirectories t := fun _ ↦ Or.inl rfl

theorem AddsDirectories.trans (h : t.AddsDirectories t') (h' : t'.AddsDirectories t'') :
    t.AddsDirectories t'' := by
  intro location
  rcases h' location with hsame | ⟨hnone, hdirectory⟩
  · rw [hsame]
    exact h location
  · rcases h location with hsame | ⟨-, hmade⟩
    · exact Or.inr ⟨hsame ▸ hnone, hdirectory⟩
    · rw [hnone] at hmade
      cases hmade

theorem addsDirectories_set (h : t.get? location = none) :
    t.AddsDirectories (t.set location .directory) := by
  have hne : location ≠ [] := by
    rintro rfl
    cases h
  intro other
  by_cases heq : other = location
  · exact Or.inr ⟨heq ▸ h, by rw [heq, get?_set_self _ _ hne]⟩
  · exact Or.inl (get?_set_of_ne _ _ heq)

theorem addsDirectories_of_makeDirectory (h : t.makeDirectory steps = .ok t') :
    t.AddsDirectories t' := by
  unfold makeDirectory at h
  split at h
  · cases h
  split at h
  · cases h
  · next name _ _ above _ =>
    split at h
    · cases h
    split at h
    · cases h
    · cases h
    · next hentry =>
      cases h
      exact addsDirectories_set (lookUp_eq_ok_iff.1 hentry).2

theorem eq_of_allowExisting {fault : FileFault} (h : t.allowExisting steps fault = .ok t') :
    t' = t := by
  unfold allowExisting at h
  split at h
  · exact (Except.ok.inj h).symm
  · cases h

theorem addsDirectories_of_makeDirectories (h : t.makeDirectories steps = .ok t') :
    t.AddsDirectories t' := by
  induction steps generalizing t' with
  | nil =>
    cases h
    exact .refl t
  | cons name above ih =>
    simp only [makeDirectories] at h
    split at h
    · next hmade =>
      cases h
      exact addsDirectories_of_makeDirectory hmade
    · split at h
      · cases h
      · next hbelow =>
        refine (ih hbelow).trans ?_
        split at h
        · next hmade =>
          cases h
          exact addsDirectories_of_makeDirectory hmade
        · rw [eq_of_allowExisting h]
          exact .refl _
    · rw [eq_of_allowExisting h]
      exact .refl t

theorem addsDirectories_of_ensureDirectory (h : t.ensureDirectory p = .ok t') :
    t.AddsDirectories t' := by
  unfold ensureDirectory at h
  split at h
  · cases h
  · split at h
    · exact addsDirectories_of_makeDirectories h
    · cases h

/-! ### Writing a file -/

theorem exists_of_followToDirectory (h : t.followToDirectory steps = .ok location) :
    t.follow [] steps = .ok location ∧ t.get? location = some .directory := by
  unfold followToDirectory at h
  split at h
  · cases h
  · next hfollow =>
    split at h
    · next hdirectory =>
      cases h
      exact ⟨hfollow, hdirectory⟩
    · cases h

/-- Whether the last step of a path is a name in a directory that the steps before it lead to, and
no directory has this name. -/
structure EndsIn (t : FileTree) (p : Path) (above : Location) (name : String) : Prop where
  steps : ∃ front, p.steps = front ++ [name] ∧ t.follow [] front = .ok above
  directory : t.get? above = some .directory
  stay : name ≠ "."
  up : name ≠ ".."
  length : name.utf8ByteSize ≤ maxNameLength
  free : t.get? (above ++ [name]) ≠ some .directory

theorem exists_endsIn_of_fileLocation (h : t.fileLocation p = .ok location) :
    ∃ above name, location = above ++ [name] ∧ t.EndsIn p above name := by
  unfold fileLocation at h
  split at h
  · cases h
  next name hname =>
  split at h
  · cases h
  next above habove =>
  obtain ⟨hfollow, hdirectory⟩ := exists_of_followToDirectory habove
  split at h
  · cases h
  next hplain =>
  obtain ⟨hname', hslash⟩ : isDotted name = false ∧ p.endsInSlash = false := by
    simpa using hplain
  have hdots : name ≠ "." ∧ name ≠ ".." := by simpa [isDotted] using hname'
  have hsteps : p.steps = (p.pieces.filter (· ≠ "")).dropLast ++ [name] := by
    rw [Path.steps, hslash, if_neg Bool.false_ne_true, List.append_nil]
    exact (List.dropLast_append_getLast? name hname).symm
  obtain ⟨entry, hentry, hne, rfl⟩ : ∃ entry, t.lookUp above name = .ok entry ∧
      entry ≠ some .directory ∧ location = above ++ [name] := by
    split at h
    · cases h
    · cases h
    · next entry hne hentry =>
      exact ⟨entry, hentry, hne, (Except.ok.inj h).symm⟩
  obtain ⟨hlength, rfl⟩ := lookUp_eq_ok_iff.1 hentry
  exact ⟨above, name, rfl, ⟨⟨_, hsteps, hfollow⟩, hdirectory, hdots.1, hdots.2, hlength, hne⟩⟩

/-- Once there is an entry of this name, the steps of the path lead to it. -/
theorem EndsIn.follow_set (h : t.EndsIn p above name) (entry : FileEntry) :
    (t.set (above ++ [name]) entry).follow [] p.steps = .ok (above ++ [name]) := by
  obtain ⟨front, hsteps, hfollow⟩ := h.steps
  have hkept : t.IsKeptIn (t.set (above ++ [name]) entry) := isKeptIn_set h.free
  have hentry : (t.set (above ++ [name]) entry).lookUp above name = .ok (some entry) :=
    lookUp_eq_ok_iff.2 ⟨h.length, t.get?_set_self entry (by simp)⟩
  rw [hsteps]
  exact follow_append_iff.2 ⟨above, hkept.follow hfollow, follow_cons_iff.2
    ⟨hkept.directory above h.directory, _, .down h.stay h.up hentry, rfl⟩⟩

/-- A file that was written is found again at its path. -/
theorem exists_of_write (h : t.write p text = .ok t') :
    ∃ location, t.get? location ≠ some .directory ∧ t' = t.set location (.file text) ∧
      t'.readAt p = .ok (location, text) := by
  unfold write at h
  split at h
  · cases h
  next hfault =>
  split at h
  · next habsolute =>
    split at h
    · cases h
    next location hlocation =>
    cases h
    obtain ⟨above, name, rfl, hends⟩ := exists_endsIn_of_fileLocation hlocation
    have hlocate : (t.set (above ++ [name]) (.file text)).locate p = .ok (above ++ [name]) := by
      rw [locate, hfault]
      dsimp only
      rw [if_pos habsolute, hends.follow_set]
    refine ⟨_, hends.free, rfl, ?_⟩
    rw [readAt, hlocate]
    dsimp only
    rw [get?_set_self _ _ (by simp)]
  · cases h

/-- Whether one tree has a file with a text at a path, where the other has no directory, and is
otherwise the other with more directories, or with none. -/
structure Puts (t t' : FileTree) (p : Path) (text : String) (location : Location) : Prop where
  readAt : t'.readAt p = .ok (location, text)
  free : t.get? location ≠ some .directory
  others : ∀ other, other ≠ location → t'.get? other = t.get? other ∨
    t.get? other = none ∧ t'.get? other = some .directory

theorem AddsDirectories.exists_puts (h : t.AddsDirectories t')
    (hwrite : t'.write p text = .ok t'') : ∃ location, t.Puts t'' p text location := by
  obtain ⟨location, hfree, rfl, hread⟩ := exists_of_write hwrite
  refine ⟨location, hread, fun hdirectory ↦ ?_, fun other hne ↦ ?_⟩
  · rcases h location with hsame | ⟨hnone, -⟩
    · exact hfree (hsame.trans hdirectory)
    · rw [hnone] at hdirectory
      cases hdirectory
  · rw [get?_set_of_ne _ _ hne]
    exact h other

end FileTree
end TypeSurface
