import TypeSurface.FileTree.Basic

/-!
# Reading under several spellings

Two absolute paths that differ only in filler lead to one file, if both lead to any.
-/

namespace TypeSurface
namespace Path

theorem isAbsolute_eq_of_sameAs {p q : Path} (h : p.sameAs q = true) :
    p.isAbsolute = q.isAbsolute := by
  simp only [sameAs, Bool.and_eq_true, beq_iff_eq] at h
  exact h.1

theorem components_eq_of_sameAs {p q : Path} (h : p.sameAs q = true) :
    p.components = q.components := by
  simp only [sameAs, Bool.and_eq_true, beq_iff_eq] at h
  exact h.2

theorem name?_eq_of_sameAs {p q : Path} (h : p.sameAs q = true) : p.name? = q.name? := by
  unfold name?
  rw [components_eq_of_sameAs h]

theorem sameAs_refl (p : Path) : p.sameAs p = true := by
  simp [sameAs]

theorem sameAs_comm (p q : Path) : p.sameAs q = q.sameAs p := by
  unfold sameAs
  rw [Bool.beq_comm, Bool.beq_comm (a := p.components)]

/-- The steps of an absolute path are its components, with steps on the spot between them. -/
theorem filter_steps {p : Path} (h : p.isAbsolute = true) :
    p.steps.filter (· ≠ ".") = p.components := by
  have hdot : p.startsInDot = false := by simp [startsInDot, h]
  have hend : (if p.endsInSlash then ["."] else []).filter (· ≠ ".") = [] := by
    split <;> rfl
  unfold steps components
  rw [hdot, List.filter_append, hend, List.append_nil, List.filter_filter]
  apply List.filter_congr
  intro piece _
  rw [Bool.eq_iff_iff]
  simp [isFiller, and_comm]

end Path

namespace FileTree

variable {t : FileTree}

/-- Steps on the spot do not change where a path leads. -/
theorem follow_filter {steps : List String} {here location : Location}
    (h : t.follow here steps = .ok location) :
    t.follow here (steps.filter (· ≠ ".")) = .ok location := by
  induction steps generalizing here with
  | nil => exact h
  | cons step steps ih =>
    rw [follow] at h
    split at h
    · next hhere =>
      by_cases hdot : step = "."
      · rw [if_pos hdot] at h
        rw [List.filter_cons_of_neg (by simp [hdot])]
        exact ih h
      rw [if_neg hdot] at h
      rw [List.filter_cons_of_pos (by simp [hdot]), follow, hhere]
      dsimp only
      rw [if_neg hdot]
      split at h
      · next hup =>
        rw [if_pos hup]
        exact ih h
      · next hup =>
        rw [if_neg hup]
        split at h
        · cases h
        · exact ih h
        · cases h
    · cases h

theorem isAbsolute_of_locate {p : Path} {location : Location} (h : t.locate p = .ok location) :
    p.isAbsolute = true := by
  unfold locate at h
  split at h
  · cases h
  · split at h
    · assumption
    · cases h

theorem follow_components {p : Path} {location : Location} (h : t.locate p = .ok location) :
    t.follow [] p.components = .ok location := by
  have habsolute := isAbsolute_of_locate h
  unfold locate at h
  split at h
  · cases h
  · rw [if_pos habsolute] at h
    rw [← Path.filter_steps habsolute]
    exact follow_filter h

theorem exists_locate_of_read {p : Path} {text : String} (h : t.read p = .ok text) :
    ∃ location, t.locate p = .ok location ∧ t.get? location = some (.file text) := by
  unfold read readAt at h
  cases hlocate : t.locate p with
  | error fault =>
    rw [hlocate] at h
    cases h
  | ok location =>
    rw [hlocate] at h
    dsimp only at h
    split at h
    · next hentry =>
      cases h
      exact ⟨location, rfl, hentry⟩
    · cases h
    · cases h

/-- A relative path leads to no file. -/
theorem isAbsolute_of_read {p : Path} {text : String} (h : t.read p = .ok text) :
    p.isAbsolute = true := by
  obtain ⟨location, hlocate, -⟩ := exists_locate_of_read h
  exact isAbsolute_of_locate hlocate

/-- A file has the same text under all its spellings. -/
theorem read_eq_of_sameAs {p q : Path} {text text' : String} (hsame : p.sameAs q = true)
    (hp : t.read p = .ok text) (hq : t.read q = .ok text') : text = text' := by
  obtain ⟨location, hlocate, htext⟩ := exists_locate_of_read hp
  obtain ⟨location', hlocate', htext'⟩ := exists_locate_of_read hq
  have hfollow := follow_components hlocate
  rw [Path.components_eq_of_sameAs hsame, follow_components hlocate'] at hfollow
  cases hfollow
  rw [htext'] at htext
  cases htext
  rfl

end FileTree
end TypeSurface
