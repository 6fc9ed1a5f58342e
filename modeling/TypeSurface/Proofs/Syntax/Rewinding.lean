import Mathlib.Data.List.Induction
import TypeSurface.Proofs.Syntax.Tiling

/-!
# Rewinding

Somebody who looks ahead sets marks, scans on and goes back.  The scanner then stands where plain
scanning leads, as often as a count says that takes part in the same moves.  The end of a text is
reached once: whoever scans on from there finds nothing new.
-/

namespace TypeSurface
namespace Scanner

variable {s : Scanner} {j k : Nat}

theorem problems_isPrefix_scan (s : Scanner) : s.problems <+: s.scan.problems :=
  List.prefix_append _ _

theorem file_iterate_scan (s : Scanner) (n : Nat) : (scan^[n] s).file = s.file := by
  induction n generalizing s with
  | zero => rfl
  | succ n ih => exact ih s.scan

/-- Defects are only ever added behind those there are. -/
theorem problems_isPrefix_iterate (h : j ≤ k) (s : Scanner) :
    (scan^[j] s).problems <+: (scan^[k] s).problems := by
  induction h with
  | refl => exact List.prefix_rfl
  | @step k h ih =>
    rw [Function.iterate_succ_apply']
    exact ih.trans (problems_isPrefix_scan _)

/-- Going back to a mark undoes the scans since then. -/
theorem rewind_iterate (h : j ≤ k) (s : Scanner) :
    (scan^[k] s).rewind (scan^[j] s).mark = scan^[j] s := by
  have hproblems : (scan^[k] s).problems.take (scan^[j] s).problems.length = (scan^[j] s).problems :=
    (List.prefix_iff_eq_take.1 (problems_isPrefix_iterate h s)).symm
  have hfile : (scan^[k] s).file = (scan^[j] s).file :=
    (file_iterate_scan s k).trans (file_iterate_scan s j).symm
  unfold rewind mark
  rw [hproblems, hfile]

/-! ### Moves -/

inductive Move where
  | scan
  | mark
  | rewind
deriving DecidableEq, Repr

/-- A scanner and the marks to go back to, the latest first. -/
structure Trip where
  scanner : Scanner
  marks : List Mark

/-- Without a mark there is no way back. -/
def Trip.move (t : Trip) : Move → Trip
  | .scan => { t with scanner := t.scanner.scan }
  | .mark => { t with marks := t.scanner.mark :: t.marks }
  | .rewind =>
    match t.marks with
    | [] => t
    | m :: marks => ⟨t.scanner.rewind m, marks⟩

/-- How many tokens have been passed, now and when each mark was set. -/
structure Count where
  passed : Nat
  marked : List Nat

def Count.move (c : Count) : Move → Count
  | .scan => { c with passed := c.passed + 1 }
  | .mark => { c with marked := c.passed :: c.marked }
  | .rewind =>
    match c.marked with
    | [] => c
    | n :: marked => ⟨n, marked⟩

/-- Whether a trip from a scanner stands where the count says.  The later a mark has been set, the
more tokens had been passed. -/
structure Trip.IsAt (start : Scanner) (c : Count) (t : Trip) : Prop where
  scanner : t.scanner = Scanner.scan^[c.passed] start
  marks : t.marks = c.marked.map fun n ↦ (Scanner.scan^[n] start).mark
  order : (c.passed :: c.marked).Pairwise (· ≥ ·)

variable {start : Scanner} {t : Trip} {c : Count}

theorem Trip.IsAt.move (h : t.IsAt start c) (m : Move) : (t.move m).IsAt start (c.move m) := by
  cases m with
  | scan =>
    refine ⟨?_, h.marks, ?_⟩
    · change t.scanner.scan = Scanner.scan^[c.passed + 1] start
      rw [h.scanner, Function.iterate_succ_apply']
    · obtain ⟨hfirst, hrest⟩ := List.pairwise_cons.1 h.order
      exact List.pairwise_cons.2 ⟨fun n hn ↦ Nat.le_succ_of_le (hfirst n hn), hrest⟩
  | mark =>
    refine ⟨h.scanner, ?_, ?_⟩
    · change t.scanner.mark :: t.marks = _
      rw [h.marks, h.scanner]
      rfl
    · refine List.pairwise_cons.2 ⟨fun n hn ↦ ?_, h.order⟩
      rcases List.mem_cons.1 hn with rfl | hn
      · exact Nat.le_refl _
      · exact (List.pairwise_cons.1 h.order).1 n hn
  | rewind =>
    have hmarks := h.marks
    have horder := h.order
    unfold Trip.move Count.move
    cases hcount : c.marked with
    | nil =>
      rw [hcount, List.map_nil] at hmarks
      rw [hmarks]
      exact h
    | cons n marked =>
      rw [hcount] at hmarks horder
      rw [hmarks, List.map_cons]
      obtain ⟨hfirst, hrest⟩ := List.pairwise_cons.1 horder
      refine ⟨?_, rfl, hrest⟩
      change t.scanner.rewind _ = _
      rw [h.scanner]
      exact rewind_iterate (hfirst n (List.mem_cons_self ..)) start

/-- After any moves the scanner stands where the count says. -/
theorem Trip.isAt_foldl (start : Scanner) (moves : List Move) :
    (moves.foldl Trip.move ⟨start, []⟩).IsAt start (moves.foldl Count.move ⟨0, []⟩) := by
  induction moves using List.reverseRecOn with
  | nil => exact ⟨rfl, rfl, List.pairwise_singleton _ _⟩
  | append_singleton moves m ih =>
    rw [List.foldl_append, List.foldl_append]
    exact ih.move m

/-! ### The end of a text -/

/-- The scanner at the end of its text. -/
def last (s : Scanner) : Scanner := s.scanUntil (·.kind = .endOfFile)

theorem scan_of_ahead_eq_nil (h : s.ahead = []) :
    s.scan.ahead = [] ∧ s.scan.token.kind = .endOfFile ∧ s.scan.problems = s.problems := by
  have hnone : Trivia.readAll s.ahead = ([], []) := by
    rw [h]
    exact Trivia.readAll_of_read_eq_none rfl
  unfold scan
  rw [hnone]
  exact ⟨rfl, rfl, List.append_nil _⟩

theorem problems_iterate_of_ahead_eq_nil (h : s.ahead = []) (n : Nat) :
    (scan^[n] s).problems = s.problems := by
  induction n generalizing s with
  | zero => rfl
  | succ n ih => exact (ih (scan_of_ahead_eq_nil h).1).trans (scan_of_ahead_eq_nil h).2.2

theorem last_of_endOfFile (h : s.scan.token.kind = .endOfFile) : s.last = s.scan := by
  unfold last
  rw [scanUntil]
  exact if_pos (by simpa using h)

theorem last_of_not_endOfFile (hs : s.token.kind ≠ .endOfFile)
    (h : s.scan.token.kind ≠ .endOfFile) : s.last = s.scan.last := by
  unfold last
  rw [scanUntil]
  exact (if_neg (by simpa using h)).trans (if_pos (remaining_scan_lt hs))

theorem kind_last (h : s.token.kind ≠ .endOfFile) : s.last.token.kind = .endOfFile := by
  induction hn : s.remaining using Nat.strong_induction_on generalizing s with
  | _ n ih =>
    by_cases hend : s.scan.token.kind = .endOfFile
    · rw [last_of_endOfFile hend]
      exact hend
    · rw [last_of_not_endOfFile h hend]
      exact ih _ (hn ▸ remaining_scan_lt h) hend rfl

/-- Whoever has scanned up to the end of a text, or beyond, has met the defects that scanning to
the end meets. -/
theorem problems_last (n : Nat) (hs : s.token.kind ≠ .endOfFile)
    (h : (scan^[n + 1] s).token.kind = .endOfFile) :
    (scan^[n + 1] s).problems = s.last.problems := by
  induction n generalizing s with
  | zero => exact congrArg problems (last_of_endOfFile h).symm
  | succ n ih =>
    have hstep : scan^[n + 1 + 1] s = scan^[n + 1] s.scan := rfl
    rw [hstep] at h ⊢
    by_cases hend : s.scan.token.kind = .endOfFile
    · rw [last_of_endOfFile hend,
        problems_iterate_of_ahead_eq_nil (ahead_scan_of_endOfFile hend)]
    · rw [last_of_not_endOfFile hs hend]
      exact ih hend h

end Scanner
end TypeSurface
