import TypeSurface.Text.LineMap

/-!
# Excerpts

An excerpt shows the line on which a span starts and marks below it the characters of that line that
the span covers.  A tab is widened to four columns, in the line and below it.
-/

namespace TypeSurface
namespace Excerpt

def tabWidth : Nat := 4

/-- Number of columns that a character takes. -/
def width (c : Char) : Nat := if c = '\t' then tabWidth else 1

/-- The line as it is shown. -/
def shown (line : List Char) : List Char :=
  line.flatMap fun c ↦ if c = '\t' then List.replicate tabWidth ' ' else [c]

/-- `mark` in every column that the characters take. -/
def fill (mark : Char) (cs : List Char) : List Char :=
  cs.flatMap fun c ↦ List.replicate (width c) mark

/-- Blanks below the first `first` characters, and a tilde in each column of the next `length`
ones.  What lies behind the line is not marked, but one tilde stands in any case. -/
def marks (first length : Nat) (line : List Char) : List Char :=
  let blanks := fill ' ' (line.take first)
  let tildes := fill '~' ((line.drop first).take length)
  if tildes.isEmpty then blanks ++ ['~'] else blanks ++ tildes

theorem width_pos (c : Char) : 0 < width c := by
  unfold width tabWidth
  split <;> omega

/-- Number of columns that some characters take. -/
def columns (cs : List Char) : Nat := cs.foldr (fun c n ↦ width c + n) 0

@[simp] theorem length_shown (line : List Char) : (shown line).length = columns line := by
  induction line with
  | nil => rfl
  | cons c cs ih =>
    by_cases h : c = '\t' <;> simp_all [shown, columns, width, Nat.add_comm]

@[simp] theorem length_fill (mark : Char) (cs : List Char) :
    (fill mark cs).length = columns cs := by
  induction cs with
  | nil => rfl
  | cons c cs ih => simp_all [fill, columns]

end Excerpt
end TypeSurface
