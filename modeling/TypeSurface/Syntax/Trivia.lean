import TypeSurface.Text.Slice

/-!
# Trivia

Trivia is what may stand between two tokens: blanks, comments to the end of the line, and comments
between `/*` and `*/`, of which the last in a text may lack its end.  A line of three slashes is no
trivia.  The main statements say that reading trivia splits the text and takes something.
-/

namespace TypeSurface

inductive Trivia where
  | blank (c : Char)
  | lineComment (body : List Char)
  | blockComment (body : List Char)
  | openComment (body : List Char)
deriving DecidableEq, Repr

namespace Trivia

/-- The characters that are skipped one at a time: space, tab, vertical tab, form feed, the two
line breaks, and the byte order mark. -/
def isBlank (c : Char) : Bool :=
  c == ' ' || c == '\t' || c == '\x0b' || c == '\x0c' || Text.isLineBreak c || c == '\ufeff'

/-- The text that the trivia stands for. -/
def text : Trivia → List Char
  | blank c => [c]
  | lineComment body => '/' :: '/' :: body
  | blockComment body => '/' :: '*' :: (body ++ ['*', '/'])
  | openComment body => '/' :: '*' :: body

/-- Whether the trivia separates two lines.  A comment without an end does not. -/
def hasLineBreak : Trivia → Bool
  | blank c => Text.isLineBreak c
  | lineComment _ => false
  | blockComment body => body.any Text.isLineBreak
  | openComment _ => false

/-- The trivia at the front of a text, and the text behind it. -/
def read : List Char → Option (Trivia × List Char)
  | [] => none
  | '/' :: '/' :: '/' :: _ => none
  | '/' :: '/' :: cs =>
    some (lineComment (cs.takeWhile (!Text.isLineBreak ·)), cs.dropWhile (!Text.isLineBreak ·))
  | '/' :: '*' :: cs =>
    match Text.splitAt? ['*', '/'] cs with
    | some (body, rest) => some (blockComment body, rest)
    | none => some (openComment cs, [])
  | c :: cs => if isBlank c then some (blank c, cs) else none

theorem text_append_of_read {cs rest : List Char} {t : Trivia}
    (h : read cs = some (t, rest)) : t.text ++ rest = cs := by
  unfold read at h
  split at h
  · cases h
  · cases h
  · cases h
    simp [text]
  · split at h
    · next found =>
      cases h
      simp [text, Text.eq_append_of_splitAt? found]
    · cases h
      simp [text]
  · split at h
    · cases h
      rfl
    · cases h

theorem text_ne_nil (t : Trivia) : t.text ≠ [] := by
  cases t <;> simp [text]

theorem length_lt_of_read {cs rest : List Char} {t : Trivia}
    (h : read cs = some (t, rest)) : rest.length < cs.length := by
  have nonempty := List.length_pos_iff.2 t.text_ne_nil
  rw [← text_append_of_read h, List.length_append]
  omega

/-- All trivia at the front of a text. -/
def readAll (cs : List Char) : List Trivia × List Char :=
  match _h : read cs with
  | none => ([], cs)
  | some (t, rest) =>
    let (ts, rest) := readAll rest
    (t :: ts, rest)
termination_by cs.length
decreasing_by exact length_lt_of_read _h

theorem flatMap_text_append_readAll (cs : List Char) :
    (readAll cs).1.flatMap text ++ (readAll cs).2 = cs := by
  fun_induction readAll cs with
  | case1 cs h => simp
  | case2 cs t rest h ts tail tailEq ih =>
    rw [tailEq] at ih
    simpa [ih] using text_append_of_read h

end Trivia
end TypeSurface
