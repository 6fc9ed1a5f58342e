import TypeSurface.Binding.File
import TypeSurface.Proofs.Syntax.Statement

/-!
# The header of a file

A line of three slashes that names a set is read as the directive that names it.
-/

namespace TypeSurface

namespace Text

theorem splitAt?_of_notMem {c : Char} {cs : List Char} (rest : List Char) (h : c ∉ cs) :
    splitAt? [c] (cs ++ c :: rest) = some (cs, rest) := by
  induction cs with
  | nil => simp [splitAt?, dropPrefix?]
  | cons d cs ih =>
    obtain ⟨hne, hcs⟩ := not_or.1 (fun hmem ↦ h (List.mem_cons.2 hmem))
    simp [splitAt?, dropPrefix?, hne, ih hcs]

theorem trimStart_cons {c : Char} {cs : List Char} (h : CharClass.isWhiteSpace c = false) :
    trimStart (c :: cs) = c :: cs := by
  simp [trimStart, h]

theorem trimEnd_append {c : Char} {cs : List Char} (h : CharClass.isWhiteSpace c = false) :
    trimEnd (cs ++ [c]) = cs ++ [c] := by
  simp [trimEnd, dropSuffixWhile, h]

theorem trimEnd_append_blank {c : Char} {cs : List Char} (h : CharClass.isWhiteSpace c = true) :
    trimEnd (cs ++ [c]) = trimEnd cs := by
  simp [trimEnd, dropSuffixWhile, h]

end Text

/-- Whether an id may stand between double quotes on one line. -/
def isHeaderId (id : String) : Bool :=
  !id.toList.isEmpty && id.toList.all fun c ↦ !(c == '"' || Text.isLineBreak c)

namespace Directive

/-- The tag that names a set. -/
def setTag (id : List Char) : List Char :=
  '<' :: ("set id=".toList ++ '"' :: (id ++ '"' :: " />".toList))

theorem readAttributes?_id {id : List Char} (h : '"' ∉ id) :
    readAttributes? ("id=".toList ++ '"' :: (id ++ ['"'])) = some [("id".toList, id)] := by
  have hread : readAttribute? ("id=".toList ++ '"' :: (id ++ ['"'])) =
      some (("id".toList, id), []) := by
    have hkey : Text.splitAt? ['='] ("id".toList ++ '=' :: '"' :: (id ++ ['"'])) =
        some ("id".toList, '"' :: (id ++ ['"'])) := Text.splitAt?_of_notMem _ (by decide)
    have hvalue : Text.splitAt? ['"'] (id ++ ['"']) = some (id, []) :=
      Text.splitAt?_of_notMem [] h
    unfold readAttribute?
    rw [show "id=".toList ++ '"' :: (id ++ ['"']) =
      "id".toList ++ '=' :: '"' :: (id ++ ['"']) from rfl, hkey]
    dsimp only
    rw [if_neg (by decide), Text.trimStart_cons (by decide)]
    dsimp only
    rw [if_pos (by decide), hvalue]
    rfl
  rw [readAttributes?, if_neg (by simp)]
  split
  · next hnone =>
    rw [hread] at hnone
    cases hnone
  · next entry rest hsome =>
    rw [hread] at hsome
    cases hsome
    rw [readAttributes?, if_pos (by rfl)]
    rfl

theorem readTag?_setTag {id : List Char} (h : '"' ∉ id) :
    readTag? (setTag id) = some ("set".toList, [("id".toList, id)]) := by
  have hinner : Text.trim ("set id=".toList ++ '"' :: (id ++ '"' :: [' '])) =
      "set id=".toList ++ '"' :: (id ++ ['"']) := by
    have hend : "set id=".toList ++ '"' :: (id ++ '"' :: [' ']) =
        ("set id=".toList ++ '"' :: id ++ ['"']) ++ [' '] := by simp
    have hstart : Text.trimStart ("set id=".toList ++ '"' :: (id ++ '"' :: [' '])) =
        "set id=".toList ++ '"' :: (id ++ '"' :: [' ']) := Text.trimStart_cons (by decide)
    rw [Text.trim, hstart, hend, Text.trimEnd_append_blank (by decide),
      Text.trimEnd_append (by decide)]
    simp
  have hclosing : dropClosing? (Text.trimEnd ("set id=".toList ++ '"' :: (id ++ '"' :: " />".toList))) =
      some ("set id=".toList ++ '"' :: (id ++ '"' :: [' '])) := by
    have hend : "set id=".toList ++ '"' :: (id ++ '"' :: " />".toList) =
        ("set id=".toList ++ '"' :: (id ++ '"' :: " /".toList)) ++ ['>'] := by simp
    rw [hend, Text.trimEnd_append (by decide)]
    simp [dropClosing?]
  have hname : ("set id=".toList ++ '"' :: (id ++ ['"'])).takeWhile
      (!CharClass.isWhiteSpace ·) = "set".toList := by
    rfl
  rw [setTag, readTag?, hclosing]
  dsimp only
  rw [hinner, hname, if_neg (by decide)]
  have hrest : Text.trimStart (("set id=".toList ++ '"' :: (id ++ ['"'])).drop "set".toList.length) =
      "id=".toList ++ '"' :: (id ++ ['"']) := by
    rfl
  rw [hrest, readAttributes?_id h]
  rfl

/-- The directive that names a set. -/
def ofId (id : String) (span : Span) : Directive := ⟨"set", [("id", id)], span⟩

theorem ofText?_setTag {id : String} (span : Span) (h : '"' ∉ id.toList) :
    ofText? (String.ofList (setTag id.toList)) span = some (ofId id span) := by
  unfold ofText?
  rw [String.toList_ofList, readTag?_setTag h]
  simp [ofId]

end Directive

/-- The line that names a set. -/
def headerText (id : String) : String := "/// <set id=\"" ++ id ++ "\" />\n"

theorem toList_headerText (id : String) : (headerText id).toList =
    '/' :: '/' :: '/' :: (' ' :: Directive.setTag id.toList ++ ['\n']) := by
  simp [headerText, Directive.setTag]

theorem isHeaderId_iff {id : String} : isHeaderId id = true ↔
    id ≠ "" ∧ ∀ c ∈ id.toList, c ≠ '"' ∧ Text.isLineBreak c = false := by
  simp [isHeaderId, String.toList_eq_nil_iff]

end TypeSurface
