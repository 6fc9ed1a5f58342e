import TypeSurface.Proofs.Text.Lines
import TypeSurface.Report.Basic

/-!
# What an excerpt marks

An excerpt shows the line on which a range of characters starts and marks columns below it.  The
main statement says which lines an excerpt is made of, and when the marks stand below the range and
below nothing else: a range is as long as it has bytes, but as many characters are marked.
-/

namespace TypeSurface

/-- A name that is registered gives its last text, the empty name none. -/
theorem Source.find?_of_latest {older newer : List Source} {file text : String}
    (hlatest : ∀ s ∈ newer, s.file ≠ file) :
    find? (older ++ ⟨file, text⟩ :: newer) file =
      if file = "" then none else some ⟨file, text⟩ := by
  have hnone : newer.reverse.find? (·.file == file) = none :=
    List.find?_eq_none.2 fun s hs ↦ by simpa using hlatest s (List.mem_reverse.1 hs)
  rw [find?, List.reverse_append, List.reverse_cons, List.append_assoc, List.find?_append, hnone]
  simp

namespace Excerpt

open Text

variable {line before covered behind : List Char}

theorem columns_append (as bs : List Char) : columns (as ++ bs) = columns as + columns bs := by
  induction as with
  | nil => simp [columns]
  | cons a as ih => simp_all [columns, Nat.add_assoc]

theorem fill_eq_replicate (mark : Char) (cs : List Char) :
    fill mark cs = List.replicate (columns cs) mark := by
  rw [List.eq_replicate_iff]
  refine ⟨length_fill mark cs, fun c hc ↦ ?_⟩
  obtain ⟨d, -, hc⟩ := List.mem_flatMap.1 hc
  exact List.eq_of_mem_replicate hc

/-- Whether a text shows a line: in the columns that a character takes stands the character, and
four blanks in those of a tab. -/
structure Shows (line shown : List Char) : Prop where
  length : shown.length = columns line
  cell : ∀ before c after, line = before ++ c :: after →
    (shown.drop (columns before)).take (width c) =
      if c = '\t' then [' ', ' ', ' ', ' '] else [c]

theorem shows_shown (line : List Char) : Shows line (shown line) := by
  refine ⟨length_shown line, ?_⟩
  rintro before c after rfl
  have hsplit : shown (before ++ c :: after) =
      shown before ++ ((if c = '\t' then List.replicate tabWidth ' ' else [c]) ++ shown after) := by
    simp [shown]
  rw [hsplit, ← length_shown, List.drop_left]
  by_cases hc : c = '\t'
  · simp only [width, if_pos hc]
    exact List.take_left' (List.length_replicate ..)
  · simp only [width, if_neg hc]
    rfl

/-- Whether the marks below a line underline the bytes from `start` up to `stop`, counted from the
start of the line: a tilde stands in exactly the columns of the characters whose bytes lie there,
and a blank in every other column up to the last tilde. -/
structure Underlines (line : List Char) (start stop : Nat) (marks : List Char) : Prop where
  tilde : ∀ column, marks[column]? = some '~' ↔
    ∃ before c after, line = before ++ c :: after ∧ start ≤ byteLength before ∧
      byteLength (before ++ [c]) ≤ stop ∧ columns before ≤ column ∧
      column < columns (before ++ [c])
  blank : ∀ mark ∈ marks, mark = ' ' ∨ mark = '~'
  last : marks.getLast? = some '~'

/-- Each column of a text is taken by one of its characters. -/
theorem exists_of_lt_columns {cs : List Char} {column : Nat} (h : column < columns cs) :
    ∃ before c after, cs = before ++ c :: after ∧ columns before ≤ column ∧
      column < columns (before ++ [c]) := by
  induction cs using List.reverseRecOn with
  | nil => cases h
  | append_singleton cs c ih =>
    by_cases hlt : column < columns cs
    · obtain ⟨before, d, after, rfl, hle, hlt⟩ := ih hlt
      exact ⟨before, d, after ++ [c], by simp, hle, hlt⟩
    · exact ⟨cs, c, [], rfl, not_lt.1 hlt, h⟩

theorem columns_pos_of_ne_nil {cs : List Char} (h : cs ≠ []) : 0 < columns cs := by
  cases cs with
  | nil => exact absurd rfl h
  | cons c cs => exact Nat.add_pos_left (width_pos c) _

theorem getElem?_fill_append (before covered : List Char) (column : Nat) :
    (fill ' ' before ++ fill '~' covered)[column]? = some '~' ↔
      columns before ≤ column ∧ column < columns (before ++ covered) := by
  rw [fill_eq_replicate, fill_eq_replicate, columns_append]
  by_cases h : column < columns before
  · rw [List.getElem?_append_left (by simpa using h), List.getElem?_replicate_of_lt h]
    simpa using fun hle ↦ absurd hle (not_le.2 h)
  · rw [List.getElem?_append_right (by simpa using h), List.length_replicate,
      List.getElem?_replicate]
    split
    · simp
      omega
    · simp
      omega

/-- Tildes below the characters that lie in a range, behind blanks below those in front of it,
underline the range, if the next character does not lie in it any more. -/
theorem underlines_fill {stop : Nat} (hne : covered ≠ [])
    (hcovered : byteLength (before ++ covered) ≤ stop)
    (hbehind : ∀ c ∈ behind.head?, stop < byteLength (before ++ covered) + c.utf8Size) :
    Underlines (before ++ (covered ++ behind)) (byteLength before) stop
      (fill ' ' before ++ fill '~' covered) := by
  have htildes : columns covered ≠ 0 := (columns_pos_of_ne_nil hne).ne'
  refine ⟨fun column ↦ ?_, fun mark hmark ↦ ?_, ?_⟩
  · rw [getElem?_fill_append]
    constructor
    · rintro ⟨hle, hlt⟩
      rw [columns_append] at hlt
      have hwithin : column - columns before < columns covered := by omega
      obtain ⟨front, c, after, rfl, hle', hlt'⟩ := exists_of_lt_columns hwithin
      refine ⟨before ++ front, c, after ++ behind, by simp, by simp, ?_, ?_, ?_⟩
      · refine le_trans ?_ hcovered
        simp only [byteLength_append, byteLength_cons, byteLength_nil]
        omega
      · rw [columns_append]
        omega
      · rw [List.append_assoc, columns_append]
        omega
    · rintro ⟨front, c, after, hsplit, hstart, hstop, hle, hlt⟩
      obtain ⟨text, rfl⟩ := exists_append_of_byteLength_le hsplit hstart
      rw [columns_append] at hle
      refine ⟨by omega, lt_of_lt_of_le hlt ?_⟩
      have hcut : before ++ covered ++ behind = before ++ text ++ [c] ++ after := by
        simpa using hsplit
      rcases List.append_eq_append_iff.1 hcut with ⟨rest, hfront, hback⟩ | ⟨rest, hfront, -⟩
      · cases rest with
        | nil => rw [hfront, List.append_nil]
        | cons d rest =>
          have hbeyond := hbehind d (by rw [hback]; rfl)
          rw [hfront, byteLength_append, byteLength_cons] at hstop
          omega
      · rw [hfront, columns_append _ rest]
        exact Nat.le_add_right _ _
  · simp only [fill_eq_replicate, List.mem_append, List.mem_replicate] at hmark
    tauto
  · rw [fill_eq_replicate '~', List.getLast?_append, List.getLast?_replicate, if_neg htildes]
    rfl

/-! ### Characters and bytes -/

theorem length_le_byteLength (cs : List Char) : cs.length ≤ byteLength cs := by
  induction cs with
  | nil => exact le_rfl
  | cons c cs ih =>
    have := c.utf8Size_pos
    rw [List.length_cons, byteLength_cons]
    omega

/-- A text has as many characters as bytes just if each character takes one byte. -/
theorem length_eq_byteLength_iff {cs : List Char} :
    cs.length = byteLength cs ↔ ∀ c ∈ cs, c.utf8Size = 1 := by
  induction cs with
  | nil => simp
  | cons c cs ih =>
    have hpos := c.utf8Size_pos
    have hle := length_le_byteLength cs
    rw [List.forall_mem_cons, ← ih, List.length_cons, byteLength_cons]
    omega

theorem marks_eq {rest : List Char} {length : Nat} (hrest : rest ≠ []) (hlength : 0 < length) :
    marks before.length length (before ++ rest) =
      fill ' ' before ++ fill '~' (rest.take length) := by
  have hne : fill '~' (rest.take length) ≠ [] := by
    have htake : rest.take length ≠ [] := by
      simpa [hrest] using hlength.ne'
    rw [← List.length_pos_iff, length_fill]
    exact columns_pos_of_ne_nil htake
  simp [marks, hne]

/-- As many characters are underlined as the range has bytes. -/
theorem underlines_take {rest : List Char} {length : Nat} (hrest : rest ≠ [])
    (hlength : 0 < length) :
    Underlines (before ++ rest) (byteLength before) (byteLength (before ++ rest.take length))
      (marks before.length length (before ++ rest)) := by
  have htake : rest.take length ≠ [] := by
    simpa [hrest] using hlength.ne'
  rw [marks_eq hrest hlength]
  have hunderlines : Underlines (before ++ (rest.take length ++ rest.drop length))
      (byteLength before) (byteLength (before ++ rest.take length))
      (fill ' ' before ++ fill '~' (rest.take length)) :=
    underlines_fill htake le_rfl fun c _ ↦ Nat.lt_add_of_pos_right c.utf8Size_pos
  rwa [List.take_append_drop] at hunderlines

/-- The marks stand below the range and nothing else if it has no longer characters, or goes on to
the end of the line. -/
theorem underlines_marks_iff {rest tail range after : List Char} (hrest : rest ≠ [])
    (hrange : range ≠ []) (hsplit : rest ++ tail = range ++ after) :
    Underlines (before ++ rest) (byteLength before) (byteLength before + byteLength range)
        (marks before.length (byteLength range) (before ++ rest)) ↔
      (∀ c ∈ range, c.utf8Size = 1) ∨ byteLength rest ≤ byteLength range := by
  have hlength := byteLength_pos_of_ne_nil hrange
  rw [marks_eq hrest hlength, ← length_eq_byteLength_iff]
  by_cases hle : byteLength rest ≤ byteLength range
  · refine iff_of_true ?_ (.inr hle)
    have hunderlines : Underlines (before ++ (rest ++ [])) (byteLength before)
        (byteLength before + byteLength range) (fill ' ' before ++ fill '~' rest) :=
      underlines_fill hrest (by rw [byteLength_append]; omega) nofun
    rw [List.append_nil] at hunderlines
    rwa [List.take_of_length_le ((length_le_byteLength rest).trans hle)]
  obtain ⟨behind, rfl⟩ := exists_append_of_byteLength_le hsplit.symm (not_le.1 hle).le
  have hbehind : behind ≠ [] := by
    rintro rfl
    simp at hle
  constructor
  · intro hunderlines
    refine .inl (le_antisymm (length_le_byteLength range) (not_lt.1 fun hlt ↦ ?_))
    -- The column behind the range is marked as well.
    have hmore : behind.take (byteLength range - range.length) ≠ [] := by
      simpa [hbehind] using (Nat.sub_pos_of_lt hlt).ne'
    have hmarked : (fill ' ' before ++ fill '~' ((range ++ behind).take (byteLength range)))[
        columns (before ++ range)]? = some '~' := by
      have hpos := columns_pos_of_ne_nil hmore
      rw [getElem?_fill_append, List.take_append, List.take_of_length_le hlt.le]
      simp only [columns_append]
      omega
    obtain ⟨front, c, rest, hline, -, hstop, -, hcolumn⟩ := (hunderlines.tilde _).1 hmarked
    have hcut : front ++ [c] ++ rest = before ++ range ++ behind := by
      simpa using hline.symm
    obtain ⟨text, htext⟩ :=
      exists_append_of_byteLength_le hcut (by rwa [byteLength_append before])
    rw [htext, columns_append _ text] at hcolumn
    omega
  · rintro (hlength | hle')
    · rw [List.take_left' hlength]
      refine underlines_fill hrange (byteLength_append before range).le fun c _ ↦ ?_
      rw [byteLength_append]
      exact Nat.lt_add_of_pos_right c.utf8Size_pos
    · exact absurd hle' hle

end Excerpt

namespace Report

open Text

theorem place?_eq {older newer : List Source} {file text : String} {i start : Nat}
    {before rest : List Char} (hlatest : ∀ s ∈ newer, s.file ≠ file)
    (hline : IsLine text.toList i start (before ++ rest)) (hrest : rest ≠ []) :
    place? (older ++ ⟨file, text⟩ :: newer) file (start + byteLength before) =
      if file = "" then none else some ⟨i + 1, before.length + 1, before ++ rest⟩ := by
  rw [place?, Source.find?_of_latest hlatest]
  split
  · rfl
  · simp [hline.position_eq hrest, hline.lineText?]

/-- A range that starts in a line, cut out of the line and of the text. -/
theorem exists_of_isLine {source before range after line : List Char} {i start : Nat}
    (hsource : source = before ++ (range ++ after)) (hline : IsLine source i start line)
    (hstart : start ≤ byteLength before) (hinside : byteLength before < start + byteLength line) :
    ∃ inner rest tail, line = inner ++ rest ∧ rest ≠ [] ∧ rest ++ tail = range ++ after ∧
      byteLength before = start + byteLength inner := by
  obtain ⟨front, tail, hfront, rfl, -⟩ := hline.exists_append
  obtain ⟨inner, rfl⟩ := exists_append_of_byteLength_le (hfront.symm.trans hsource) hstart
  rw [byteLength_append] at hinside
  have hcut : inner ++ (range ++ after) = line ++ tail := by
    simpa using hsource.symm.trans hfront
  obtain ⟨rest, rfl⟩ := exists_append_of_byteLength_le hcut (by omega)
  refine ⟨inner, rest, tail, rfl, ?_, ?_, byteLength_append ..⟩
  · rintro rfl
    simp at hinside
  · simpa using hcut.symm

/-- The excerpt of a range that starts in a line of a registered text shows this line under its
number.  The marks below it start below the first character of the range and go on below as many
characters as the range has bytes.  So they underline the range just if all its characters take one
byte, or if it goes on to the end of the line, where the marks are cut.  A text without a name is
not shown. -/
theorem excerpt_underlines_iff {older newer : List Source} {file text : String}
    {before range after line : List Char} {i start : Nat}
    (hlatest : ∀ s ∈ newer, s.file ≠ file)
    (htext : text.toList = before ++ (range ++ after)) (hrange : range ≠ [])
    (hline : IsLine text.toList i start line) (hstart : start ≤ byteLength before)
    (hinside : byteLength before < start + byteLength line) :
    ∃ inner rest shown marks, line = inner ++ rest ∧
      byteLength before = start + byteLength inner ∧
      excerpt false (older ++ ⟨file, text⟩ :: newer) file (byteLength before) (byteLength range) =
        (if file = "" then "" else
          "\n " ++ toString (i + 1) ++ " | " ++ String.ofList shown ++
            "\n " ++ "".pushn ' ' (toString (i + 1)).length ++ " | " ++ String.ofList marks) ∧
      Excerpt.Shows line shown ∧
      Excerpt.Underlines line (byteLength inner)
        (byteLength (inner ++ rest.take (byteLength range))) marks ∧
      (Excerpt.Underlines line (byteLength inner) (byteLength inner + byteLength range) marks ↔
        (∀ c ∈ range, c.utf8Size = 1) ∨
          start + byteLength line ≤ byteLength before + byteLength range) := by
  obtain ⟨inner, rest, tail, rfl, hrest, hsplit, hbefore⟩ :=
    exists_of_isLine htext hline hstart hinside
  have hlength := byteLength_pos_of_ne_nil hrange
  refine ⟨inner, rest, Excerpt.shown (inner ++ rest),
    Excerpt.marks inner.length (byteLength range) (inner ++ rest), rfl, hbefore, ?_,
    Excerpt.shows_shown _, Excerpt.underlines_take hrest hlength, ?_⟩
  · rw [hbefore, excerpt, if_neg hlength.ne', place?_eq hlatest hline hrest]
    by_cases hfile : file = ""
    · rw [if_pos hfile, if_pos hfile]
    · rw [if_neg hfile, if_neg hfile]
      rfl
  · rw [Excerpt.underlines_marks_iff hrest hrange hsplit, hbefore, byteLength_append]
    exact or_congr_right (by omega)

/-- A range of two characters behind a tab, on the second line of the latest text of a file. -/
theorem excerpt_underlines_iff_tabbed :
    let text := "é: A;\r\n\tp: 中;\n"
    let sources := [⟨"a.d.ts", "old"⟩, ⟨"a.d.ts", text⟩, ⟨"b.d.ts", "new"⟩]
    IsLine text.toList 1 8 "\tp: 中;".toList ∧
    ∃ inner rest shown marks, "\tp: 中;".toList = inner ++ rest ∧ 9 = 8 + byteLength inner ∧
      excerpt false sources "a.d.ts" 9 2 = "\n " ++ toString 2 ++ " | " ++ String.ofList shown ++
        "\n " ++ "".pushn ' ' (toString 2).length ++ " | " ++ String.ofList marks ∧
      Excerpt.Shows "\tp: 中;".toList shown ∧
      Excerpt.Underlines "\tp: 中;".toList (byteLength inner)
        (byteLength (inner ++ rest.take 2)) marks ∧
      (Excerpt.Underlines "\tp: 中;".toList (byteLength inner) (byteLength inner + 2) marks ↔
        (∀ c ∈ "p:".toList, c.utf8Size = 1) ∨ 8 + byteLength "\tp: 中;".toList ≤ 9 + 2) := by
  intro text sources
  let ended := [("é: A;".toList, ['\r', '\n']), ("\tp: 中;".toList, ['\n'])]
  have hsecond :
      Text.Lines [("\tp: 中;".toList, ['\n'])] [] ("\tp: 中;".toList ++ (['\n'] ++ [])) :=
    .cons (by simp [isLineBreak]) (by decide) (by simp) (.last (by simp))
  have htext : text.toList =
      "é: A;".toList ++ (['\r', '\n'] ++ ("\tp: 中;".toList ++ (['\n'] ++ []))) := by
    decide
  have hlines : Text.Lines ended [] text.toList :=
    htext ▸ .cons (by simp [isLineBreak]) (by decide) (by simp) hsecond
  have hline : IsLine text.toList 1 8 "\tp: 中;".toList :=
    ⟨ended, [], hlines, by decide, by decide⟩
  refine ⟨hline, ?_⟩
  exact @excerpt_underlines_iff [⟨"a.d.ts", "old"⟩] [⟨"b.d.ts", "new"⟩] "a.d.ts" text
    "é: A;\r\n\t".toList "p:".toList " 中;\n".toList "\tp: 中;".toList 1 8
    (by decide) (by decide) (by decide) hline (by decide) (by decide)

/-- The six bytes of two characters, marked by as many tildes as the line has characters left. -/
theorem not_excerpt_underlines :
    excerpt false [⟨"a.d.ts", "type 中文 A;\n"⟩] "a.d.ts" 5 6 =
        "\n 1 | type 中文 A;\n   |      ~~~~~" ∧
      ¬Excerpt.Underlines "type 中文 A;".toList 5 (5 + 6) "     ~~~~~".toList := by
  refine ⟨by decide +kernel, fun hunderlines ↦ ?_⟩
  have hrest : "中文 A;".toList ≠ [] := by decide
  have hrange : "中文".toList ≠ [] := by decide
  have hsplit : "中文 A;".toList ++ ['\n'] = "中文".toList ++ " A;\n".toList := by decide
  have hiff := @Excerpt.underlines_marks_iff "type ".toList _ _ _ _ hrest hrange hsplit
  rcases hiff.1 hunderlines with hall | hle
  · exact absurd (hall '中' (by decide)) (by decide)
  · exact absurd hle (by decide)

end Report
end TypeSurface
