import TypeSurface.Proofs.Syntax.Parser.Directives

/-!
# References at the head of a file

The sets that a declaration set refers to can be read off the text of its file: they are named by the
tags on the lines of three slashes at its head.
-/

namespace TypeSurface

namespace Lexeme

/-- A directive is a line of three slashes. -/
theorem exists_line_of_kind_read {cs : List Char} (h : (read cs).kind = .directive) :
    ∃ line, cs = '/' :: '/' :: '/' :: line := by
  unfold read at h
  split at h
  · cases h
  · exact ⟨_, rfl⟩
  · cases h
  · cases h
  · next c cs _ _ _ =>
    split at h
    · rw [kind_ofStringBody] at h
      cases h
    split at h
    · cases h
    split at h
    · cases h
    · unfold ofSymbol at h
      split at h
      · next kind hkind =>
        cases h
        unfold TokenKind.ofPunctuation? at hkind
        split at hkind <;> cases hkind
      · cases h

end Lexeme

/-- What the lines of three slashes at the head of a text hold.  Comments may stand between them. -/
def headTags (cs : List Char) : List (List Char) :=
  match _h : (Trivia.readAll cs).2 with
  | '/' :: '/' :: '/' :: line =>
    Text.trim (line.takeWhile (!Text.isLineBreak ·)) ::
      headTags (line.dropWhile (!Text.isLineBreak ·))
  | _ => []
termination_by cs.length
decreasing_by
  have hle := Trivia.length_readAll_le cs
  have hline : (line.dropWhile (!Text.isLineBreak ·)).length ≤ line.length :=
    (List.dropWhile_sublist _).length_le
  rw [_h] at hle
  simp only [List.length_cons] at hle
  omega

/-- The id that a tag refers to. -/
def Directive.tagReference? (tag : List Char) : Option (List Char) :=
  (readTag? tag).bind fun (name, attributes) ↦
    if name = "reference".toList then (attributes.find? (·.1 == "set".toList)).map (·.2) else none

/-- The id that a directive refers to. -/
def Directive.reference? (d : Directive) : Option String :=
  if d.name = "reference" then d.attribute? "set" else none

variable {cs rest : List Char} {s : Scanner}

theorem headTags_of_line {line : List Char}
    (h : (Trivia.readAll cs).2 = '/' :: '/' :: '/' :: line) :
    headTags cs = Text.trim (line.takeWhile (!Text.isLineBreak ·)) ::
      headTags (line.dropWhile (!Text.isLineBreak ·)) := by
  rw [headTags]
  split
  · next heq =>
    rw [h] at heq
    cases heq
    rfl
  · next hother => exact absurd h (hother line)

theorem headTags_of_not_line (h : ∀ line, (Trivia.readAll cs).2 ≠ '/' :: '/' :: '/' :: line) :
    headTags cs = [] := by
  rw [headTags]
  split
  · next heq => exact absurd heq (h _)
  · rfl

namespace Directive

theorem find?_ofList (attributes : List (List Char × List Char)) (key : List Char) :
    ((attributes.map fun (key, value) ↦ (String.ofList key, String.ofList value)).find?
      (·.1 == String.ofList key)).map (·.2) =
      ((attributes.find? (·.1 == key)).map (·.2)).map String.ofList := by
  induction attributes with
  | nil => rfl
  | cons entry attributes ih =>
    by_cases hkey : entry.1 = key
    · simp [hkey]
    · have hkey' : String.ofList entry.1 ≠ String.ofList key := fun h ↦
        hkey (String.ofList_inj.1 h)
      rw [List.map_cons, List.find?_cons_of_neg (by simpa using hkey'),
        List.find?_cons_of_neg (by simpa using hkey), ih]

theorem reference?_ofText? (tag : List Char) (span : Span) :
    (ofText? (String.ofList tag) span).bind reference? = (tagReference? tag).map String.ofList := by
  unfold ofText? tagReference?
  rw [String.toList_ofList]
  cases readTag? tag with
  | none => rfl
  | some found =>
    obtain ⟨name, attributes⟩ := found
    have hattribute := find?_ofList attributes "set".toList
    have hname : String.ofList name = "reference" ↔ name = "reference".toList := by
      rw [← String.toList_inj, String.toList_ofList]
    simp only [Option.map_some, Option.bind_some, reference?, attribute?, hname]
    split
    · exact hattribute
    · rfl

end Directive

theorem Token.directive?_eq (token : Token) :
    token.directive? = Directive.ofText? token.value token.span := by
  unfold Token.directive?
  split
  · rfl
  · next hhead =>
    have hnone : Directive.readTag? token.value.toList = none := by
      unfold Directive.readTag?
      split
      · next heq =>
        rw [heq] at hhead
        exact absurd rfl hhead
      · rfl
    rw [Directive.ofText?, hnone, Option.map_none]

theorem filterMap_toList {α β : Type} (f : α → Option β) (a : Option α) :
    a.toList.filterMap f = (a.bind f).toList := by
  cases a with
  | none => rfl
  | some a => cases hf : f a <;> simp [hf]

theorem filterMap_cons_toList {α β : Type} (f : α → Option β) (a : α) (as : List α) :
    (a :: as).filterMap f = (f a).toList ++ as.filterMap f := by
  cases hf : f a <;> simp [hf]

namespace Scanner

theorem scan_of_line {line : List Char} (h : (Trivia.readAll s.ahead).2 = '/' :: '/' :: '/' :: line) :
    s.scan.token.kind = .directive ∧
      s.scan.token.value = String.ofList (Text.trim (line.takeWhile (!Text.isLineBreak ·))) ∧
      s.scan.ahead = line.dropWhile (!Text.isLineBreak ·) := by
  have hlexeme : Lexeme.read (Trivia.readAll s.ahead).2 =
      ⟨.directive, Text.trim (line.takeWhile (!Text.isLineBreak ·)),
        '/' :: '/' :: '/' :: line.takeWhile (!Text.isLineBreak ·),
        line.dropWhile (!Text.isLineBreak ·), none⟩ := by
    rw [h, Lexeme.read]
  unfold scan
  simp [hlexeme]

/-- What the directives ahead refer to stands in the text. -/
theorem filterMap_reference?_directives (s : Scanner) :
    s.scan.directives.filterMap Directive.reference? =
      ((headTags s.ahead).filterMap Directive.tagReference?).map String.ofList := by
  induction hn : s.ahead.length using Nat.strong_induction_on generalizing s with
  | _ n ih =>
    by_cases hline : ∃ line, (Trivia.readAll s.ahead).2 = '/' :: '/' :: '/' :: line
    · obtain ⟨line, hline⟩ := hline
      obtain ⟨hkind, hvalue, hahead⟩ := scan_of_line hline
      have hlt : s.scan.ahead.length < n := by
        have hle := Trivia.length_readAll_le s.ahead
        have hdrop : (line.dropWhile (!Text.isLineBreak ·)).length ≤ line.length :=
          (List.dropWhile_sublist _).length_le
        rw [hline] at hle
        rw [hahead]
        simp only [List.length_cons] at hle
        omega
      rw [directives_of_kind hkind, Token.directive?_eq, hvalue, List.filterMap_append,
        ih _ hlt s.scan rfl, hahead, headTags_of_line hline, filterMap_toList, filterMap_cons_toList,
        List.map_append]
      have hreference := Directive.reference?_ofText?
        (Text.trim (line.takeWhile (!Text.isLineBreak ·))) s.scan.token.span
      rw [hreference]
      cases Directive.tagReference? (Text.trim (line.takeWhile (!Text.isLineBreak ·))) <;> rfl
    · have hkind : s.scan.token.kind ≠ .directive := fun hkind ↦
        hline (Lexeme.exists_line_of_kind_read hkind)
      rw [directives_of_kind_ne hkind, headTags_of_not_line (not_exists.1 hline)]
      rfl

end Scanner

namespace DeclarationSet

/-- A set refers to what the tags at the head of its file refer to. -/
theorem references_of_parse {file source : String} {S : DeclarationSet}
    (h : parse file source = .ok S) :
    S.references =
      ((headTags source.toList).filterMap Directive.tagReference?).map String.ofList := by
  obtain ⟨head, hheader, -⟩ := header_of_ofSourceFile h
  obtain ⟨d, hd, -⟩ := directive_of_header hheader
  have hdirectives : (SourceFile.parse file source).directives =
      (Scanner.ofSource file source).scan.directives := by
    rcases SourceFile.directives_parse file source with hnil | hhead
    · simp [SourceFile.directive?, hnil] at hd
    · exact hhead
  have hreferences : (Binding.references (.parse file source)).filterMap Except.toOption =
      (SourceFile.parse file source).directives.filterMap Directive.reference? := by
    rw [Binding.references, List.filterMap_map, List.filterMap_filter]
    refine List.filterMap_congr fun d _ ↦ ?_
    simp only [Function.comp_apply, Directive.reference?, beq_iff_eq]
    split
    · cases d.attribute? "set" <;> rfl
    · rfl
  have hset : S.references =
      (Binding.references (.parse file source)).filterMap Except.toOption := by
    unfold parse ofSourceFile at h
    simp only [hheader] at h
    split at h
    · cases h
      rfl
    · cases h
  rw [hset, hreferences, hdirectives, Scanner.filterMap_reference?_directives]
  rfl

end DeclarationSet
end TypeSurface
