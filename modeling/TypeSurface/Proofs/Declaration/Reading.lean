import TypeSurface.Proofs.Binding.Printed
import TypeSurface.Proofs.Syntax.Parser.Directives

/-!
# Reading printed declarations

Plain declarations that are printed and read again are the same but for their places, with one
exception: the text of a method without a mark and with the bare name `new` is that of a construct
signature.
-/

namespace TypeSurface

namespace Declarations

/-- Whether the text of the declarations is not taken for other declarations: names of types are no
words of the language, quoted texts are plain, unions, intersections and operands need no
parentheses that are not printed, and types are nested no deeper than a reader goes. -/
structure IsPlain (d : Declarations) : Prop where
  members : ∀ f ∈ d.forms, f.members.all MemberForm.isPlain = true
  types : ∀ f ∈ d.forms, ∀ t ∈ f.types, t.All fun u ↦ u.isPlainNode = true
  depth : ∀ f ∈ d.forms, ∀ t ∈ f.outermost, t.depth < maxTypeNesting

/-- Whether a method anywhere in the declarations is written as a construct signature. -/
def HoldsBareNew (d : Declarations) : Prop :=
  ∃ f ∈ d.forms, (∃ m ∈ f.members, m.isBareNew = true) ∨
    ∃ t ∈ f.types, ∃ u ∈ t.nodes, u.holdsBareNew = true

instance (d : Declarations) : Decidable d.IsPlain :=
  decidable_of_iff
    ((∀ f ∈ d.forms, f.members.all MemberForm.isPlain = true) ∧
      (∀ f ∈ d.forms, ∀ t ∈ f.types, ∀ u ∈ t.nodes, u.isPlainNode = true) ∧
      ∀ f ∈ d.forms, ∀ t ∈ f.outermost, t.depth < maxTypeNesting)
    ⟨fun h ↦ ⟨h.1, h.2.1, h.2.2⟩, fun h ↦ ⟨h.members, h.types, h.depth⟩⟩

instance (d : Declarations) : Decidable d.HoldsBareNew :=
  inferInstanceAs (Decidable (∃ f ∈ d.forms, _ ∨ _))

end Declarations

/-! ### Forms of bound declarations -/

section Forms

variable {isQuiet : Bool} {name : String} {d : Declarations}

theorem Interface.IsBound.isFound_form {i : Interface} (h : i.IsBound isQuiet name) :
    i.form.IsFound isQuiet := by
  obtain ⟨hwritten, htypes, -⟩ := h.head
  have hmembers : ∀ f ∈ i.members.values.flatMap Member.forms, f.IsFound isQuiet := by
    intro f hf
    obtain ⟨m, hm, hf⟩ := List.mem_flatMap.1 hf
    obtain ⟨e, he, rfl⟩ := List.mem_map.1 hm
    exact (Binding.mem_of_entries h.members e he).found f hf
  refine ⟨?_, fun t ht ↦ ?_, fun hq m hm ↦ (hmembers m hm).notBareNew hq⟩
  · simp only [StatementForm.isWritten, Bool.and_eq_true] at hwritten
    simp only [form, StatementForm.isWritten, Bool.and_eq_true, List.all_eq_true]
    refine ⟨?_, fun f hf ↦ (hmembers f hf).written⟩
    simpa using hwritten.1
  · simp only [form, StatementForm.types, List.mem_append] at ht
    simp only [StatementForm.types, List.mem_append] at htypes
    rcases ht with ht | ht
    · exact htypes t (Or.inl ht)
    · obtain ⟨f, hf, ht⟩ := List.mem_flatMap.1 ht
      exact (hmembers f hf).types t ht

theorem TypeEntry.IsBound.isFound_form {entry : TypeEntry} (h : entry.IsBound isQuiet name) :
    entry.form.IsFound isQuiet := by
  cases entry with
  | interface i => exact Interface.IsBound.isFound_form h
  | typeAlias a => exact h.2

/-- A reader may find every statement that bound declarations are printed as. -/
theorem Declarations.IsBound.isFound (h : d.IsBound isQuiet) : ∀ f ∈ d.forms, f.IsFound isQuiet := by
  intro f hf
  rcases List.mem_append.1 hf with hf | hf
  · obtain ⟨entry, hentry, rfl⟩ := List.mem_map.1 hf
    obtain ⟨e, he, rfl⟩ := List.mem_map.1 hentry
    exact (Binding.mem_of_entries h.types e he).isFound_form
  · obtain ⟨entry, hentry, hf⟩ := List.mem_flatMap.1 hf
    obtain ⟨e, he, rfl⟩ := List.mem_map.1 hentry
    exact (Binding.mem_of_entries h.values e he).found f hf

theorem Declarations.IsBound.isPrinted (h : d.IsBound isQuiet) :
    ∀ i, .interface i ∈ d.types.values → i.IsPrinted := by
  intro i hi m hm
  obtain ⟨e, he, hinterface⟩ := List.mem_map.1 hi
  have hbound : (TypeEntry.interface i).IsBound isQuiet e.1 :=
    hinterface ▸ Binding.mem_of_entries h.types e he
  obtain ⟨e', he', rfl⟩ := List.mem_map.1 hm
  exact (Binding.mem_of_entries hbound.members e' he').printed

theorem Declarations.IsBound.isSpelt (h : d.IsBound isQuiet) (hplain : d.IsPlain) :
    ∀ f ∈ d.forms, f.IsSpelt := by
  intro f hf
  have hfound := h.isFound f hf
  refine ⟨hfound.written, ?_, fun t ht u hu ↦ ?_⟩
  · exact List.all_eq_true.2 fun m hm ↦
      MemberForm.isShown_of_isPlain (List.all_eq_true.1 (hplain.members f hf) m hm)
  · exact ⟨(hfound.types t ht u hu).1,
      TypeExpr.isShownNode_of_isPlainNode (hplain.types f hf t ht u hu)⟩

theorem Declarations.IsBound.isReadable (h : d.IsBound isQuiet) (hplain : d.IsPlain)
    (hnew : ¬d.HoldsBareNew) : ∀ f ∈ d.forms, f.IsReadable := by
  intro f hf
  have hspelt := h.isSpelt hplain f hf
  have htypes := hplain.types f hf
  refine ⟨hspelt.written, hspelt.shown, fun t ht ↦ ?_, fun t ht ↦ ?_, fun t ht ↦ ?_,
    hplain.depth f hf, fun m hm ↦ ?_⟩
  · exact TypeExpr.isReadable_of_plain (fun u hu ↦ (hspelt.types t ht u hu).1) (htypes t ht)
      fun u hu ↦ Bool.eq_false_iff.2 fun hbare ↦ hnew ⟨f, hf, Or.inr ⟨t, ht, u, hu, hbare⟩⟩
  · exact TypeExpr.startsNew_of_plain (StatementForm.all_outermost htypes t ht)
  · exact TypeExpr.startsPredicate_of_plain (htypes t (StatementForm.mem_types_of_mem_results ht))
  · exact Bool.eq_false_iff.2 fun hbare ↦ hnew ⟨f, hf, Or.inl ⟨m, hm, hbare⟩⟩

theorem Declarations.IsBound.not_holdsBareNew (h : d.IsBound true) : ¬d.HoldsBareNew := by
  rintro ⟨f, hf, ⟨m, hm, hbare⟩ | ⟨t, ht, u, hu, hbare⟩⟩
  · rw [(h.isFound f hf).notBareNew rfl m hm] at hbare
    cases hbare
  · rw [((h.isFound f hf).types t ht u hu).2 rfl] at hbare
    cases hbare

/-- The text of bound and plain declarations is read as the pieces of their statements. -/
theorem Declarations.IsBound.lexes_text (h : d.IsBound isQuiet) (hplain : d.IsPlain) :
    Lexes d.text.toList (d.forms.flatMap StatementForm.pieces ++ [.ending]) := by
  have hlines := lines_join fun f hf ↦ (h.isSpelt hplain f hf).lines
  have hall := hlines.lexes [] [.ending] (by simp [StartsLine, Piece.ending]) lexes_ending
  rwa [List.append_nil, ← Declarations.text_eq h.isPrinted] at hall

end Forms

/-! ### Reading -/

theorem Binding.header_ofId {f : SourceFile} {id : String} {span : Span} (hid : id ≠ "")
    (hf : f.directives = [.ofId id span]) : Binding.header f = .ok ⟨id, "0.0.0", none, false⟩ := by
  have hfilter : (some id).filter (fun text ↦ !decide (text = "")) = some id :=
    Option.filter_some_pos (by simpa using hid)
  simp [Binding.header, SourceFile.directive?, hf, Directive.ofId, Directive.attribute?, hfilter,
    Binding.headerMode, Except.map]

theorem Declarations.holdsBareNew_unplaced (d : Declarations) :
    d.unplaced.HoldsBareNew ↔ d.HoldsBareNew := by
  unfold HoldsBareNew
  rw [forms_unplaced]

theorem exists_ok_iff {ε α : Type} {e : Except ε α} {P : α → Prop} :
    (∃ a, e = .ok a ∧ P a) ↔ ∃ a ∈ e.toOption, P a := by
  cases e <;> simp [Except.toOption]

namespace DeclarationSet

/-- A file with nothing but the directive that names a set, and with statements that go together,
declares a set. -/
theorem ofSourceFile_ofId {file id : String} {span : Span} {statements : List Statement}
    (hid : id ≠ "") (hclean : (Binding.statements ⟨id, file⟩ statements).conflicts = []) :
    ofSourceFile ⟨file, [.ofId id span], statements, []⟩ =
      .ok ⟨id, "0.0.0", none, false, file, [], (Binding.statements ⟨id, file⟩ statements).value⟩ := by
  have hreferences : Binding.references ⟨file, [.ofId id span], statements, []⟩ = [] := by
    simp [Binding.references, Directive.ofId]
  unfold ofSourceFile
  rw [Binding.header_ofId hid rfl, hreferences]
  simp [Binding.problemOf?, hclean]

/-- Printed declarations are not read as a method that is written as a construct signature. -/
theorem not_holdsBareNew_of_parse_text {file source file' id : String} {S S' : DeclarationSet}
    (h : parse file source = .ok S) (hplain : S.declarations.IsPlain) (hid : isHeaderId id = true)
    (h' : parse file' (headerText id ++ S.declarations.text) = .ok S') :
    ¬S'.declarations.HoldsBareNew := by
  have hlexes := (isBound_of_parse h).lexes_text hplain
  obtain ⟨c, hc⟩ := parse_declarations h'
  have hbound : S'.declarations.IsBound true :=
    hc ▸ Binding.isBound_statements c (isFound_of_parse_header file' hid hlexes)
  exact hbound.not_holdsBareNew

/-- The text of a set's declarations, behind a header, is read without a defect as the same
declarations, if and only if these hold no method that is written as a construct signature. -/
theorem parse_text_iff {file source : String} {S : DeclarationSet}
    (h : parse file source = .ok S) (hplain : S.declarations.IsPlain) {id : String}
    (hid : isHeaderId id = true) (file' : String) :
    (∃ S', parse file' (headerText id ++ S.declarations.text) = .ok S' ∧
      (SourceFile.parse file' (headerText id ++ S.declarations.text)).problems = [] ∧
      S'.declarations.unplaced = S.declarations.unplaced) ↔ ¬S.declarations.HoldsBareNew := by
  constructor
  · rintro ⟨S', hS', -, hsame⟩
    -- What is read holds no such method, so the equal declarations hold none.
    have hnew := not_holdsBareNew_of_parse_text h hplain hid hS'
    rwa [← Declarations.holdsBareNew_unplaced, hsame, Declarations.holdsBareNew_unplaced] at hnew
  · intro hnew
    have hbound := isBound_of_parse h
    obtain ⟨span, statements, hparse, hforms⟩ :=
      parse_header file' hid (hbound.isReadable hplain hnew) (hbound.lexes_text hplain)
    obtain ⟨hclean, hsame⟩ := Binding.statements_forms (c := ⟨id, file'⟩) hbound hforms
    refine ⟨⟨id, "0.0.0", none, false, file', [], (Binding.statements ⟨id, file'⟩ statements).value⟩,
      ?_, congrArg SourceFile.problems hparse, hsame⟩
    unfold parse
    rw [hparse]
    exact ofSourceFile_ofId (isHeaderId_iff.1 hid).1 hclean

/-- A set with one interface, in which a method gives a list. -/
def boxSource : String := "/// <set id=\"a\" />\ninterface Box<T> \x7b get(): T[] \x7d\n"

theorem parse_text_iff_box :
    ∃ S, parse "a.d.ts" boxSource = .ok S ∧ S.declarations.IsPlain ∧ isHeaderId "b" = true ∧
      ∃ S', parse "b.d.ts" (headerText "b" ++ S.declarations.text) = .ok S' ∧
        (SourceFile.parse "b.d.ts" (headerText "b" ++ S.declarations.text)).problems = [] ∧
        S'.declarations.unplaced = S.declarations.unplaced := by
  obtain ⟨S, hS, hplain, hnew⟩ : ∃ S, parse "a.d.ts" boxSource = .ok S ∧
      S.declarations.IsPlain ∧ ¬S.declarations.HoldsBareNew :=
    exists_ok_iff.2 (by decide +kernel)
  have hid : isHeaderId "b" = true := by decide
  exact ⟨S, hS, hplain, hid, (parse_text_iff hS hplain hid "b.d.ts").2 hnew⟩

/-- A set in which a directive stands between the name `new` of a method and its parameters. -/
def splitNewSource : String :=
  "/// <set id=\"a\" />\ninterface I \x7b new\n/// note\n(): string \x7d\n"

/-- Not every plain set is read back from its text. -/
theorem not_parse_text_of_isPlain :
    ¬∀ (file source : String) (S : DeclarationSet), parse file source = .ok S →
      S.declarations.IsPlain → ∀ id, isHeaderId id = true → ∀ file',
        ∃ S', parse file' (headerText id ++ S.declarations.text) = .ok S' ∧
          (SourceFile.parse file' (headerText id ++ S.declarations.text)).problems = [] ∧
          S'.declarations.unplaced = S.declarations.unplaced := by
  intro hall
  obtain ⟨S, hS, hplain, hnew⟩ : ∃ S, parse "a.d.ts" splitNewSource = .ok S ∧
      S.declarations.IsPlain ∧ S.declarations.HoldsBareNew :=
    exists_ok_iff.2 (by decide +kernel)
  obtain ⟨S', hS', -, hsame⟩ := hall _ _ S hS hplain "b" (by decide) "b.d.ts"
  have hread := not_holdsBareNew_of_parse_text hS hplain (by decide) hS'
  rw [← Declarations.holdsBareNew_unplaced, hsame, Declarations.holdsBareNew_unplaced] at hread
  exact hread hnew

end DeclarationSet
end TypeSurface
