import TypeSurface.Proofs.Syntax.FlatClear
import TypeSurface.Proofs.Syntax.Parser.Directives
import TypeSurface.Proofs.Syntax.Parser.FoundStatements

/-!
# Reading printed types

A type that is read from a text is written, so if it is clear and not too deep, its canonical text is
read without a problem as its flat form, which has the same text.
-/

namespace TypeSurface

/-- A file without a header in front of the pieces of readable statements has no defect, and is read as
the statements. -/
theorem parse_pieces {source : String} {fs : List StatementForm} (file : String)
    (hfs : ∀ f ∈ fs, f.IsReadable)
    (hsource : Lexes source.toList (fs.flatMap StatementForm.pieces ++ [.ending])) :
    ∃ statements, SourceFile.parse file source = ⟨file, [], statements, []⟩ ∧
      statements.map Statement.form = fs := by
  obtain ⟨p, ps, hps, -⟩ := pieces_file_cons fs
  obtain ⟨hdirectives, hs⟩ := Parser.directives_of_lexes file (hps ▸ hsource)
  exact parse_of_yields hdirectives hs (hps ▸ Parser.yields_statements hfs)

/-! ### Types as aliases -/

/-- The source that declares a type alias for what a text says. -/
def aliasSource (text : String) : String := "type X = " ++ text ++ ";"

/-- The type that a text is read as, if it is read without a problem as the type of an alias. -/
def readType? (file text : String) : Option TypeExpr :=
  match SourceFile.parse file (aliasSource text) with
  | ⟨_, _, ⟨_, _, _, .typeAlias _ type⟩ :: _, []⟩ => some type
  | _ => none

variable {file text : String} {t : TypeExpr}

/-- A type that is read is written, and may stand wherever a type may. -/
theorem isWritten_of_readType? (h : readType? file text = some t) :
    t.All (·.isWrittenNode = true) ∧ t.isProper = true := by
  unfold readType? at h
  split at h
  · next hparse =>
    cases h
    have hfound := isFound_of_parse file (aliasSource text) _ (by rw [hparse]; exact List.mem_cons_self)
    have hwritten := hfound.written
    simp only [Statement.form, StatementForm.isWritten, Bool.and_eq_true] at hwritten
    exact ⟨(hfound.types t (List.mem_append_right _ (List.mem_singleton.2 rfl))).imp fun _ hu ↦ hu.1,
      hwritten.2⟩
  · cases h

theorem isReadable_alias (ht : t.IsWhole) (hdepth : t.depth < maxTypeNesting) :
    (StatementForm.typeAlias "X" [] t).IsReadable := by
  have hmem : ∀ u ∈ (StatementForm.typeAlias "X" [] t).types, u = t := fun u hu ↦
    List.mem_singleton.1 hu
  refine ⟨?_, rfl, fun u hu ↦ hmem u hu ▸ ht.readable, fun u hu ↦ hmem u hu ▸ ht.start, nofun,
    fun u hu ↦ hmem u hu ▸ hdepth, nofun⟩
  rw [StatementForm.isWritten, ht.proper]
  rfl

theorem readType?_text (file : String) (ht : t.IsWhole) (hdepth : t.depth < maxTypeNesting) :
    readType? file t.text = some t := by
  have hreadable := isReadable_alias ht hdepth
  have hspelt : (StatementForm.typeAlias "X" [] t).IsSpelt :=
    ⟨hreadable.written, hreadable.shown, fun u hu ↦ (hreadable.types u hu).isSpelt⟩
  have hlexes : Lexes (aliasSource t.text).toList
      ([StatementForm.typeAlias "X" [] t].flatMap StatementForm.pieces ++ [.ending]) := by
    have hcloses := StatementForm.closes_typeAlias hspelt [] [.ending] lexes_ending
    rw [List.append_nil] at hcloses
    rw [List.flatMap_singleton]
    exact hcloses
  obtain ⟨statements, hparse, hforms⟩ :=
    parse_pieces file (List.forall_mem_singleton.2 hreadable) hlexes
  obtain ⟨s, rfl, hform⟩ := List.map_eq_singleton_iff.1 hforms
  obtain ⟨name, nameSpan, span, body⟩ := s
  unfold readType?
  rw [hparse]
  cases body with
  | typeAlias typeParams type =>
    cases hform
    rfl
  | _ => cases hform

/-- The text of a clear type that has been read and is not too deep is read again, as a type with the
same text. -/
theorem exists_readType?_text (h : readType? file text = some t) (hclear : t.IsClear)
    (hdepth : t.depth < maxTypeNesting) (file' : String) :
    ∃ u, readType? file' t.text = some u ∧ u.text = t.text := by
  obtain ⟨hwritten, hproper⟩ := isWritten_of_readType? h
  have hread := readType?_text file' (TypeExpr.isWhole_flat hwritten hproper hclear)
    (TypeExpr.depth_flat t ▸ hdepth)
  rw [TypeExpr.text_flat hwritten] at hread
  exact ⟨t.flat, hread, TypeExpr.text_flat hwritten⟩

/-- A type with a union in a union, and with operands and results in parentheses. -/
def nestedText : String := "A | (B | keyof (C & D))[] | (E | ((x: F) => x is G))"

theorem exists_readType?_text_nestedText :
    ∃ t, readType? "a.d.ts" nestedText = some t ∧ t.IsClear ∧ t.depth < maxTypeNesting ∧
      ∃ u, readType? "b.d.ts" t.text = some u ∧ u.text = t.text := by
  have hread : ∃ t ∈ readType? "a.d.ts" nestedText, t.IsClear ∧ t.depth < maxTypeNesting := by
    decide +kernel
  obtain ⟨t, ht, hclear, hdepth⟩ := hread
  exact ⟨t, ht, hclear, hdepth, exists_readType?_text ht hclear hdepth "b.d.ts"⟩

/-- Types that are read but are not clear: an operator in front of a literal or of an object type, a
control character in a string and in a name, the name of an operator in front of brackets, a whole type and
a type in parentheses that start with `new<`, a result that starts with `keyof is`, and a method with the
bare name `new`. -/
def unclearTexts : List String :=
  ["keyof (\"a\")", "readonly (-1)[]", "readonly (\x7b\x7d)", "\"\x01\"", "\x7b \"\x01\": A \x7d",
    "(keyof)[]", "| new<A>", "(| new<A>)[]", "() => (keyof is)", "\x7b new\n/// note\n(): A \x7d"]

/-- None of them is read again as a type with the same text. -/
theorem not_readType?_text_of_unclearTexts : ∀ text ∈ unclearTexts,
    ∃ t, readType? "a.d.ts" text = some t ∧ t.depth < maxTypeNesting ∧
      ¬∃ u, readType? "b.d.ts" t.text = some u ∧ u.text = t.text := by
  have hread : ∀ text ∈ unclearTexts, ∃ t ∈ readType? "a.d.ts" text, t.depth < maxTypeNesting ∧
      (readType? "b.d.ts" t.text).all (·.text ≠ t.text) = true := by
    decide +kernel
  intro text htext
  obtain ⟨t, ht, hdepth, hall⟩ := hread text htext
  refine ⟨t, ht, hdepth, ?_⟩
  rintro ⟨u, hu, hsame⟩
  rw [hu] at hall
  simp [hsame] at hall

/-- Not every type that has been read and is not too deep is read again. -/
theorem not_readType?_text : ¬∀ (file text : String) (t : TypeExpr), readType? file text = some t →
    t.depth < maxTypeNesting → ∀ file', ∃ u, readType? file' t.text = some u ∧ u.text = t.text := by
  intro hall
  have hmem : "keyof (\"a\")" ∈ unclearTexts := List.mem_cons_self
  obtain ⟨t, ht, hdepth, hnone⟩ := not_readType?_text_of_unclearTexts _ hmem
  exact hnone (hall _ _ t ht hdepth _)

end TypeSurface
