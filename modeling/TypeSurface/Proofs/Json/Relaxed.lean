import TypeSurface.Json.Relaxed
import TypeSurface.Proofs.Json.Lexeme
import TypeSurface.Proofs.Json.Nesting
import TypeSurface.Proofs.Syntax.Lexeme

/-!
# Comments and trailing commas

A relaxed text is that of a value with comments between the tokens and with commas behind the last
elements of arrays and objects.  The main statement says that its strict text has the tokens of the
value, each with its text, and that a strict text stays as it is.
-/

namespace TypeSurface
namespace Json

/-! ### Lexemes and their surroundings -/

/-- Whether a text has no quotes, slashes and commas. -/
def IsPlain (text : List Char) : Prop := ∀ c ∈ text, c ≠ '"' ∧ c ≠ '/' ∧ c ≠ ','

namespace Token

variable {t : Token} {text rest : List Char}

theorem ne_of_isNumberChar {c : Char} (h : Number.isNumberChar c = true) :
    c ≠ '"' ∧ c ≠ '/' ∧ c ≠ ',' := by
  refine ⟨?_, ?_, ?_⟩ <;> (rintro rfl; cases h)

/-- The characters of a lexeme: a quotation, a comma, or text without quotes, slashes and commas. -/
theorem Spells.cases (h : t.Spells text) :
    (t = comma ∧ text = [',']) ∨ (t ≠ comma ∧ ((∃ body, text = '"' :: body ∧
      Quotation.IsBody body) ∨ IsPlain text)) := by
  cases h with
  | punctuation h =>
    rcases of_ofPunctuation? h with
      ⟨rfl, rfl⟩ | ⟨rfl, rfl⟩ | ⟨rfl, rfl⟩ | ⟨rfl, rfl⟩ | ⟨rfl, rfl⟩ | ⟨rfl, rfl⟩
    case inr.inr.inr.inr.inl => exact Or.inl ⟨rfl, rfl⟩
    all_goals exact Or.inr ⟨nofun, Or.inr (by simp [IsPlain])⟩
  | word h =>
    rcases of_wordTail? h with ⟨rfl, rfl, rfl⟩ | ⟨rfl, rfl, rfl⟩ | ⟨rfl, rfl, rfl⟩
    all_goals exact Or.inr ⟨nofun, Or.inr (by simp [IsPlain])⟩
  | string hbody => exact Or.inr ⟨nofun, Or.inl ⟨_, rfl, hbody⟩⟩
  | number _ h => exact Or.inr ⟨nofun, Or.inr fun c hc ↦ ne_of_isNumberChar (h.chars c hc)⟩

/-- A lexeme starts with no white space, and with a closing bracket just if it is one. -/
theorem Spells.first (h : t.Spells text) :
    ∃ c cs, text = c :: cs ∧ CharClass.isWhiteSpace c = false ∧
      (c == '}' || c == ']') = t.closes := by
  cases h with
  | punctuation h =>
    rcases of_ofPunctuation? h with
      ⟨rfl, rfl⟩ | ⟨rfl, rfl⟩ | ⟨rfl, rfl⟩ | ⟨rfl, rfl⟩ | ⟨rfl, rfl⟩ | ⟨rfl, rfl⟩
    all_goals exact ⟨_, _, rfl, by decide, by decide⟩
  | word h =>
    rcases of_wordTail? h with ⟨rfl, rfl, rfl⟩ | ⟨rfl, rfl, rfl⟩ | ⟨rfl, rfl, rfl⟩
    all_goals exact ⟨_, _, rfl, by decide, by decide⟩
  | string hbody => exact ⟨_, _, rfl, by decide, rfl⟩
  | @number c cs n hfirst h =>
    refine ⟨c, cs, rfl, ?_, ?_⟩
    · rcases hfirst with rfl | hdigit
      · decide
      · exact CharClass.of_ascii (P := fun c ↦ c.isDigit = true → CharClass.isWhiteSpace c = false)
          (by decide) (CharClass.toNat_lt_of_isDigit hdigit) hdigit
    · rw [show (Token.number n).closes = false from rfl, Bool.eq_false_iff]
      intro hc
      simp only [Bool.or_eq_true, beq_iff_eq] at hc
      rcases hc with rfl | rfl <;> revert hfirst <;> decide

/-- What stands behind a lexeme in a value ends it. -/
theorem parts_of_meets {ls : List Lexeme} (h : Writes ls rest)
    (hmeets : ∀ l ∈ ls.head?, t.Meets l.token) : t.Parts rest := by
  rintro n rfl
  have hblank : ∀ c, isBlank c = true → c.isDigit = false ∧ c ≠ '.' ∧ c ≠ 'e' ∧ c ≠ 'E' := by
    intro c hc
    rcases isBlank_iff.1 hc with rfl | rfl | rfl | rfl <;> decide
  cases h with
  | nil hgap => exact fun c hc ↦ hblank c (hgap c (List.mem_of_mem_head? hc))
  | @cons l ls gap rest hgap =>
    cases gap with
    | cons c gap =>
      rintro d ⟨⟩
      exact hblank c (hgap c (List.mem_cons_self ..))
    | nil =>
      obtain ⟨c, cs, htext, -, hcloses⟩ := l.spells.first
      have hc : c = ',' ∨ c = '}' ∨ c = ']' := by
        rcases (hmeets l rfl).ofNumber n rfl with hcomma | hl
        · rcases l.spells.cases with ⟨-, hl⟩ | ⟨hl, -⟩
          · exact Or.inl (List.cons.inj (htext.symm.trans hl)).1
          · exact absurd hcomma hl
        · rw [hl] at hcloses
          exact Or.inr (by simpa using hcloses)
      rw [htext]
      rintro d ⟨⟩
      rcases hc with rfl | rfl | rfl <;> decide

theorem fault?_of_read {c : Char} {cs : List Char} (h : Token.read c cs = (t, none)) :
    t.fault? false ≠ none := by
  unfold Token.read at h
  split at h
  · cases h
  · split at h <;> cases h
    simp [fault?]
  · split at h
    · split at h <;> cases h
      simp [fault?]
    · split at h
      · split at h <;> cases h
        simp [fault?]
      · cases h
        simp [fault?]

end Token

/-- A text without broken tokens, whose numbers and commas meet as in a value, is written by
lexemes. -/
theorem exists_writes {cs : List Char} (hchain : (tokens cs).IsChain Token.Meets)
    (hfault : ∀ t ∈ tokens cs, t.fault? false = none) : ∃ ls, Writes ls cs := by
  fun_induction tokens cs with
  | case1 => exact ⟨[], .nil nofun⟩
  | case2 c cs hblank ih =>
    obtain ⟨ls, hls⟩ := ih hchain hfault
    have hgap : IsGap [c] := by simpa [IsGap] using hblank
    exact ⟨ls, hls.gap_append hgap⟩
  | case3 c cs hblank rest hread ih =>
    rw [List.forall_mem_cons] at hfault
    obtain ⟨ls, hls⟩ := ih hchain.tail hfault.2
    obtain ⟨text, htext, hspells⟩ := Token.exists_spells_of_read (Prod.ext rfl hread)
    have hgap : IsGap [] := nofun
    refine ⟨⟨_, text, hspells⟩ :: ls, htext ▸ .cons hgap ?_ hls⟩
    refine Token.parts_of_meets hls fun l hl ↦ ?_
    rw [tokens_of_writes hls] at hchain
    cases ls with
    | nil => cases hl
    | cons m ls =>
      cases hl
      exact (List.isChain_cons_cons.1 hchain).1
  | case4 c cs hblank hread =>
    exact absurd (hfault _ (List.mem_singleton_self _)) (Token.fault?_of_read (Prod.ext rfl hread))

/-! ### Comments -/

variable {cs text body gap rest : List Char} {c : Char} {t : Token} {ls : List Lexeme}

theorem IsGap.isPlain (h : IsGap gap) : IsPlain gap := by
  intro c hc
  rcases Token.isBlank_iff.1 (h c hc) with rfl | rfl | rfl | rfl <;> decide

theorem stripComments_cons (hquote : c ≠ '"') (hslash : c ≠ '/') (cs : List Char) :
    stripComments (c :: cs) = c :: stripComments cs := by
  rw [stripComments] <;> simp_all

theorem stripComments_append (h : IsPlain text) (rest : List Char) :
    stripComments (text ++ rest) = text ++ stripComments rest := by
  induction text with
  | nil => rfl
  | cons c text ih =>
    rw [IsPlain, List.forall_mem_cons] at h
    rw [List.cons_append, stripComments_cons h.1.1 h.1.2.1, ih h.2, List.cons_append]

theorem stripQuoted_cons (hquote : c ≠ '"') (hescape : c ≠ '\\') (cs : List Char) :
    stripQuoted (c :: cs) = c :: stripQuoted cs := by
  rw [stripQuoted] <;> simp_all

theorem stripQuoted_append (h : Quotation.IsBody body) (rest : List Char) :
    stripQuoted (body ++ rest) = body ++ stripComments rest := by
  induction h with
  | close => rfl
  | escape c _ ih => simp only [List.cons_append, stripQuoted, ih]
  | char hquote hescape _ ih => simp only [List.cons_append, stripQuoted_cons hquote hescape, ih]

/-- Lexemes stay as they are. -/
theorem Token.Spells.stripComments_append (h : t.Spells text) (rest : List Char) :
    stripComments (text ++ rest) = text ++ stripComments rest := by
  rcases h.cases with ⟨-, rfl⟩ | ⟨-, ⟨body, rfl, hbody⟩ | htext⟩
  · rfl
  · simp only [List.cons_append, stripComments, stripQuoted_append hbody]
  · exact Json.stripComments_append htext rest

theorem stripLine_cons (hbreak : c ≠ '\n') (cs : List Char) :
    stripLine (c :: cs) = stripLine cs := by
  rw [stripLine]
  simp_all

theorem stripLine_append (hbody : '\n' ∉ body) (rest : List Char) :
    stripLine (body ++ rest) = stripLine rest := by
  induction body with
  | nil => rfl
  | cons c body ih =>
    rw [List.mem_cons, not_or] at hbody
    rw [List.cons_append, stripLine_cons (Ne.symm hbody.1), ih hbody.2]

/-- A block comment goes, but for its line breaks. -/
theorem stripBlock_append (hbody : ¬['*', '/'] <:+: body) (rest : List Char) :
    stripBlock (body ++ '*' :: '/' :: rest) = body.filter (· == '\n') ++ stripComments rest := by
  induction body with
  | nil => simp [stripBlock]
  | cons c body ih =>
    have ih := ih fun h ↦ hbody (List.infix_cons h)
    by_cases hbreak : c = '\n'
    · subst hbreak
      simp [stripBlock, ih]
    · rw [List.cons_append, stripBlock, ih, List.filter_cons_of_neg (by simpa using hbreak)]
      · -- The comment is closed neither in its body nor by a slash in front of the star.
        rintro cs rfl hcs
        cases body with
        | nil => simp at hcs
        | cons d body =>
          obtain ⟨rfl, -⟩ := List.cons.inj hcs
          exact hbody (List.prefix_append ['*', '/'] body).isInfix
      · exact hbreak

/-- Blanks and comments.  Only the last comment, if `isLast`, may go on to the end of the text. -/
inductive Filler : Bool → List Char → Prop
  | nil {isLast : Bool} : Filler isLast []
  | blank {isLast : Bool} {c : Char} {cs : List Char} (hc : Token.isBlank c = true)
    (hcs : Filler isLast cs) : Filler isLast (c :: cs)
  | line {isLast : Bool} {body cs : List Char} (hbody : '\n' ∉ body) (hcs : Filler isLast cs) :
    Filler isLast ('/' :: '/' :: (body ++ '\n' :: cs))
  | block {isLast : Bool} {body cs : List Char} (hbody : ¬['*', '/'] <:+: body)
    (hcs : Filler isLast cs) : Filler isLast ('/' :: '*' :: (body ++ '*' :: '/' :: cs))
  | lastLine {body : List Char} (hbody : '\n' ∉ body) : Filler true ('/' :: '/' :: body)

/-- Of blanks and comments, blanks are left. -/
theorem Filler.exists_gap {isLast : Bool} (h : Filler isLast text) (rest : List Char)
    (hrest : isLast = true → rest = []) :
    ∃ gap, IsGap gap ∧ stripComments (text ++ rest) = gap ++ stripComments rest := by
  induction h with
  | nil => exact ⟨[], nofun, rfl⟩
  | @blank isLast c cs hc hcs ih =>
    obtain ⟨gap, hgap, hstrip⟩ := ih hrest
    have hc' : IsGap [c] := by simpa [IsGap] using hc
    refine ⟨c :: gap, hc'.append hgap, ?_⟩
    rw [List.cons_append, List.cons_append, ← hstrip]
    exact stripComments_append hc'.isPlain (cs ++ rest)
  | @line isLast body cs hbody hcs ih =>
    obtain ⟨gap, hgap, hstrip⟩ := ih hrest
    refine ⟨'\n' :: gap, List.forall_mem_cons.2 ⟨rfl, hgap⟩, ?_⟩
    simp only [List.cons_append, List.append_assoc, stripComments, stripLine_append hbody,
      stripLine, hstrip]
  | @block isLast body cs hbody hcs ih =>
    obtain ⟨gap, hgap, hstrip⟩ := ih hrest
    have hbreaks : IsGap (body.filter (· == '\n')) := fun c hc ↦ by
      rw [beq_iff_eq.1 (List.mem_filter.1 hc).2]
      rfl
    refine ⟨_, hbreaks.append hgap, ?_⟩
    simp only [List.cons_append, List.append_assoc, stripComments, stripBlock_append hbody, hstrip]
  | @lastLine body hbody =>
    obtain rfl := hrest rfl
    refine ⟨[], nofun, ?_⟩
    have hstrip := stripLine_append hbody []
    simpa only [List.cons_append, stripComments, stripLine, List.append_nil] using hstrip

/-! ### Relaxed texts -/

/-- The relaxed texts of some lexemes: these in their order, with fillers around them, and with a
comma behind any that ends an element, if a bracket or brace closes next.  The filler at the end of
the text is the last one. -/
inductive Loosens (filler : Bool → List Char → Prop) : List Lexeme → List Char → Prop
  | nil {text : List Char} (htext : filler true text) : Loosens filler [] text
  | cons {l : Lexeme} {ls : List Lexeme} {text rest : List Char} (htext : filler false text)
    (hrest : Loosens filler ls rest) : Loosens filler (l :: ls) (text ++ (l.text ++ rest))
  | comma {l m : Lexeme} {ls : List Lexeme} {text between rest : List Char}
    (hopens : l.token.opens = false) (hcloses : m.token.closes = true) (htext : filler false text)
    (hbetween : filler false between) (hrest : Loosens filler (m :: ls) rest) :
    Loosens filler (l :: m :: ls) (text ++ (l.text ++ (between ++ ',' :: rest)))

/-- Without its comments, a relaxed text has only blanks between its lexemes. -/
theorem Loosens.stripComments (h : Loosens Filler ls text) :
    Loosens (fun _ ↦ IsGap) ls (stripComments text) := by
  induction h with
  | nil htext =>
    obtain ⟨gap, hgap, hstrip⟩ := htext.exists_gap [] fun _ ↦ rfl
    rw [List.append_nil] at hstrip
    rw [hstrip]
    exact .nil (by simpa [Json.stripComments] using hgap)
  | @cons l ls text rest htext hrest ih =>
    obtain ⟨gap, hgap, hstrip⟩ := htext.exists_gap (l.text ++ rest) nofun
    rw [hstrip, l.spells.stripComments_append]
    exact .cons hgap ih
  | @comma l m ls text between rest hopens hcloses htext hbetween hrest ih =>
    obtain ⟨gap, hgap, hstrip⟩ := htext.exists_gap (l.text ++ (between ++ ',' :: rest)) nofun
    obtain ⟨gap', hgap', hstrip'⟩ := hbetween.exists_gap (',' :: rest) nofun
    rw [hstrip, l.spells.stripComments_append, hstrip',
      stripComments_cons (by decide) (by decide)]
    exact .comma hopens hcloses hgap hgap' ih

theorem Writes.stripComments_eq (h : Writes ls cs) : stripComments cs = cs := by
  induction h with
  | @nil gap hgap => simpa [stripComments] using stripComments_append hgap.isPlain []
  | @cons l ls gap rest hgap hparts hrest ih =>
    rw [stripComments_append hgap.isPlain, l.spells.stripComments_append, ih]

/-! ### Trailing commas -/

theorem dropTrailingCommas_append (h : IsPlain text) (rest : List Char) :
    dropTrailingCommas (text ++ rest) = text ++ dropTrailingCommas rest := by
  induction text with
  | nil => rfl
  | cons c text ih =>
    rw [IsPlain, List.forall_mem_cons] at h
    rw [List.cons_append, dropTrailingCommas, ih h.2, List.cons_append]
    · exact h.1.1
    · exact h.1.2.2

theorem dropTrailingQuoted_append (h : Quotation.IsBody body) (rest : List Char) :
    dropTrailingQuoted (body ++ rest) = body ++ dropTrailingCommas rest := by
  induction h with
  | close => rfl
  | escape c _ ih => simp only [List.cons_append, dropTrailingQuoted, ih]
  | char hquote hescape _ ih =>
    rw [List.cons_append, dropTrailingQuoted, ih, List.cons_append]
    · exact hquote
    · simp [hescape]

/-- A lexeme stays, unless it is a comma in front of a closing bracket or brace. -/
theorem Token.Spells.dropTrailingCommas_append (h : t.Spells text)
    (hrest : t = comma → closesNext rest = false) :
    dropTrailingCommas (text ++ rest) = text ++ dropTrailingCommas rest := by
  rcases h.cases with ⟨ht, rfl⟩ | ⟨-, ⟨body, rfl, hbody⟩ | htext⟩
  · simp [dropTrailingCommas, hrest ht]
  · simp only [List.cons_append, dropTrailingCommas, dropTrailingQuoted_append hbody]
  · exact Json.dropTrailingCommas_append htext rest

theorem closesNext_gap_append (hgap : IsGap gap) (rest : List Char) :
    closesNext (gap ++ rest) = closesNext rest := by
  have hnone : gap.find? (!CharClass.isWhiteSpace ·) = none := by
    rw [List.find?_eq_none]
    intro c hc
    rcases Token.isBlank_iff.1 (hgap c hc) with rfl | rfl | rfl | rfl <;> decide
  rw [closesNext, closesNext, List.find?_append, hnone, Option.none_or]

theorem Token.Spells.closesNext_append (h : t.Spells text) (rest : List Char) :
    closesNext (text ++ rest) = t.closes := by
  obtain ⟨c, cs, rfl, hspace, hcloses⟩ := h.first
  rw [List.cons_append, closesNext, List.find?_cons_of_pos (by simp [hspace]), ← hcloses]

/-- In a text of lexemes and blanks, what closes next is the next lexeme. -/
theorem Loosens.closesNext_eq (h : Loosens (fun _ ↦ IsGap) ls text) :
    closesNext text = ls.head?.any (·.token.closes) := by
  cases h with
  | nil hgap => simpa [closesNext] using closesNext_gap_append hgap []
  | @cons l ls gap rest hgap =>
    rw [closesNext_gap_append hgap, l.spells.closesNext_append]
    rfl
  | @comma l m ls gap between rest hopens hcloses hgap =>
    rw [closesNext_gap_append hgap, l.spells.closesNext_append]
    rfl

theorem Loosens.closesNext_eq_false (h : Loosens (fun _ ↦ IsGap) ls text)
    (hmeets : ∀ l ∈ ls.head?, t.Meets l.token) (ht : t = .comma) : closesNext text = false := by
  rw [h.closesNext_eq, Option.any_eq_false_iff_get]
  exact fun hl ↦ (hmeets _ (Option.some_get hl).symm).ofComma ht

theorem meets_head {l : Lexeme} (hchain : ((l :: ls).map (·.token)).IsChain Token.Meets) :
    ∀ m ∈ ls.head?, l.token.Meets m.token := by
  intro m hm
  obtain ⟨ms, rfl⟩ := List.head?_eq_some_iff.1 hm
  exact (List.isChain_cons_cons.1 hchain).1

/-- The commas behind last elements go, and the lexemes stay with blanks around them. -/
theorem Loosens.dropTrailingCommas (h : Loosens (fun _ ↦ IsGap) ls text)
    (hchain : (ls.map (·.token)).IsChain Token.Meets) : Writes ls (dropTrailingCommas text) := by
  induction h with
  | @nil gap hgap =>
    have hdrop := dropTrailingCommas_append hgap.isPlain []
    rw [List.append_nil] at hdrop
    rw [hdrop]
    exact .nil (by simpa [Json.dropTrailingCommas] using hgap)
  | @cons l ls gap rest hgap hrest ih =>
    have ih := ih hchain.tail
    have hmeets := meets_head hchain
    rw [dropTrailingCommas_append hgap.isPlain,
      l.spells.dropTrailingCommas_append (hrest.closesNext_eq_false hmeets)]
    exact .cons hgap (Token.parts_of_meets ih hmeets) ih
  | @comma l m ls gap between rest hopens hcloses hgap hbetween hrest ih =>
    have ih := (ih hchain.tail).gap_append hbetween
    have hcomma : closesNext (between ++ ',' :: rest) = false := closesNext_gap_append hbetween _
    have hnext : closesNext rest = true := hrest.closesNext_eq.trans hcloses
    rw [dropTrailingCommas_append hgap.isPlain,
      l.spells.dropTrailingCommas_append fun _ ↦ hcomma,
      dropTrailingCommas_append hbetween.isPlain, Json.dropTrailingCommas, if_pos hnext]
    exact .cons hgap (Token.parts_of_meets ih (meets_head hchain)) ih

/-- A text of lexemes and blanks is one of its own relaxed texts. -/
theorem Writes.loosens (h : Writes ls cs) : Loosens (fun _ ↦ IsGap) ls cs := by
  induction h with
  | nil hgap => exact .nil hgap
  | cons hgap _ _ ih => exact .cons hgap ih

theorem Writes.dropTrailingCommas_eq (h : Writes ls cs)
    (hchain : (ls.map (·.token)).IsChain Token.Meets) : dropTrailingCommas cs = cs := by
  induction h with
  | @nil gap hgap =>
    simpa [dropTrailingCommas] using dropTrailingCommas_append hgap.isPlain []
  | @cons l ls gap rest hgap hparts hrest ih =>
    rw [dropTrailingCommas_append hgap.isPlain, l.spells.dropTrailingCommas_append
      (hrest.loosens.closesNext_eq_false (meets_head hchain)), ih hchain.tail]

/-! ### Texts without comments -/

theorem head?_stripComments (hslash : cs.head? ≠ some '/') :
    (stripComments cs).head? = cs.head? := by
  cases cs with
  | nil => rfl
  | cons c cs =>
    by_cases hquote : c = '"'
    · subst hquote
      rfl
    · rw [stripComments_cons hquote (by simpa using hslash)]
      rfl

/-- Without its comments, a text has none: what is taken out leaves no new marks behind, since a
slash that stays is followed by neither a slash nor a star. -/
theorem strip_idempotent :
    (∀ cs, stripComments (stripComments cs) = stripComments cs) ∧
      (∀ cs, stripComments (stripBlock cs) = stripBlock cs) ∧
      (∀ cs, stripComments (stripLine cs) = stripLine cs) ∧
      ∀ cs, stripQuoted (stripQuoted cs) = stripQuoted cs := by
  apply stripComments.mutual_induct
  case case5 =>
    intro c cs hquote hline hblock ih
    rw [stripComments.eq_5 _ _ hquote hline hblock]
    by_cases hslash : c = '/'
    · subst hslash
      have hhead : (stripComments cs).head? = cs.head? :=
        head?_stripComments fun h ↦ by
          obtain ⟨ds, rfl⟩ := List.head?_eq_some_iff.1 h
          exact hline ds rfl rfl
      rw [stripComments.eq_5, ih]
      · exact nofun
      · rintro ds - hds
        rw [hds] at hhead
        obtain ⟨es, rfl⟩ := List.head?_eq_some_iff.1 hhead.symm
        exact hline es rfl rfl
      · rintro ds - hds
        rw [hds] at hhead
        obtain ⟨es, rfl⟩ := List.head?_eq_some_iff.1 hhead.symm
        exact hblock es rfl rfl
    · rw [stripComments_cons hquote hslash, ih]
  case case16 =>
    intro c cs hquote hescape ih
    have hescape' : ∀ d ds, c = '\\' → stripQuoted cs = d :: ds → False := by
      intro d ds hc hds
      cases cs with
      | nil => cases hds
      | cons e es => exact hescape e es hc rfl
    rw [stripQuoted.eq_4 _ _ hquote hescape, stripQuoted.eq_4 _ _ hquote hescape', ih]
  all_goals
    intros
    simp_all [stripComments, stripLine, stripBlock, stripQuoted]

/-! ### Strict texts -/

/-- A value keeps its lexemes, and stays a value, however relaxed its text is.  In its own text there
is nothing to take out, and what is left of any text without its comments has none. -/
theorem strictText_of_isValue {doc : List Char} (h : isValue (tokens doc) = true) :
    (∃ ls, Writes ls doc) ∧
      (∀ ls, Writes ls doc → ∀ text, Loosens Filler ls text →
        isValue (tokens (strictText text)) = true ∧
          tokens (strictText text) = tokens doc ∧ Writes ls (strictText text)) ∧
      stripComments doc = doc ∧ dropTrailingCommas doc = doc ∧
      ∀ cs, stripComments (stripComments cs) = stripComments cs := by
  obtain ⟨hchain, hfault⟩ := meets_of_isValue h
  obtain ⟨ls, hls⟩ := exists_writes hchain hfault
  have hmeets {ls : List Lexeme} (hls : Writes ls doc) : (ls.map (·.token)).IsChain Token.Meets :=
    tokens_of_writes hls ▸ hchain
  refine ⟨⟨ls, hls⟩, fun ls hls text htext ↦ ?_, hls.stripComments_eq,
    hls.dropTrailingCommas_eq (hmeets hls), strip_idempotent.1⟩
  have hstrict : Writes ls (strictText text) := htext.stripComments.dropTrailingCommas (hmeets hls)
  have hsame : tokens (strictText text) = tokens doc := by
    rw [tokens_of_writes hstrict, tokens_of_writes hls]
  exact ⟨hsame ▸ h, hsame, hstrict⟩

/-- A quote and a star inside a comment, a comment mark inside quotes, and a comma with a comment
between it and the bracket. -/
theorem strictText_marks :
    isValue (tokens "[\"/*\"]".toList) = true ∧
      tokens (strictText "[/*/ \"**/\"/*\" ,//]\n]//".toList) = tokens "[\"/*\"]".toList := by
  have h : isValue (tokens "[\"/*\"]".toList) = true := by decide +kernel
  have hbody : Quotation.IsBody "/*\"".toList :=
    .char (by decide) (by decide) (.char (by decide) (by decide) .close)
  have hopen : Token.openArray.Spells ['['] := .punctuation rfl
  have hquoted : (Token.string [.char '/', .char '*']).Spells "\"/*\"".toList :=
    .string hbody fun after ↦ rfl
  have hclose : Token.closeArray.Spells [']'] := .punctuation rfl
  have hnone : IsGap [] := nofun
  have hwrites : Writes [⟨_, _, hopen⟩, ⟨_, _, hquoted⟩, ⟨_, _, hclose⟩] "[\"/*\"]".toList :=
    .cons hnone nofun <| .cons hnone nofun <| .cons hnone nofun <| .nil hnone
  have hquote : ¬['*', '/'] <:+: "/ \"*".toList := by decide
  have hbracket : '\n' ∉ [']'] := by decide
  have hloosens := Loosens.cons (l := ⟨_, _, hopen⟩) Filler.nil <|
    Loosens.comma (l := ⟨_, _, hquoted⟩) (m := ⟨_, _, hclose⟩) rfl rfl (.block hquote .nil)
      (.blank (c := ' ') rfl .nil) <|
    .cons (.line hbracket .nil) <| .nil (.lastLine List.not_mem_nil)
  exact ⟨h, ((strictText_of_isValue h).2.1 _ hwrites _ hloosens).2.1⟩

end Json
end TypeSurface
