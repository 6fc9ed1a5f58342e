import Mathlib.Data.List.TakeWhile
import TypeSurface.Syntax.Lexeme
import TypeSurface.Text.Quoted

/-!
# Words, numbers and strings

A word, a number and a printed string are read back from the front of a text, provided that the text
behind them does not go on with a word.
-/

namespace TypeSurface

namespace CharClass

/-- What holds of each of the first 128 characters holds of every such character. -/
theorem of_ascii {P : Char → Prop} (h : ∀ n < 128, P (Char.ofNat n)) {c : Char}
    (hc : c.toNat < 128) : P c := by
  rw [← Char.ofNat_toNat c]
  exact h c.toNat hc

theorem toNat_lt_of_le {c d : Char} (h : c ≤ d) (hd : d.toNat < 128) : c.toNat < 128 :=
  lt_of_le_of_lt (UInt32.le_iff_toNat_le.1 h) hd

theorem toNat_lt_of_isDigit {c : Char} (h : c.isDigit = true) : c.toNat < 128 := by
  simp only [Char.isDigit, ge_iff_le, Bool.and_eq_true, decide_eq_true_eq] at h
  exact toNat_lt_of_le h.2 (by decide)

theorem toNat_lt_of_isHexDigit {c : Char} (h : isHexDigit c = true) : c.toNat < 128 := by
  simp only [isHexDigit, Bool.or_eq_true, Bool.and_eq_true, decide_eq_true_eq] at h
  rcases h with (h | h) | h
  · exact toNat_lt_of_isDigit h
  · exact toNat_lt_of_le h.2 (by decide)
  · exact toNat_lt_of_le h.2 (by decide)

theorem isIdentifierPart_of_isHexDigit {c : Char} (h : isHexDigit c = true) :
    isIdentifierPart c = true :=
  of_ascii (P := fun c ↦ isHexDigit c = true → isIdentifierPart c = true) (by decide)
    (toNat_lt_of_isHexDigit h) h

theorem isIdentifierPart_of_isDigit {c : Char} (h : c.isDigit = true) :
    isIdentifierPart c = true :=
  isIdentifierPart_of_isHexDigit (by simp [isHexDigit, h])

theorem not_isDigit_of_start {c : Char} (h : isIdentifierStart c = true) : c.isDigit = false := by
  by_contra hdigit
  rw [Bool.not_eq_false] at hdigit
  have hno := of_ascii (P := fun c ↦ c.isDigit = true → isIdentifierStart c = false) (by decide)
    (toNat_lt_of_isDigit hdigit) hdigit
  rw [h] at hno
  cases hno

theorem contains_eq_any_toList (table : Array (Nat × Nat)) (c : Char) :
    CharTable.contains table c =
      table.toList.any fun (first, last) ↦ first ≤ c.toNat && c.toNat ≤ last := by
  simp [CharTable.contains]

/-- The byte order mark, the one blank above ASCII, is no letter. -/
theorem not_start_byteOrderMark : isIdentifierStart '\ufeff' = false := by
  have htable : CharTable.contains CharTable.alphabetic '\ufeff' = false := by
    rw [contains_eq_any_toList]
    decide +kernel
  simp [isIdentifierStart, isAlphabetic, htable]

theorem ne_of_start {c d : Char} (h : isIdentifierStart c = true)
    (hd : isIdentifierStart d = false) : c ≠ d := by
  rintro rfl
  rw [h] at hd
  cases hd

end CharClass

namespace Text

/-- Whether no word and no number in front of the text goes on into it. -/
def IsApart (cs : List Char) : Prop :=
  ∀ c ∈ cs.head?, CharClass.isIdentifierPart c = false ∧ c ≠ '.'

theorem isApart_nil : IsApart [] := by
  simp [IsApart]

theorem isApart_cons {c : Char} {cs : List Char} (h : CharClass.isIdentifierPart c = false)
    (hdot : c ≠ '.') : IsApart (c :: cs) := by
  simp [IsApart, h, hdot]

theorem takeWhile_append_of_head? {α : Type} {p : α → Bool} {l rest : List α}
    (hl : ∀ a ∈ l, p a = true) (hrest : ∀ a ∈ rest.head?, p a = false) :
    (l ++ rest).takeWhile p = l := by
  rw [List.takeWhile_append_of_pos hl]
  cases rest with
  | nil => simp
  | cons a rest =>
    have hp : p a = false := hrest a (by simp)
    simp [hp]

/-- A class of word characters stops in front of a text that stands apart. -/
theorem takeWhile_append_of_isApart {p : Char → Bool} {cs rest : List Char}
    (hp : ∀ c, p c = true → CharClass.isIdentifierPart c = true) (hcs : ∀ c ∈ cs, p c = true)
    (hrest : IsApart rest) : (cs ++ rest).takeWhile p = cs := by
  refine takeWhile_append_of_head? hcs fun c hc ↦ ?_
  by_contra hno
  have hpart := hp c (by simpa using hno)
  rw [(hrest c hc).1] at hpart
  cases hpart

end Text

open Text

namespace Lexeme

/-! ### Numbers -/

theorem isIdentifierPart_of_isWholeDigit {c : Char} (h : isWholeDigit c = true) :
    CharClass.isIdentifierPart c = true := by
  simp only [isWholeDigit, Bool.or_eq_true, beq_iff_eq] at h
  rcases h with h | rfl
  · exact CharClass.isIdentifierPart_of_isDigit h
  · decide

theorem isIdentifierPart_of_isRadixDigit {c : Char} (h : isRadixDigit c = true) :
    CharClass.isIdentifierPart c = true := by
  simp only [isRadixDigit, Bool.or_eq_true, beq_iff_eq] at h
  rcases h with h | rfl
  · exact CharClass.isIdentifierPart_of_isHexDigit h
  · decide

theorem isIdentifierPart_of_isRadixMark {c : Char} (h : isRadixMark c = true) :
    CharClass.isIdentifierPart c = true := by
  simp only [isRadixMark, Bool.or_eq_true, beq_iff_eq] at h
  rcases h with ((((rfl | rfl) | rfl) | rfl) | rfl) | rfl <;> decide

theorem not_isPart_exponentMark {cs : List Char} (h : IsApart cs) :
    ∀ c ∈ cs.head?, ¬(c = 'e' ∨ c = 'E') := by
  rintro c hc (rfl | rfl)
  · exact absurd (h _ hc).1 (by decide)
  · exact absurd (h _ hc).1 (by decide)

theorem exponentText_of_isApart {cs : List Char} (h : IsApart cs) : exponentText cs = [] := by
  cases cs with
  | nil => rfl
  | cons c cs =>
    have hno := not_isPart_exponentMark h c (by simp)
    simp [exponentText, hno]

/-- An exponent is a mark, perhaps a sign, and digits. -/
inductive IsExponent : List Char → Prop
  | unsigned {e d : Char} {ds : List Char} (he : e = 'e' ∨ e = 'E')
      (hds : ∀ c ∈ d :: ds, c.isDigit = true) : IsExponent (e :: d :: ds)
  | signed {e sign d : Char} {ds : List Char} (he : e = 'e' ∨ e = 'E')
      (hsign : sign = '+' ∨ sign = '-') (hds : ∀ c ∈ d :: ds, c.isDigit = true) :
      IsExponent (e :: sign :: d :: ds)

theorem isExponent_exponentText (cs : List Char) :
    exponentText cs = [] ∨ IsExponent (exponentText cs) := by
  unfold exponentText
  split
  · next e cs =>
    split
    · next he =>
      split
      · exact Or.inl rfl
      · next sign digits =>
        split
        · next hsign =>
          split
          · next hdigit =>
            cases digits with
            | nil => simp at hdigit
            | cons d ds =>
              have hd : d.isDigit = true := by simpa using hdigit
              rw [List.takeWhile_cons_of_pos hd]
              refine Or.inr (.signed he hsign fun c hc ↦ ?_)
              rcases List.mem_cons.1 hc with rfl | hc
              · exact hd
              · exact List.mem_takeWhile_imp hc
          · exact Or.inl rfl
        · split
          · next hd =>
            rw [List.takeWhile_cons_of_pos hd]
            refine Or.inr (.unsigned he fun c hc ↦ ?_)
            rcases List.mem_cons.1 hc with rfl | hc
            · exact hd
            · exact List.mem_takeWhile_imp hc
          · exact Or.inl rfl
    · exact Or.inl rfl
  · exact Or.inl rfl

theorem takeWhile_digits {cs rest : List Char} (hcs : ∀ c ∈ cs, c.isDigit = true)
    (hrest : IsApart rest) : (cs ++ rest).takeWhile Char.isDigit = cs :=
  takeWhile_append_of_isApart (fun _ ↦ CharClass.isIdentifierPart_of_isDigit) hcs hrest

theorem exponentText_append_of_isExponent {cs rest : List Char} (h : IsExponent cs)
    (hrest : IsApart rest) : exponentText (cs ++ rest) = cs := by
  cases h with
  | @unsigned e d ds he hds =>
    have hd : d.isDigit = true := hds d (by simp)
    have hsign : ¬(d = '+' ∨ d = '-') := by
      rintro (rfl | rfl) <;> exact absurd hd (by decide)
    have htake : (d :: (ds ++ rest)).takeWhile Char.isDigit = d :: ds := takeWhile_digits hds hrest
    simp only [List.cons_append, exponentText, if_pos he, if_neg hsign, if_pos hd, htake]
  | @signed e sign d ds he hsign hds =>
    have hd : d.isDigit = true := hds d (by simp)
    have htake : (d :: (ds ++ rest)).takeWhile Char.isDigit = d :: ds := takeWhile_digits hds hrest
    simp only [List.cons_append, exponentText, if_pos he, if_pos hsign, List.head?_cons,
      Option.any_some, if_pos hd, htake]

theorem exponentText_append {cs rest : List Char} (hcs : cs = [] ∨ IsExponent cs)
    (hrest : IsApart rest) : exponentText (cs ++ rest) = cs := by
  rcases hcs with rfl | hcs
  · exact exponentText_of_isApart hrest
  · exact exponentText_append_of_isExponent hcs hrest

/-- What stops the digits of a number: neither one more digit nor a point. -/
def StopsDigits (cs : List Char) : Prop := ∀ c ∈ cs.head?, isWholeDigit c = false ∧ c ≠ '.'

theorem stopsDigits_exponent_append {cs rest : List Char} (hcs : cs = [] ∨ IsExponent cs)
    (hrest : IsApart rest) : StopsDigits (cs ++ rest) := by
  intro c hc
  have hmark : ∀ {e : Char}, e = 'e' ∨ e = 'E' → isWholeDigit e = false ∧ e ≠ '.' := by
    rintro e (rfl | rfl) <;> decide
  rcases hcs with rfl | hcs
  · refine ⟨?_, (hrest c hc).2⟩
    by_contra hno
    have hpart := isIdentifierPart_of_isWholeDigit (by simpa using hno : isWholeDigit c = true)
    rw [(hrest c hc).1] at hpart
    cases hpart
  · cases hcs with
    | unsigned he _ =>
      simp only [List.cons_append, List.head?_cons, Option.mem_some_iff] at hc
      exact hc ▸ hmark he
    | signed he _ _ =>
      simp only [List.cons_append, List.head?_cons, Option.mem_some_iff] at hc
      exact hc ▸ hmark he

theorem fractionText_append {cs rest : List Char} (hrest : StopsDigits rest) :
    fractionText (fractionText cs ++ rest) = fractionText cs := by
  have hdigit : ∀ c ∈ rest.head?, c.isDigit = false := by
    intro c hc
    have := (hrest c hc).1
    simp only [isWholeDigit, Bool.or_eq_false_iff] at this
    exact this.1
  have hnone : ∀ {cs : List Char}, (∀ c ∈ cs.head?, c ≠ '.') → fractionText cs = [] := by
    intro cs h
    unfold fractionText
    split
    · exact absurd rfl (h '.' rfl)
    · rfl
  by_cases h : cs.head? = some '.'
  · obtain ⟨cs, rfl⟩ : ∃ tail, cs = '.' :: tail := by
      cases cs with
      | nil => simp at h
      | cons c tail => exact ⟨tail, by simpa using h⟩
    have htake : (cs.takeWhile Char.isDigit ++ rest).takeWhile Char.isDigit =
        cs.takeWhile Char.isDigit :=
      takeWhile_append_of_head? (fun _ ↦ List.mem_takeWhile_imp) hdigit
    simp only [fractionText, List.cons_append, htake]
  · rw [@hnone cs (by rintro c hc rfl; exact h hc), List.nil_append]
    exact hnone fun c hc ↦ (hrest c hc).2

/-- The digits in front of a fraction stop there. -/
theorem takeWhile_isWholeDigit_append {cs rest x : List Char} (hrest : StopsDigits rest) :
    (cs.takeWhile isWholeDigit ++ (fractionText x ++ rest)).takeWhile isWholeDigit =
      cs.takeWhile isWholeDigit := by
  refine takeWhile_append_of_head? (fun _ ↦ List.mem_takeWhile_imp) fun c hc ↦ ?_
  unfold fractionText at hc
  split at hc
  · simp only [List.cons_append, List.head?_cons, Option.mem_some_iff] at hc
    subst hc
    decide
  · exact (hrest c hc).1

theorem decimalText_append {cs rest : List Char} (hrest : IsApart rest) :
    numberText.decimalText (numberText.decimalText cs ++ rest) = numberText.decimalText cs := by
  have hdecimal : numberText.decimalText cs =
      cs.takeWhile isWholeDigit ++ (fractionText (cs.drop (cs.takeWhile isWholeDigit).length) ++
        exponentText ((cs.drop (cs.takeWhile isWholeDigit).length).drop
          (fractionText (cs.drop (cs.takeWhile isWholeDigit).length)).length)) := rfl
  rw [hdecimal]
  generalize cs.drop (cs.takeWhile isWholeDigit).length = tail
  obtain hexponent := isExponent_exponentText (tail.drop (fractionText tail).length)
  generalize exponentText (tail.drop (fractionText tail).length) = exponent at hexponent
  have hstop := stopsDigits_exponent_append hexponent hrest
  rw [List.append_assoc, List.append_assoc]
  unfold numberText.decimalText
  dsimp only
  rw [takeWhile_isWholeDigit_append hstop, List.drop_left, fractionText_append hstop,
    List.drop_left, exponentText_append hexponent hrest]

theorem fractionText_isPrefix (cs : List Char) : fractionText cs <+: cs := by
  unfold fractionText
  split
  · exact (List.prefix_cons_inj _).2 (List.takeWhile_prefix _)
  · exact List.nil_prefix

theorem exponentText_isPrefix (cs : List Char) : exponentText cs <+: cs := by
  unfold exponentText
  split
  · split
    · split
      · exact List.nil_prefix
      · split
        · split
          · exact (List.prefix_cons_inj _).2 ((List.prefix_cons_inj _).2 (List.takeWhile_prefix _))
          · exact List.nil_prefix
        · split
          · exact (List.prefix_cons_inj _).2 (List.takeWhile_prefix _)
          · exact List.nil_prefix
    · exact List.nil_prefix
  · exact List.nil_prefix

theorem append_prefix_of_drop {α : Type} {as bs cs : List α} (has : as <+: cs)
    (hbs : bs <+: cs.drop as.length) : as ++ bs <+: cs := by
  obtain ⟨tail, rfl⟩ := has
  rw [List.drop_left] at hbs
  exact (List.prefix_append_right_inj as).2 hbs

theorem decimalText_isPrefix (cs : List Char) : numberText.decimalText cs <+: cs :=
  append_prefix_of_drop (List.takeWhile_prefix _)
    (append_prefix_of_drop (fractionText_isPrefix _) (exponentText_isPrefix _))

/-- Whether a number is written with a radix mark. -/
def hasRadix (cs : List Char) : Prop := ∃ mark tail, cs = '0' :: mark :: tail ∧ isRadixMark mark = true

theorem numberText_of_not_hasRadix {cs : List Char} (h : ¬hasRadix cs) :
    numberText cs = numberText.decimalText cs := by
  unfold numberText
  split
  · next mark tail =>
    rw [if_neg fun hmark ↦ h ⟨mark, tail, rfl, hmark⟩]
  · rfl

theorem numberText_isPrefix (cs : List Char) : numberText cs <+: cs := by
  by_cases h : hasRadix cs
  · obtain ⟨mark, tail, rfl, hmark⟩ := h
    simp only [numberText, hmark, if_true]
    exact (List.prefix_cons_inj _).2 ((List.prefix_cons_inj _).2 (List.takeWhile_prefix _))
  · rw [numberText_of_not_hasRadix h]
    exact decimalText_isPrefix cs

/-- A number stays the same in front of another text. -/
theorem numberText_append {cs rest : List Char} (hrest : IsApart rest) :
    numberText (numberText cs ++ rest) = numberText cs := by
  by_cases h : hasRadix cs
  · obtain ⟨mark, tail, rfl, hmark⟩ := h
    have htake : (tail.takeWhile isRadixDigit ++ rest).takeWhile isRadixDigit =
        tail.takeWhile isRadixDigit :=
      takeWhile_append_of_isApart (fun _ ↦ isIdentifierPart_of_isRadixDigit)
        (fun _ ↦ List.mem_takeWhile_imp) hrest
    simp only [numberText, hmark, if_true, List.cons_append, htake]
  · rw [numberText_of_not_hasRadix h]
    have hno : ¬hasRadix (numberText.decimalText cs ++ rest) := by
      rintro ⟨mark, tail, heq, hmark⟩
      obtain ⟨behind, hcs⟩ := decimalText_isPrefix cs
      match hnumber : numberText.decimalText cs with
      | [] =>
        rw [hnumber, List.nil_append] at heq
        exact absurd (hrest '0' (by simp [heq])).1 (by decide)
      | [c] =>
        rw [hnumber, List.cons_append, List.nil_append, List.cons.injEq] at heq
        have hpart := (hrest mark (by simp [heq.2])).1
        rw [isIdentifierPart_of_isRadixMark hmark] at hpart
        cases hpart
      | c :: d :: ds =>
        rw [hnumber, List.cons_append, List.cons_append, List.cons.injEq, List.cons.injEq] at heq
        obtain ⟨rfl, rfl, -⟩ := heq
        exact h ⟨d, ds ++ behind, by rw [← hcs, hnumber]; rfl, hmark⟩
    rw [numberText_of_not_hasRadix hno, decimalText_append hrest]

/-- Whether a text starts as a number does. -/
def startsNumber : List Char → Bool
  | [] => false
  | c :: cs => c.isDigit || (c == '.' && cs.head?.any Char.isDigit)

theorem decimalText_ne_nil {cs : List Char} (h : startsNumber cs = true) :
    numberText.decimalText cs ≠ [] := by
  cases cs with
  | nil => cases h
  | cons c cs =>
    simp only [startsNumber, Bool.or_eq_true, Bool.and_eq_true, beq_iff_eq] at h
    by_cases hc : isWholeDigit c = true
    · unfold numberText.decimalText
      simp [List.takeWhile_cons_of_pos hc]
    · rcases h with h | ⟨rfl, -⟩
      · exact absurd (by simp [isWholeDigit, h]) hc
      · unfold numberText.decimalText
        simp [hc, fractionText]

theorem numberText_ne_nil {cs : List Char} (h : startsNumber cs = true) : numberText cs ≠ [] := by
  by_cases hradix : hasRadix cs
  · obtain ⟨mark, tail, rfl, hmark⟩ := hradix
    simp [numberText, hmark]
  · rw [numberText_of_not_hasRadix hradix]
    exact decimalText_ne_nil h

/-! ### Reading back -/

/-- Whether a text is one word. -/
def isWord : List Char → Bool
  | [] => false
  | c :: cs => CharClass.isIdentifierStart c && cs.all CharClass.isIdentifierPart

theorem isIdentifierPart_of_mem_word {c : Char} {cs : List Char} (h : isWord cs = true)
    (hc : c ∈ cs) : CharClass.isIdentifierPart c = true := by
  cases cs with
  | nil => cases hc
  | cons d cs =>
    simp only [isWord, Bool.and_eq_true, List.all_eq_true] at h
    rcases List.mem_cons.1 hc with rfl | hc
    · exact CharClass.isIdentifierPart_of_start h.1
    · exact h.2 c hc

/-- Whether a text is one number. -/
def isNumeral (cs : List Char) : Bool := startsNumber cs && numberText cs == cs

/-- The characters of ASCII that are printed as they are or with one backslash. -/
def isPlainChar (c : Char) : Bool :=
  (0x20 ≤ c.toNat && c.toNat < 0x7f) || c == '\n' || c == '\r' || c == '\t' || c == '\x00'

/-- Characters of strings that are printed as they are or with one backslash, not by their code
point. -/
def isShownChar (c : Char) : Bool := (quotedChar c).length ≤ 2

/-- The rules for lexemes that are no directive and no punctuation of several characters. -/
theorem read_cons {c : Char} {cs : List Char} (hslash : c ≠ '/')
    (hdot : c = '.' → cs.head?.any Char.isDigit = true) (hequals : c ≠ '=') :
    read (c :: cs) =
      if c = '\x22' ∨ c = '\x27' then { ofStringBody c cs with text := c :: (ofStringBody c cs).text }
      else if startsNumber (c :: cs) = true then
        ofText .numericLiteral (numberText (c :: cs)) (c :: cs)
      else if CharClass.isIdentifierStart c = true then ofIdentifier c cs
      else ofSymbol c cs := by
  unfold read
  split
  · next heq => cases heq
  · next heq => exact absurd (List.cons.inj heq).1 hslash
  · next heq =>
    obtain ⟨rfl, rfl⟩ := List.cons.inj heq
    exact absurd (hdot rfl) (by simp)
  · next heq => exact absurd (List.cons.inj heq).1 hequals
  · next heq =>
    obtain ⟨rfl, rfl⟩ := List.cons.inj heq
    rfl

theorem not_quote_of_start {c : Char} (h : CharClass.isIdentifierStart c = true) :
    ¬(c = '\x22' ∨ c = '\x27') := by
  rintro (rfl | rfl)
  · exact CharClass.ne_of_start h (d := '\x22') (by decide) rfl
  · exact CharClass.ne_of_start h (d := '\x27') (by decide) rfl

theorem read_word {cs rest : List Char} (hcs : isWord cs = true)
    (hrest : ∀ c ∈ rest.head?, CharClass.isIdentifierPart c = false) :
    read (cs ++ rest) = ⟨.identifier, cs, cs, rest, none⟩ := by
  cases cs with
  | nil => cases hcs
  | cons c cs =>
    simp only [isWord, Bool.and_eq_true, List.all_eq_true] at hcs
    obtain ⟨hstart, hpart⟩ := hcs
    have hdot : c ≠ '.' := CharClass.ne_of_start hstart (by decide)
    have hnumber : startsNumber (c :: (cs ++ rest)) = false := by
      simp [startsNumber, CharClass.not_isDigit_of_start hstart, hdot]
    have htake : (cs ++ rest).takeWhile CharClass.isIdentifierPart = cs :=
      takeWhile_append_of_head? hpart hrest
    rw [List.cons_append, read_cons (CharClass.ne_of_start hstart (by decide))
      (fun h ↦ absurd h hdot) (CharClass.ne_of_start hstart (by decide)),
      if_neg (not_quote_of_start hstart), if_neg (by simp [hnumber]), if_pos hstart, ofIdentifier,
      htake, ofText, ← List.cons_append, List.drop_left]

theorem startsNumber_append {cs rest : List Char} (h : startsNumber cs = true) :
    startsNumber (cs ++ rest) = true := by
  match cs with
  | [] => cases h
  | [c] => simpa [startsNumber] using Or.inl (by simpa [startsNumber] using h)
  | c :: d :: cs => simpa [startsNumber] using h

theorem read_numeral {cs rest : List Char} (hcs : isNumeral cs = true) (hrest : IsApart rest) :
    read (cs ++ rest) = ⟨.numericLiteral, cs, cs, rest, none⟩ := by
  simp only [isNumeral, Bool.and_eq_true, beq_iff_eq] at hcs
  obtain ⟨hstart, hnumber⟩ := hcs
  have hstart' : startsNumber (cs ++ rest) = true := startsNumber_append hstart
  have htext : numberText (numberText cs ++ rest) = numberText cs := numberText_append hrest
  rw [hnumber] at htext
  cases cs with
  | nil => cases hstart
  | cons c cs =>
    have hc : c.isDigit = true ∨ c = '.' ∧ (cs ++ rest).head?.any Char.isDigit = true := by
      simpa [startsNumber] using hstart'
    have hne : ∀ d : Char, d.isDigit = false → d ≠ '.' → c ≠ d := by
      rintro d hd hdot rfl
      rcases hc with hc | hc
      · rw [hd] at hc
        cases hc
      · exact hdot hc.1
    have hdot : c = '.' → (cs ++ rest).head?.any Char.isDigit = true := by
      rintro rfl
      rcases hc with hc | hc
      · exact absurd hc (by decide)
      · exact hc.2
    rw [List.cons_append] at hstart' htext ⊢
    rw [read_cons (hne '/' (by decide) (by decide)) hdot (hne '=' (by decide) (by decide)), if_neg,
      if_pos hstart']
    · rw [htext, ofText, ← List.cons_append, List.drop_left]
    · rintro (h | h)
      · exact hne _ (by decide) (by decide) h
      · exact hne _ (by decide) (by decide) h

theorem toNat_lt_of_isPlainChar {c : Char} (h : isPlainChar c = true) : c.toNat < 128 := by
  simp only [isPlainChar, Bool.or_eq_true, Bool.and_eq_true, decide_eq_true_eq, beq_iff_eq] at h
  rcases h with (((⟨-, h⟩ | rfl) | rfl) | rfl) | rfl
  · exact lt_trans h (by decide)
  all_goals decide

theorem isShownChar_of_isPlainChar {c : Char} (h : isPlainChar c = true) : isShownChar c = true := by
  have hall : ∀ n < 128, isPlainChar (Char.ofNat n) = true → isShownChar (Char.ofNat n) = true := by
    decide +kernel
  have hc := hall c.toNat (toNat_lt_of_isPlainChar h)
  rw [Char.ofNat_toNat] at hc
  exact hc h

/-- A character of a string is printed with a backslash that can be undone, or as it is. -/
theorem quotedChar_of_isShownChar {c : Char} (h : isShownChar c = true) :
    (∃ d, quotedChar c = ['\\', d] ∧ unescape d = c) ∨
      quotedChar c = [c] ∧ c ≠ '\\' ∧ c ≠ '"' ∧ isLineBreak c = false := by
  unfold isShownChar at h
  unfold quotedChar at h ⊢
  split_ifs at h ⊢ with hnul htab hreturn hfeed hquote hbackslash hescaped
  · exact Or.inl ⟨'0', rfl, by rw [hnul]; decide⟩
  · exact Or.inl ⟨'t', rfl, by rw [htab]; decide⟩
  · exact Or.inl ⟨'r', rfl, by rw [hreturn]; decide⟩
  · exact Or.inl ⟨'n', rfl, by rw [hfeed]; decide⟩
  · exact Or.inl ⟨'"', rfl, by rw [hquote]; decide⟩
  · exact Or.inl ⟨'\\', rfl, by rw [hbackslash]; decide⟩
  · simp [escapedCodePoint] at h
  · exact Or.inr ⟨rfl, hbackslash, hquote, by simp [isLineBreak, hfeed, hreturn]⟩

/-- A string without its opening quote is read up to its closing quote. -/
theorem ofStringBody_quoted {cs rest : List Char} (hcs : ∀ c ∈ cs, isShownChar c = true) :
    ofStringBody '"' (cs.flatMap quotedChar ++ '"' :: rest) =
      ⟨.stringLiteral, cs, cs.flatMap quotedChar ++ ['"'], rest, none⟩ := by
  induction cs with
  | nil => simp [ofStringBody]
  | cons c cs ih =>
    have htail := ih fun d hd ↦ hcs d (List.mem_cons_of_mem c hd)
    rw [List.flatMap_cons, List.append_assoc]
    rcases quotedChar_of_isShownChar (hcs c List.mem_cons_self) with
      ⟨d, hquoted, hd⟩ | ⟨hquoted, hbackslash, hquote, hbreak⟩
    · rw [hquoted, List.cons_append, List.singleton_append, ofStringBody, htail, hd]
      rfl
    · rw [hquoted, List.singleton_append, ofStringBody]
      · simp [hquote, hbreak, htail]
      · exact fun h ↦ absurd h hbackslash
      · exact fun _ _ h ↦ absurd h hbackslash

theorem read_quoted {s : String} {rest : List Char} (hs : ∀ c ∈ s.toList, isShownChar c = true) :
    read ((quoted s).toList ++ rest) =
      ⟨.stringLiteral, s.toList, (quoted s).toList, rest, none⟩ := by
  have hquoted : (quoted s).toList = '"' :: (s.toList.flatMap quotedChar ++ ['"']) := by
    simp [quoted]
  rw [hquoted, List.cons_append, List.append_assoc, List.singleton_append,
    read_cons (by decide) (by simp) (by decide), if_pos (Or.inl rfl), ofStringBody_quoted hs]

/-! ### What is read -/

theorem isWord_ofIdentifier {c : Char} {cs : List Char}
    (h : CharClass.isIdentifierStart c = true) : isWord (ofIdentifier c cs).value = true := by
  simp only [ofIdentifier, ofText, isWord, h, Bool.true_and, List.all_eq_true]
  exact fun _ ↦ List.mem_takeWhile_imp

/-- A point that starts a number has its first digit behind it. -/
theorem numberText_point {d : Char} {cs : List Char} (hd : d.isDigit = true) :
    ∃ tail, numberText ('.' :: d :: cs) = '.' :: d :: tail := by
  have hno : ¬hasRadix ('.' :: d :: cs) := by
    rintro ⟨_, _, heq, -⟩
    exact absurd (List.cons.inj heq).1 (by decide)
  have hpoint : isWholeDigit '.' = false := by decide
  rw [numberText_of_not_hasRadix hno]
  unfold numberText.decimalText
  simp only [List.takeWhile_cons_of_neg (by simp [hpoint] : ¬isWholeDigit '.' = true),
    List.length_nil, List.drop_zero, fractionText, List.takeWhile_cons_of_pos hd, List.nil_append,
    List.cons_append]
  exact ⟨_, rfl⟩

theorem isNumeral_numberText {cs : List Char} (h : startsNumber cs = true) :
    isNumeral (numberText cs) = true := by
  have htext : numberText (numberText cs ++ []) = numberText cs := numberText_append isApart_nil
  rw [List.append_nil] at htext
  have hstart : startsNumber (numberText cs) = true := by
    obtain ⟨tail, hcs⟩ := numberText_isPrefix cs
    match hnumber : numberText cs with
    | [] => exact absurd hnumber (numberText_ne_nil h)
    | [c] =>
      rw [hnumber, List.singleton_append] at hcs
      subst hcs
      simp only [startsNumber, Bool.or_eq_true, Bool.and_eq_true, beq_iff_eq] at h ⊢
      rcases h with h | ⟨rfl, h⟩
      · exact Or.inl h
      · cases tail with
        | nil => simp at h
        | cons d ds =>
          obtain ⟨behind, hpoint⟩ := numberText_point  (by simpa using h)
          rw [hpoint] at hnumber
          cases hnumber
    | c :: d :: ds =>
      rw [← hcs, hnumber] at h
      simpa [startsNumber] using h
  simp [isNumeral, hstart, htext]

/-- What is known of the lexeme at the front of a text. -/
structure IsFront (cs : List Char) (l : Lexeme) : Prop where
  word : l.kind = .identifier → isWord l.value = true
  numeral : l.kind = .numericLiteral → isNumeral l.value = true
  ending : l.kind = .endOfFile → cs = []
  shorter : cs ≠ [] → l.rest.length < cs.length

theorem kind_ofStringBody (quote : Char) (cs : List Char) :
    (ofStringBody quote cs).kind = .stringLiteral := by
  fun_induction ofStringBody quote cs with
  | case3 _ _ _ ih => exact ih
  | case6 _ _ _ _ _ _ _ ih => exact ih
  | _ => rfl

theorem length_rest_ofStringBody (quote : Char) (cs : List Char) :
    (ofStringBody quote cs).rest.length ≤ cs.length := by
  fun_induction ofStringBody quote cs with
  | case1 => exact Nat.le_refl _
  | case2 => exact Nat.zero_le _
  | case3 c cs tail ih => exact Nat.le_succ_of_le (Nat.le_succ_of_le ih)
  | case4 => exact Nat.le_succ _
  | case5 => exact Nat.le_refl _
  | case6 c cs _ _ _ _ tail ih => exact Nat.le_succ_of_le ih

/-- Punctuation takes one character and has no value. -/
theorem ofPunctuation?_ne {c : Char} {kind : TokenKind}
    (h : TokenKind.ofPunctuation? c = some kind) :
    kind ≠ .identifier ∧ kind ≠ .numericLiteral ∧ kind ≠ .endOfFile := by
  unfold TokenKind.ofPunctuation? at h
  split at h <;> cases h <;> decide

theorem isFront_ofSymbol (c : Char) (cs : List Char) : IsFront (c :: cs) (ofSymbol c cs) := by
  unfold ofSymbol
  split
  · next kind found =>
    obtain ⟨hword, hnumeral, hending⟩ := ofPunctuation?_ne found
    exact ⟨fun h ↦ absurd h hword, fun h ↦ absurd h hnumeral, fun h ↦ absurd h hending,
      fun _ ↦ by simp⟩
  · exact ⟨nofun, nofun, nofun, fun _ ↦ by simp⟩

theorem isFront_read (cs : List Char) : IsFront cs (read cs) := by
  unfold read
  split
  · exact ⟨nofun, nofun, fun _ ↦ rfl, fun h ↦ absurd rfl h⟩
  · next cs =>
    refine ⟨nofun, nofun, nofun, fun _ ↦ ?_⟩
    have hle : (cs.dropWhile (!isLineBreak ·)).length ≤ cs.length :=
      (List.dropWhile_sublist _).length_le
    simp only [List.length_cons]
    omega
  · exact ⟨nofun, nofun, nofun, fun _ ↦ by simp only [List.length_cons]; omega⟩
  · exact ⟨nofun, nofun, nofun, fun _ ↦ by simp only [List.length_cons]; omega⟩
  · next c cs _ _ _ =>
    split
    · have hkind := kind_ofStringBody c cs
      refine ⟨fun h ↦ ?_, fun h ↦ ?_, fun h ↦ ?_, fun _ ↦ ?_⟩
      · exact absurd (hkind.symm.trans h) (by decide)
      · exact absurd (hkind.symm.trans h) (by decide)
      · exact absurd (hkind.symm.trans h) (by decide)
      · exact Nat.lt_succ_of_le (length_rest_ofStringBody c cs)
    split
    · next hstart =>
      have hstart' : startsNumber (c :: cs) = true := hstart
      refine ⟨nofun, fun _ ↦ isNumeral_numberText hstart', nofun, fun _ ↦ ?_⟩
      have hpos := List.length_pos_iff.2 (numberText_ne_nil hstart')
      simp only [ofText, List.length_drop, List.length_cons]
      omega
    split
    · next hstart =>
      refine ⟨fun _ ↦ isWord_ofIdentifier hstart, nofun, nofun, fun _ ↦ ?_⟩
      simp only [ofIdentifier, ofText, List.length_drop, List.length_cons]
      omega
    · exact isFront_ofSymbol c cs

end Lexeme
end TypeSurface
