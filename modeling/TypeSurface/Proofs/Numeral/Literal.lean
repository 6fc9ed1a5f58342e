import Mathlib.Data.List.Induction
import Mathlib.Data.Nat.Digits.Defs
import TypeSurface.Proofs.Syntax.Tiling
import TypeSurface.Relation.Assignable

/-!
# Numbers that have a value

The numbers that stand in a source are written in decimal or behind a radix mark.  The main
statement says which of them have a value, and so are numbers to the index type and to the relation:
all that are written in decimal, and those behind a radix mark whose digits belong to the radix and
fit into 64 bits.  What stands behind a mark is scanned with the digits of the largest radix, at any
length.
-/

namespace TypeSurface

namespace Lexeme

theorem IsExponent.cases_of_mem {cs : List Char} (h : IsExponent cs) {c : Char} (hc : c ∈ cs) :
    c.isDigit = true ∨ c = 'e' ∨ c = 'E' ∨ c = '+' ∨ c = '-' := by
  cases h with
  | unsigned he hds =>
    rcases List.mem_cons.1 hc with rfl | hc
    · tauto
    · exact .inl (hds c hc)
  | signed he hsign hds =>
    rcases List.mem_cons.1 hc with rfl | hc
    · tauto
    rcases List.mem_cons.1 hc with rfl | hc
    · tauto
    · exact .inl (hds c hc)

/-- A number without a radix mark, cut in three. -/
structure IsDecimal (whole fraction exponent : List Char) : Prop where
  isWhole : ∀ c ∈ whole, isWholeDigit c = true
  isFraction : fraction = [] ∨
    ∃ digits, fraction = '.' :: digits ∧ ∀ c ∈ digits, c.isDigit = true
  isExponent : exponent = [] ∨ IsExponent exponent
  /-- A digit stands in front of the point or behind it. -/
  hasDigit : ∃ c ∈ whole ++ fraction, c.isDigit = true

/-- The characters behind the first part of a number. -/
theorem IsDecimal.cases_of_mem {whole fraction exponent : List Char}
    (h : IsDecimal whole fraction exponent) {c : Char} (hc : c ∈ fraction ++ exponent) :
    c.isDigit = true ∨ c = '.' ∨ c = 'e' ∨ c = 'E' ∨ c = '+' ∨ c = '-' := by
  rcases List.mem_append.1 hc with hc | hc
  · rcases h.isFraction with rfl | ⟨digits, rfl, hdigits⟩
    · cases hc
    · rcases List.mem_cons.1 hc with rfl | hc
      · tauto
      · exact .inl (hdigits c hc)
  · rcases h.isExponent with rfl | hexponent
    · cases hc
    · rcases hexponent.cases_of_mem hc with hdigit | hmark
      · exact .inl hdigit
      · exact .inr (.inr hmark)

theorem fractionText_cases (cs : List Char) : fractionText cs = [] ∨
    ∃ digits, fractionText cs = '.' :: digits ∧ ∀ c ∈ digits, c.isDigit = true := by
  unfold fractionText
  split
  · exact .inr ⟨_, rfl, fun _ ↦ List.mem_takeWhile_imp⟩
  · exact .inl rfl

/-- A number starts with a digit, or with a point and a digit. -/
theorem exists_digit_of_startsNumber {cs : List Char} (h : startsNumber cs = true) :
    ∃ c ∈ cs.takeWhile isWholeDigit ++ fractionText (cs.drop (cs.takeWhile isWholeDigit).length),
      c.isDigit = true := by
  cases cs with
  | nil => cases h
  | cons c cs =>
    simp only [startsNumber, Bool.or_eq_true, Bool.and_eq_true, beq_iff_eq] at h
    rcases h with hc | ⟨rfl, hd⟩
    · have hwhole : isWholeDigit c = true := by simp [isWholeDigit, hc]
      exact ⟨c, by simp [List.takeWhile_cons_of_pos hwhole], hc⟩
    · obtain ⟨d, hhead, hd'⟩ := (Option.any_eq_true _ _).1 hd
      obtain ⟨ds, rfl⟩ := List.head?_eq_some_iff.1 hhead
      have hpoint : isWholeDigit '.' = false := by decide
      exact ⟨d, by simp [hpoint, fractionText, hd'], hd'⟩

theorem exists_isDecimal {cs : List Char} (hstart : startsNumber cs = true)
    (hdecimal : numberText.decimalText cs = cs) :
    ∃ whole fraction exponent, cs = whole ++ (fraction ++ exponent) ∧
      IsDecimal whole fraction exponent :=
  ⟨_, _, _, hdecimal.symm, fun _ ↦ List.mem_takeWhile_imp, fractionText_cases _,
    isExponent_exponentText _, exists_digit_of_startsNumber hstart⟩

end Lexeme

namespace Numeral

open Lexeme

/-! ### Decimal numbers -/

theorem isSome_readExponent? {cs : List Char} (h : cs = [] ∨ IsExponent cs) :
    (readExponent? cs).isSome = true := by
  rcases h with rfl | h
  · rfl
  cases h with
  | @unsigned e d ds he hds =>
    have hd : d.isDigit = true := hds d List.mem_cons_self
    have hall : (d :: ds).all Char.isDigit = true := List.all_eq_true.2 hds
    rw [readExponent?, if_pos ⟨he, rfl, hall⟩]
    · rfl
    · rintro cs heq
      rw [(List.cons.inj heq).1] at hd
      exact absurd hd (by decide)
    · rintro cs heq
      rw [(List.cons.inj heq).1] at hd
      exact absurd hd (by decide)
  | @signed e sign d ds he hsign hds =>
    have hall : (d :: ds).all Char.isDigit = true := List.all_eq_true.2 hds
    rcases hsign with rfl | rfl <;> simp [readExponent?, he, hall]

/-- What stands behind the digits of a decimal number does not go on with digits. -/
theorem head?_exponent {cs : List Char} (h : cs = [] ∨ IsExponent cs) :
    ∀ c ∈ cs.head?, c.isDigit = false ∧ c ≠ '.' := by
  have hmark : ∀ {e : Char}, e = 'e' ∨ e = 'E' → e.isDigit = false ∧ e ≠ '.' := by
    rintro e (rfl | rfl) <;> decide
  rintro c hc
  rcases h with rfl | h
  · cases hc
  cases h with
  | unsigned he _ => exact Option.mem_some.1 hc ▸ hmark he
  | signed he _ _ => exact Option.mem_some.1 hc ▸ hmark he

/-- A decimal number without underscores has a value. -/
theorem isSome_readDecimal? {whole fraction exponent : List Char}
    (h : IsDecimal whole fraction exponent) (hwhole : ∀ c ∈ whole, c.isDigit = true) :
    (readDecimal? (whole ++ (fraction ++ exponent))).isSome = true := by
  have hstop := head?_exponent h.isExponent
  have hexponent := isSome_readExponent? h.isExponent
  have htake : (whole ++ (fraction ++ exponent)).takeWhile Char.isDigit = whole := by
    refine Text.takeWhile_append_of_head? hwhole fun c hc ↦ ?_
    rcases h.isFraction with rfl | ⟨digits, rfl, -⟩
    · exact (hstop c hc).1
    · exact Option.mem_some.1 hc ▸ rfl
  obtain ⟨d, hd, hdigit⟩ := h.hasDigit
  unfold readDecimal?
  rw [htake]
  dsimp only
  rw [List.drop_left]
  rcases h.isFraction with rfl | ⟨digits, rfl, hdigits⟩
  · have hne : whole ≠ [] := by
      rintro rfl
      cases hd
    split
    · next rest hpoint =>
      rw [List.nil_append] at hpoint
      exact absurd rfl (hstop '.' (by rw [hpoint]; rfl)).2
    · simpa [hne] using hexponent
  · have hfraction : (digits ++ exponent).takeWhile Char.isDigit = digits :=
      Text.takeWhile_append_of_head? hdigits fun c hc ↦ (hstop c hc).1
    have hbehind : (digits ++ exponent).dropWhile Char.isDigit = exponent := by
      have hsplit := List.takeWhile_append_dropWhile (p := Char.isDigit) (l := digits ++ exponent)
      rwa [hfraction, List.append_cancel_left_eq] at hsplit
    have hne : ¬(whole = [] ∧ digits = []) := by
      rintro ⟨rfl, rfl⟩
      obtain rfl := List.mem_singleton.1 hd
      exact absurd hdigit (by decide)
    simp [hfraction, hbehind, hne, hexponent]

/-! ### Whole numbers behind a radix mark -/

/-- Whether digits write a whole number of at most 64 bits: there is a digit, each is one of the
base, and the number that they write is small enough. -/
structure IsWhole (base : Nat) (digits : List Char) : Prop where
  nonempty : digits ≠ []
  below : ∀ c ∈ digits, digitValue c < base
  fits : Nat.ofDigits base (digits.reverse.map digitValue) < 2 ^ 64

theorem ofDigits_eq (base : Nat) (digits : List Char) :
    ofDigits base digits = Nat.ofDigits base (digits.reverse.map digitValue) := by
  induction digits using List.reverseRecOn with
  | nil => rfl
  | append_singleton digits d ih =>
    rw [ofDigits, List.foldl_append, List.foldl_cons, List.foldl_nil, ← ofDigits, ih,
      List.reverse_concat, List.map_cons, Nat.ofDigits_cons]
    ring

theorem isSome_readWhole?_iff {base : Nat} {digits : List Char} :
    (readWhole? base digits).isSome = true ↔ IsWhole base digits := by
  have hfits : ofDigits base digits < UInt64.size ↔
      Nat.ofDigits base (digits.reverse.map digitValue) < 2 ^ 64 := by
    rw [ofDigits_eq]
    rfl
  constructor
  · intro h
    unfold readWhole? at h
    split at h
    · next hall =>
      simp only [Bool.and_eq_true, Bool.not_eq_true', List.isEmpty_eq_false_iff, List.all_eq_true,
        decide_eq_true_eq] at hall
      exact ⟨hall.1.1, hall.1.2, hfits.1 hall.2⟩
    · cases h
  · rintro ⟨hne, hbelow, hsmall⟩
    have hall : digits.all (digitValue · < base) = true := by simpa using hbelow
    simp [readWhole?, hne, hall, hfits.2 hsmall]

/-! ### What is scanned -/

theorem baseOf?_eq_none {c : Char} (h : isRadixMark c = false) : baseOf? c = none := by
  simp only [isRadixMark, Bool.or_eq_false_iff, beq_eq_false_iff_ne] at h
  obtain ⟨⟨⟨⟨⟨hx, hX⟩, hb⟩, hB⟩, ho⟩, hO⟩ := h
  simp [baseOf?, hx, hX, hb, hB, ho, hO]

theorem exists_baseOf? {c : Char} (h : isRadixMark c = true) : ∃ base, baseOf? c = some base := by
  simp only [isRadixMark, Bool.or_eq_true, beq_iff_eq] at h
  rcases h with ((((rfl | rfl) | rfl) | rfl) | rfl) | rfl <;> exact ⟨_, rfl⟩

/-- Whether a number has a value as it is written: behind a radix mark stands a whole number. -/
def IsReadable (cs : List Char) : Prop :=
  ∀ mark digits base, cs = '0' :: mark :: digits → baseOf? mark = some base →
    IsWhole base (digits.filter (· ≠ '_'))

theorem not_isRadixMark_of_isDigit {c : Char} (h : c.isDigit = true) : isRadixMark c = false :=
  CharClass.of_ascii (P := fun c ↦ c.isDigit = true → isRadixMark c = false) (by decide)
    (CharClass.toNat_lt_of_isDigit h) h

theorem ne_underscore_of_isDigit {c : Char} (h : c.isDigit = true) : c ≠ '_' := by
  rintro rfl
  cases h

section Decimal

variable {whole fraction exponent : List Char}

theorem not_isRadixMark_of_isDecimal (h : IsDecimal whole fraction exponent) :
    ∀ c ∈ whole ++ (fraction ++ exponent), isRadixMark c = false := by
  intro c hc
  rcases List.mem_append.1 hc with hc | hc
  · have hwhole := h.isWhole c hc
    simp only [isWholeDigit, Bool.or_eq_true, beq_iff_eq] at hwhole
    rcases hwhole with hdigit | rfl
    · exact not_isRadixMark_of_isDigit hdigit
    · rfl
  · rcases h.cases_of_mem hc with hdigit | rfl | rfl | rfl | rfl | rfl
    · exact not_isRadixMark_of_isDigit hdigit
    all_goals rfl

/-- Underscores stand only in front of the point. -/
theorem filter_of_isDecimal (h : IsDecimal whole fraction exponent) :
    (whole ++ (fraction ++ exponent)).filter (· ≠ '_') =
      whole.filter (· ≠ '_') ++ (fraction ++ exponent) := by
  have hbehind : ∀ c ∈ fraction ++ exponent, c ≠ '_' := by
    intro c hc
    rcases h.cases_of_mem hc with hdigit | rfl | rfl | rfl | rfl | rfl
    · exact ne_underscore_of_isDigit hdigit
    all_goals decide
  have hkept : (fraction ++ exponent).filter (· ≠ '_') = fraction ++ exponent :=
    List.filter_eq_self.2 fun c hc ↦ decide_eq_true (hbehind c hc)
  rw [List.filter_append, hkept]

theorem isDecimal_filter (h : IsDecimal whole fraction exponent) :
    IsDecimal (whole.filter (· ≠ '_')) fraction exponent := by
  refine ⟨fun c hc ↦ h.isWhole c (List.mem_filter.1 hc).1, h.isFraction, h.isExponent, ?_⟩
  obtain ⟨d, hd, hdigit⟩ := h.hasDigit
  refine ⟨d, ?_, hdigit⟩
  have hne := ne_underscore_of_isDigit hdigit
  simpa [hne] using hd

theorem readUnsigned?_of_not_isRadixMark {cs : List Char}
    (h : ∀ c ∈ cs, isRadixMark c = false) : readUnsigned? cs = readDecimal? cs := by
  unfold readUnsigned?
  split
  · rw [baseOf?_eq_none (h _ (by simp))]
  · rfl

theorem isSome_readUnsigned?_of_isDecimal (h : IsDecimal whole fraction exponent) :
    (readUnsigned? ((whole ++ (fraction ++ exponent)).filter (· ≠ '_'))).isSome = true := by
  have h' := isDecimal_filter h
  have hwhole : ∀ c ∈ whole.filter (· ≠ '_'), c.isDigit = true := by
    intro c hc
    obtain ⟨hc, hne⟩ := List.mem_filter.1 hc
    have hwhole := h.isWhole c hc
    simp only [isWholeDigit, Bool.or_eq_true, beq_iff_eq] at hwhole
    exact hwhole.resolve_right (of_decide_eq_true hne)
  rw [filter_of_isDecimal h, readUnsigned?_of_not_isRadixMark (not_isRadixMark_of_isDecimal h')]
  exact isSome_readDecimal? h' hwhole

end Decimal

/-- Just the numbers that are written well have a value. -/
theorem isSome_readUnsigned?_iff {cs : List Char} (h : isNumeral cs = true) :
    (readUnsigned? (cs.filter (· ≠ '_'))).isSome = true ↔ IsReadable cs := by
  simp only [isNumeral, Bool.and_eq_true, beq_iff_eq] at h
  obtain ⟨hstart, hnumber⟩ := h
  by_cases hradix : hasRadix cs
  · obtain ⟨mark, tail, rfl, hmark⟩ := hradix
    obtain ⟨base, hbase⟩ := exists_baseOf? hmark
    have hne : mark ≠ '_' := by
      rintro rfl
      cases hmark
    have hfilter : ('0' :: mark :: tail).filter (· ≠ '_') =
        '0' :: mark :: tail.filter (· ≠ '_') := by
      simp [hne]
    rw [hfilter, readUnsigned?, hbase]
    dsimp only
    rw [Option.isSome_map, isSome_readWhole?_iff]
    constructor
    · rintro hwhole mark' digits base' heq hbase'
      cases heq
      cases hbase.symm.trans hbase'
      exact hwhole
    · exact fun hreadable ↦ hreadable mark tail base rfl hbase
  · rw [numberText_of_not_hasRadix hradix] at hnumber
    obtain ⟨whole, fraction, exponent, rfl, hdecimal⟩ := exists_isDecimal hstart hnumber
    refine iff_of_true (isSome_readUnsigned?_of_isDecimal hdecimal) ?_
    rintro mark digits base heq hbase
    have hmark : isRadixMark mark = true := by
      by_contra hno
      rw [baseOf?_eq_none (by simpa using hno)] at hbase
      cases hbase
    exact absurd ⟨mark, digits, heq, hmark⟩ hradix

theorem read?_minus (cs : List Char) :
    read? ('-' :: cs) = (readUnsigned? (cs.filter (· ≠ '_'))).map Binary64.neg := rfl

theorem read?_of_isNumeral {cs : List Char} (h : isNumeral cs = true) :
    read? cs = readUnsigned? (cs.filter (· ≠ '_')) := by
  unfold read?
  split
  · cases h
  · rfl

end Numeral

/-- A sign in front of a number changes nothing but the sign of its value. -/
theorem Literal.numericValue?_minus {text : String} (h : Lexeme.isNumeral text.toList = true) :
    (number ("-" ++ text)).numericValue? = (number text).numericValue?.map Binary64.neg := by
  have hminus : ("-" ++ text).toList = '-' :: text.toList := by simp
  rw [numericValue?, numericValue?, hminus, Numeral.read?_minus, Numeral.read?_of_isNumeral h]

theorem Literal.isSome_numericValue?_iff {text : String} (h : Lexeme.isNumeral text.toList = true) :
    (number text).numericValue?.isSome = true ↔ Numeral.IsReadable text.toList := by
  rw [numericValue?, Numeral.read?_of_isNumeral h, Numeral.isSome_readUnsigned?_iff h]

/-- A literal is a number to the relation if it has a value. -/
theorem Relation.isAssignable_number (types : OrderedMap String TypeEntry) (value : Literal) :
    isAssignable types (.literal value) (.keyword .number) = value.numericValue?.isSome := by
  have hne : TypeExpr.literal value ≠ .keyword .number := nofun
  have hany : (value.numericValue?.any fun _ ↦ true) = value.numericValue?.isSome := by
    cases value.numericValue? <;> rfl
  rw [isAssignable, maxRelationDepth, assignableWithin, decide_eq_false hne, Bool.false_or,
    ← hany]
  rfl

namespace Scanner

theorem isNumeral_of_scan {s : Scanner} (h : s.scan.token.kind = .numericLiteral) :
    Lexeme.isNumeral s.scan.token.value.toList = true := by
  have hvalue : s.scan.token.value.toList = (Lexeme.read (Trivia.readAll s.ahead).2).value :=
    String.toList_ofList
  rw [hvalue]
  exact (Lexeme.isFront_read _).numeral h

theorem isNumeral_iterate_scan {file source : String} {n : Nat}
    (h : (scan^[n] (.ofSource file source)).token.kind = .numericLiteral) :
    Lexeme.isNumeral (scan^[n] (.ofSource file source)).token.value.toList = true := by
  cases n with
  | zero => cases h
  | succ n =>
    rw [Function.iterate_succ_apply'] at h ⊢
    exact isNumeral_of_scan h

/-- Of the numbers that stand in a source just the readable ones have a value, with a minus in front
of them or without.  These are numbers to the index type, and they go to `number` whatever aliases
there are; the others do neither. -/
theorem number_has_value_iff {file source : String} {n : Nat} {token : Token} {text : String}
    (htoken : (scan^[n] (.ofSource file source)).token = token)
    (hkind : token.kind = .numericLiteral) (htext : text = token.value ∨ text = "-" ++ token.value)
    (types : OrderedMap String TypeEntry) :
    ((Literal.number text).numericValue?.isSome = true ↔ Numeral.IsReadable token.value.toList) ∧
      (Index.isNumeric (.literal (.number text)) = true ↔
        Numeral.IsReadable token.value.toList) ∧
      (Relation.isAssignable types (.literal (.number text)) (.keyword .number) = true ↔
        Numeral.IsReadable token.value.toList) := by
  subst htoken
  have hnumeral := isNumeral_iterate_scan hkind
  have hvalue : (Literal.number text).numericValue?.isSome = true ↔
      Numeral.IsReadable (scan^[n] (.ofSource file source)).token.value.toList := by
    rcases htext with rfl | rfl
    · exact Literal.isSome_numericValue?_iff hnumeral
    · rw [Literal.numericValue?_minus hnumeral, Option.isSome_map]
      exact Literal.isSome_numericValue?_iff hnumeral
  have hnumeric : Index.isNumeric (.literal (.number text)) =
      (Literal.number text).numericValue?.isSome := rfl
  rw [hnumeric, Relation.isAssignable_number]
  exact ⟨hvalue, hvalue, hvalue⟩

/-- The second number of a source, in hexadecimal and with underscores. -/
theorem number_has_value_iff_hexadecimal :
    let source := "type Place = 1.5e+3 | -0xFF_FF;"
    let token := (scan^[7] (.ofSource "place.d.ts" source)).token
    token.kind = .numericLiteral ∧ token.value = "0xFF_FF" ∧
      ((Literal.number "-0xFF_FF").numericValue?.isSome = true ↔
        Numeral.IsReadable token.value.toList) ∧
      (Index.isNumeric (.literal (.number "-0xFF_FF")) = true ↔
        Numeral.IsReadable token.value.toList) ∧
      (Relation.isAssignable .empty (.literal (.number "-0xFF_FF")) (.keyword .number) = true ↔
        Numeral.IsReadable token.value.toList) := by
  intro source token
  have hkind : token.kind = .numericLiteral := by decide +kernel
  have hvalue : token.value = "0xFF_FF" := by decide +kernel
  refine ⟨hkind, hvalue, number_has_value_iff rfl hkind (.inr ?_) .empty⟩
  rw [hvalue]
  rfl

/-- A hexadecimal number of more than 64 bits has no value. -/
theorem not_number_has_value :
    let token := (scan (.ofSource "place.d.ts" "0x10000000000000000")).token
    token.kind = .numericLiteral ∧ token.value = "0x10000000000000000" ∧
      (Literal.number token.value).numericValue? = none ∧
      Index.isNumeric (.literal (.number token.value)) = false ∧
      Relation.isAssignable .empty (.literal (.number token.value)) (.keyword .number) = false := by
  decide +kernel

end Scanner
end TypeSurface
