import Mathlib.Data.List.TakeWhile
import TypeSurface.Json.Token

/-!
# Lexemes of JSON text

The text of a token is read as that token wherever it stands; only behind a number there must not
follow what could belong to it.  A text is its lexemes and the blanks between them.
-/

namespace TypeSurface
namespace Json

/-! ### Numbers -/

namespace Number

variable {cs found rest : List Char}

/-- Characters that numbers are made of. -/
def isNumberChar (c : Char) : Bool :=
  c.isDigit || c == '-' || c == '+' || c == '.' || c == 'e' || c == 'E'

theorem isNumberChar_of_isDigit {c : Char} (h : c.isDigit = true) : isNumberChar c = true := by
  simp [isNumberChar, h]

/-- Whether a text starts with a character that digits do not go on with. -/
def StopsDigits (rest : List Char) : Prop := ∀ c ∈ rest.head?, c.isDigit = false

/-- Whether a text starts with a character that a number does not go on with. -/
def Stops (rest : List Char) : Prop :=
  ∀ c ∈ rest.head?, c.isDigit = false ∧ c ≠ '.' ∧ c ≠ 'e' ∧ c ≠ 'E'

theorem Stops.stopsDigits (h : Stops rest) : StopsDigits rest := fun c hc ↦ (h c hc).1

theorem forall_mem_head?_append {p : Char → Prop} {front back : List Char}
    (hfront : ∀ c ∈ front.head?, p c) (hback : ∀ c ∈ back.head?, p c) :
    ∀ c ∈ (front ++ back).head?, p c := by
  cases front with
  | nil => exact hback
  | cons c front => exact hfront

/-- Digits up to a text that starts with none. -/
theorem scanDigits_append (hne : found ≠ []) (hdigits : ∀ c ∈ found, c.isDigit = true)
    (hrest : StopsDigits rest) : scanDigits (found ++ rest) = .ok (found, rest) := by
  have htake : (found ++ rest).takeWhile Char.isDigit = found := by
    rw [List.takeWhile_append_of_pos hdigits]
    cases rest with
    | nil => exact List.append_nil found
    | cons c rest => simp [hrest c rfl]
  simp [scanDigits, htake, hne]

theorem of_scanDigits (h : scanDigits cs = .ok (found, rest)) :
    cs = found ++ rest ∧ found ≠ [] ∧ ∀ c ∈ found, c.isDigit = true := by
  unfold scanDigits at h
  dsimp only at h
  split at h
  · cases h
  · next hne =>
    cases h
    exact ⟨(List.prefix_iff_eq_append.1 (List.takeWhile_prefix _)).symm, by simpa using hne,
      fun c hc ↦ List.mem_takeWhile_imp hc⟩

/-- What is scanned of a text, which is scanned alike in front of any text that `p` holds of. -/
structure Takes {α : Type} (scan : List Char → Except Bool (α × List Char)) (p : List Char → Prop)
    (text : List Char) (a : α) : Prop where
  chars : ∀ c ∈ text, isNumberChar c = true
  scan_append : ∀ rest, p rest → scan (text ++ rest) = .ok (a, rest)

theorem takes_scanWhole (h : scanWhole cs = .ok (found, rest)) :
    cs = found ++ rest ∧ (∃ d ds, found = d :: ds ∧ d.isDigit = true) ∧
      Takes scanWhole StopsDigits found found := by
  unfold scanWhole at h
  split at h
  · split at h
    · cases h
    · cases h
      refine ⟨rfl, ⟨_, _, rfl, rfl⟩, fun c hc ↦ ?_, fun after hafter ↦ ?_⟩
      · rw [List.mem_singleton.1 hc]
        rfl
      · have hstop : after.head?.any Char.isDigit = false := by
          cases after with
          | nil => rfl
          | cons c after => exact hafter c rfl
        simp [scanWhole, hstop]
  · next hzero =>
    obtain ⟨rfl, hne, hdigits⟩ := of_scanDigits h
    obtain ⟨d, ds, rfl⟩ := List.exists_cons_of_ne_nil hne
    refine ⟨rfl, ⟨d, ds, rfl, hdigits d (List.mem_cons_self ..)⟩,
      fun c hc ↦ isNumberChar_of_isDigit (hdigits c hc), fun after hafter ↦ ?_⟩
    unfold scanWhole
    split
    · next heq =>
      obtain ⟨rfl, -⟩ := List.cons.inj heq
      exact absurd rfl (hzero (ds ++ rest))
    · exact scanDigits_append hne hdigits hafter

theorem takes_scanFraction (h : scanFraction cs = .ok (found, rest)) :
    ∃ text, cs = text ++ rest ∧ (∀ c ∈ text.head?, c = '.') ∧
      Takes scanFraction (fun after ↦ StopsDigits after ∧ ∀ c ∈ after.head?, c ≠ '.') text found := by
  unfold scanFraction at h
  split at h
  · next tail =>
    obtain ⟨rfl, hne, hdigits⟩ := of_scanDigits h
    refine ⟨'.' :: found, rfl, fun c hc ↦ (Option.some.inj hc).symm, fun c hc ↦ ?_,
      fun after hafter ↦ scanDigits_append hne hdigits hafter.1⟩
    rcases List.mem_cons.1 hc with rfl | hc
    · rfl
    · exact isNumberChar_of_isDigit (hdigits c hc)
  · cases h
    refine ⟨[], rfl, nofun, nofun, fun after hafter ↦ ?_⟩
    rw [List.nil_append]
    unfold scanFraction
    split
    · exact absurd rfl (hafter.2 '.' rfl)
    · rfl

theorem exists_sign (cs : List Char) :
    ∃ sign, cs = sign ++ (scanSign cs).2 ∧ (∀ c ∈ sign, isNumberChar c = true) ∧
      ∀ d ds, d.isDigit = true → scanSign (sign ++ d :: ds) = ((scanSign cs).1, d :: ds) := by
  unfold scanSign
  split
  · exact ⟨['-'], rfl, by simp [isNumberChar], fun d ds _ ↦ rfl⟩
  · exact ⟨['+'], rfl, by simp [isNumberChar], fun d ds _ ↦ rfl⟩
  · refine ⟨[], rfl, nofun, fun d ds hd ↦ ?_⟩
    split
    · next heq => cases heq; cases hd
    · next heq => cases heq; cases hd
    · rfl

theorem scanExponent_of_stops (h : Stops rest) : scanExponent rest = .ok (none, rest) := by
  cases rest with
  | nil => rfl
  | cons c rest =>
    obtain ⟨-, -, he, hE⟩ := h c rfl
    simp [scanExponent, he, hE]

theorem takes_scanExponent {exponent : Option (Bool × List Char)}
    (h : scanExponent cs = .ok (exponent, rest)) :
    ∃ text, cs = text ++ rest ∧ (∀ c ∈ text.head?, c = 'e' ∨ c = 'E') ∧
      Takes scanExponent Stops text exponent := by
  have hnone : Takes scanExponent Stops [] none :=
    ⟨List.forall_mem_nil _, fun after ↦ scanExponent_of_stops⟩
  have hnomark : ∀ c ∈ ([] : List Char).head?, c = 'e' ∨ c = 'E' := by simp
  unfold scanExponent at h
  split at h
  · cases h
    exact ⟨[], rfl, hnomark, hnone⟩
  · next c tail =>
    split at h
    · next hmark =>
      split at h
      · cases h
      · next digits rest' hdigits =>
        cases h
        obtain ⟨hscanned, hne, hall⟩ := of_scanDigits hdigits
        obtain ⟨sign, hsign, hsignChars, hsigned⟩ := exists_sign tail
        obtain ⟨d, ds, rfl⟩ := List.exists_cons_of_ne_nil hne
        refine ⟨c :: (sign ++ d :: ds), ?_, ?_, ?_, fun after hafter ↦ ?_⟩
        · rw [hsign, hscanned]
          simp
        · intro e he
          rwa [← Option.some.inj he]
        · refine List.forall_mem_cons.2 ⟨?_, List.forall_mem_append.2 ⟨hsignChars, fun e he ↦ ?_⟩⟩
          · rcases hmark with rfl | rfl <;> rfl
          · exact isNumberChar_of_isDigit (hall e he)
        · have hsplit := hsigned d (ds ++ after) (hall d (List.mem_cons_self ..))
          have hdigits' := scanDigits_append hne hall hafter.stopsDigits
          simp only [List.cons_append, List.append_assoc, scanExponent, if_pos hmark]
            at hsplit hdigits' ⊢
          rw [hsplit, hdigits']
    · cases h
      exact ⟨[], rfl, hnomark, hnone⟩

theorem exists_minus (cs : List Char) :
    ∃ minus, cs = minus ++ unsigned cs ∧ (∀ c ∈ minus, isNumberChar c = true) ∧
      ∀ d ds, d.isDigit = true → unsigned (minus ++ d :: ds) = d :: ds ∧
        ((minus ++ d :: ds).head? == some '-') = (cs.head? == some '-') := by
  unfold unsigned
  split
  · exact ⟨['-'], rfl, by simp [isNumberChar], fun d ds _ ↦ ⟨rfl, rfl⟩⟩
  · next hminus =>
    have hhead : cs.head? ≠ some '-' := fun hhead ↦ by
      obtain ⟨tail, rfl⟩ := List.head?_eq_some_iff.1 hhead
      exact hminus tail rfl
    refine ⟨[], rfl, nofun, fun d ds hd ↦ ?_⟩
    have hd' : d ≠ '-' := by
      rintro rfl
      cases hd
    refine ⟨?_, by simp [hhead, hd']⟩
    rw [List.nil_append]
    split
    · next heq => exact absurd (List.cons.inj heq).1 hd'
    · rfl

/-- A number is scanned alike wherever it stands, unless its end is followed by what could belong
to it. -/
theorem takes_scan {n : Number} (h : scan cs = .ok (n, rest)) :
    ∃ text, cs = text ++ rest ∧ Takes scan Stops text n := by
  unfold scan at h
  simp only [bind, Except.bind, pure, Except.pure] at h
  split at h
  · cases h
  next wholeFound hwhole =>
    obtain ⟨whole, afterWhole⟩ := wholeFound
    split at h
    · cases h
    next fractionFound hfraction =>
      obtain ⟨fraction, afterFraction⟩ := fractionFound
      split at h
      · cases h
      next exponentFound hexponent =>
        obtain ⟨exponent, afterExponent⟩ := exponentFound
        cases h
        obtain ⟨minus, hcs, hminusChars, hminus⟩ := exists_minus cs
        obtain ⟨hunsigned, ⟨d, ds, rfl, hd⟩, hwholeTakes⟩ := takes_scanWhole hwhole
        obtain ⟨fractionText, rfl, hpoint, hfractionTakes⟩ := takes_scanFraction hfraction
        obtain ⟨exponentText, rfl, hmark, hexponentTakes⟩ := takes_scanExponent hexponent
        refine ⟨minus ++ (d :: ds ++ (fractionText ++ exponentText)), ?_, ?_, fun after hafter ↦ ?_⟩
        · rw [hcs, hunsigned]
          simp
        · simp only [List.forall_mem_append]
          exact ⟨hminusChars, hwholeTakes.chars, hfractionTakes.chars, hexponentTakes.chars⟩
        -- What follows each part starts with the mark of the next one, or ends the number.
        have hexponentStops : ∀ c ∈ (exponentText ++ after).head?, c.isDigit = false ∧ c ≠ '.' := by
          refine forall_mem_head?_append (fun c hc ↦ ?_) fun c hc ↦ ⟨(hafter c hc).1, (hafter c hc).2.1⟩
          rcases hmark c hc with rfl | rfl <;> decide
        have hfractionStops : StopsDigits (fractionText ++ (exponentText ++ after)) := by
          refine forall_mem_head?_append (fun c hc ↦ ?_) fun c hc ↦ (hexponentStops c hc).1
          rw [hpoint c hc]
          rfl
        obtain ⟨htail, hsign⟩ := hminus d (ds ++ (fractionText ++ (exponentText ++ after))) hd
        have hwhole' := hwholeTakes.scan_append _ hfractionStops
        have hfraction' := hfractionTakes.scan_append _
          ⟨fun c hc ↦ (hexponentStops c hc).1, fun c hc ↦ (hexponentStops c hc).2⟩
        have hexponent' := hexponentTakes.scan_append _ hafter
        simp only [List.cons_append, List.append_assoc, scan, bind, Except.bind, pure, Except.pure]
          at hwhole' ⊢
        rw [htail, hwhole']
        dsimp only
        rw [hfraction']
        dsimp only
        rw [hexponent', hsign]

end Number

/-! ### Quotations -/

namespace Quotation

/-- What may stand behind an opening quote, up to the closing one.  A backslash takes the next
character with it. -/
inductive IsBody : List Char → Prop
  | close : IsBody ['"']
  | escape (c : Char) {body : List Char} (hbody : IsBody body) : IsBody ('\\' :: c :: body)
  | char {c : Char} {body : List Char} (hquote : c ≠ '"') (hescape : c ≠ '\\')
    (hbody : IsBody body) : IsBody (c :: body)

theorem scan_escape {c d : Char} (hc : c ≠ 'u') (hd : unescape? c = some d) (cs : List Char) :
    scan ('\\' :: c :: cs) = (.char d :: (scan cs).1, (scan cs).2) := by
  rw [scan.eq_6 c cs (fun _ _ _ _ _ h ↦ absurd h hc) fun h ↦ absurd h hc, hd]

theorem scan_char {c : Char} (hquote : c ≠ '"') (hescape : c ≠ '\\') (hcontrol : ¬c < ' ')
    (cs : List Char) : scan (c :: cs) = (.char c :: (scan cs).1, (scan cs).2) := by
  rw [scan, if_neg hcontrol] <;> simp_all

theorem ne_of_hexValue? {c : Char} {n : Nat} (h : hexValue? c = some n) : c ≠ '"' ∧ c ≠ '\\' := by
  constructor <;> (rintro rfl; cases h)

theorem isBody_unit {a b c d : Char} {value : Nat} {body : List Char}
    (h : unit? a b c d = some value) (hbody : IsBody body) : IsBody (a :: b :: c :: d :: body) := by
  simp only [unit?, Option.bind_eq_bind, Option.bind_eq_some_iff, Option.pure_def] at h
  obtain ⟨_, ha, _, hb, _, hc, _, hd, -⟩ := h
  have hd' := ne_of_hexValue? hd
  have hc' := ne_of_hexValue? hc
  have hb' := ne_of_hexValue? hb
  have ha' := ne_of_hexValue? ha
  exact .char ha'.1 ha'.2 (.char hb'.1 hb'.2 (.char hc'.1 hc'.2 (.char hd'.1 hd'.2 hbody)))

/-- A quotation is read alike whatever stands behind it. -/
theorem exists_body_of_scan {cs rest : List Char} {pieces : List Piece}
    (h : scan cs = (pieces, .ok rest)) :
    ∃ body, cs = body ++ rest ∧ IsBody body ∧
      ∀ after, scan (body ++ after) = (pieces, .ok after) := by
  fun_induction scan cs generalizing pieces with
  | case1 => cases h
  | case2 cs =>
    cases h
    exact ⟨['"'], rfl, .close, fun after ↦ rfl⟩
  | case3 a b c d cs value hunit found ending hfound ih =>
    cases h
    obtain ⟨body, rfl, hbody, hscan⟩ := ih hfound
    exact ⟨'\\' :: 'u' :: a :: b :: c :: d :: body, rfl, .escape _ (isBody_unit hunit hbody),
      fun after ↦ by simp [scan, hunit, hscan]⟩
  | case4 => cases h
  | case5 => cases h
  | case6 => cases h
  | case7 c cs _ hu d hd found ending hfound ih =>
    cases h
    obtain ⟨body, rfl, hbody, hscan⟩ := ih hfound
    refine ⟨'\\' :: c :: body, rfl, .escape c hbody, fun after ↦ ?_⟩
    rw [List.cons_append, List.cons_append, scan_escape hu hd, hscan]
  | case8 => cases h
  | case9 => cases h
  | case10 c cs hquote _ _ hend hescape hcontrol found ending hfound ih =>
    cases h
    obtain ⟨body, rfl, hbody, hscan⟩ := ih hfound
    have hescape' : c ≠ '\\' := by
      rintro rfl
      cases hcs : body ++ rest with
      | nil => exact hend rfl hcs
      | cons d ds => exact hescape d ds rfl hcs
    refine ⟨c :: body, rfl, .char hquote hescape' hbody, fun after ↦ ?_⟩
    rw [List.cons_append, scan_char hquote hescape' hcontrol, hscan]

end Quotation
/-! ### Tokens -/

namespace Token

/-- How a token is written. -/
inductive Spells : Token → List Char → Prop
  | punctuation {c : Char} {t : Token} (h : ofPunctuation? c = some t) : Spells t [c]
  | word {c : Char} {t : Token} {tail : List Char} (h : wordTail? c = some (t, tail)) :
    Spells t (c :: tail)
  | string {body : List Char} {pieces : List Piece} (hbody : Quotation.IsBody body)
    (hscan : ∀ after, Quotation.scan (body ++ after) = (pieces, .ok after)) :
    Spells (.string pieces) ('"' :: body)
  | number {c : Char} {cs : List Char} {n : Number} (hfirst : c = '-' ∨ c.isDigit)
    (h : Number.Takes Number.scan Number.Stops (c :: cs) n) : Spells (.number n) (c :: cs)

/-- What may follow a token: numbers end where they stop. -/
def Parts (t : Token) (rest : List Char) : Prop :=
  ∀ n, t = number n → Number.Stops rest

theorem of_scanWord {word cs rest : List Char} (h : scanWord word cs = .ok rest) :
    cs = word ++ rest := by
  induction word generalizing cs with
  | nil => simpa [scanWord] using h
  | cons wanted word ih =>
    cases cs with
    | nil => cases h
    | cons c cs =>
      simp only [scanWord] at h
      split at h
      · next hc => rw [hc, ih h, List.cons_append]
      · cases h

theorem of_ofPunctuation? {c : Char} {t : Token} (h : ofPunctuation? c = some t) :
    (c = '[' ∧ t = openArray) ∨ (c = ']' ∧ t = closeArray) ∨ (c = '{' ∧ t = openObject) ∨
      (c = '}' ∧ t = closeObject) ∨ (c = ',' ∧ t = comma) ∨ (c = ':' ∧ t = colon) := by
  unfold ofPunctuation? at h
  split at h <;> simp_all

theorem of_wordTail? {c : Char} {t : Token} {tail : List Char}
    (h : wordTail? c = some (t, tail)) :
    (c = 'n' ∧ t = null ∧ tail = "ull".toList) ∨ (c = 't' ∧ t = bool true ∧ tail = "rue".toList) ∨
      (c = 'f' ∧ t = bool false ∧ tail = "alse".toList) := by
  unfold wordTail? at h
  split at h <;> simp_all

theorem isBlank_iff {c : Char} :
    isBlank c = true ↔ c = ' ' ∨ c = '\t' ∨ c = '\n' ∨ c = '\r' := by
  simp [isBlank, or_assoc]

/-- A number starts like no other token. -/
theorem of_first {c : Char} (h : c = '-' ∨ c.isDigit) :
    isBlank c = false ∧ ofPunctuation? c = none ∧ wordTail? c = none ∧ c ≠ '"' := by
  refine ⟨Bool.eq_false_iff.2 fun hblank ↦ ?_, Option.eq_none_iff_forall_ne_some.2 fun t ht ↦ ?_,
    Option.eq_none_iff_forall_ne_some.2 fun (t, tail) ht ↦ ?_, ?_⟩
  · rcases isBlank_iff.1 hblank with rfl | rfl | rfl | rfl <;> revert h <;> decide
  · rcases of_ofPunctuation? ht with
      ⟨rfl, -⟩ | ⟨rfl, -⟩ | ⟨rfl, -⟩ | ⟨rfl, -⟩ | ⟨rfl, -⟩ | ⟨rfl, -⟩ <;> revert h <;> decide
  · rcases of_wordTail? ht with ⟨rfl, -⟩ | ⟨rfl, -⟩ | ⟨rfl, -⟩ <;> revert h <;> decide
  · rintro rfl
    revert h
    decide

theorem Spells.read {t : Token} {text rest : List Char} (h : Spells t text) (hrest : t.Parts rest) :
    ∃ c cs, text = c :: cs ∧ isBlank c = false ∧ Token.read c (cs ++ rest) = (t, some rest) := by
  cases h with
  | @punctuation c t h =>
    refine ⟨c, [], rfl, ?_, by simp [Token.read, h]⟩
    rcases of_ofPunctuation? h with
      ⟨rfl, -⟩ | ⟨rfl, -⟩ | ⟨rfl, -⟩ | ⟨rfl, -⟩ | ⟨rfl, -⟩ | ⟨rfl, -⟩ <;> rfl
  | @word c t tail h =>
    rcases of_wordTail? h with ⟨rfl, rfl, rfl⟩ | ⟨rfl, rfl, rfl⟩ | ⟨rfl, rfl, rfl⟩ <;>
      exact ⟨_, _, rfl, rfl, rfl⟩
  | @string body pieces hbody hscan =>
    refine ⟨'"', body, rfl, rfl, ?_⟩
    simp [Token.read, ofPunctuation?, wordTail?, hscan]
  | @number c cs n hfirst h =>
    obtain ⟨hblank, hpunctuation, hword, hquote⟩ := of_first hfirst
    refine ⟨c, cs, rfl, hblank, ?_⟩
    have hscan := h.scan_append rest (hrest n rfl)
    rw [List.cons_append] at hscan
    simp [Token.read, hpunctuation, hword, hquote, hfirst, hscan]

theorem exists_spells_of_read {c : Char} {cs rest : List Char} {t : Token}
    (h : Token.read c cs = (t, some rest)) : ∃ text, c :: cs = text ++ rest ∧ Spells t text := by
  unfold Token.read at h
  split at h
  · next hpunctuation =>
    cases h
    exact ⟨[c], rfl, .punctuation hpunctuation⟩
  · next word _ hword =>
    split at h
    · next hscan =>
      cases h
      exact ⟨c :: word, by rw [of_scanWord hscan, List.cons_append], .word hword⟩
    · cases h
  · split at h
    · next hquote =>
      split at h
      · next hscan =>
        cases h
        obtain ⟨body, rfl, hbody, hlocal⟩ := Quotation.exists_body_of_scan (Prod.ext rfl hscan)
        exact ⟨'"' :: body, by rw [hquote, List.cons_append], .string hbody hlocal⟩
      · cases h
    · split at h
      · next hfirst =>
        split at h
        · next hscan =>
          cases h
          obtain ⟨text, htext, htakes⟩ := Number.takes_scan hscan
          cases text with
          | nil =>
            rw [List.nil_append] at htext
            exact absurd (Number.length_of_scan hscan) (htext ▸ lt_irrefl _)
          | cons d ds =>
            obtain ⟨rfl, rfl⟩ := List.cons.inj htext
            exact ⟨c :: ds, rfl, .number hfirst htakes⟩
        · cases h
      · cases h

end Token

/-! ### Texts -/

/-- A token with its text. -/
structure Lexeme where
  token : Token
  text : List Char
  spells : token.Spells text

/-- Whether a text is made of blanks. -/
def IsGap (gap : List Char) : Prop := ∀ c ∈ gap, Token.isBlank c = true

/-- The texts of some lexemes: these in their order, with blanks around them. -/
inductive Writes : List Lexeme → List Char → Prop
  | nil {gap : List Char} (hgap : IsGap gap) : Writes [] gap
  | cons {l : Lexeme} {ls : List Lexeme} {gap rest : List Char} (hgap : IsGap gap)
    (hparts : l.token.Parts rest) (hrest : Writes ls rest) :
    Writes (l :: ls) (gap ++ (l.text ++ rest))

variable {ls : List Lexeme} {gap cs rest : List Char} {c : Char} {t : Token}

theorem IsGap.append {gap' : List Char} (hgap : IsGap gap) (hgap' : IsGap gap') :
    IsGap (gap ++ gap') :=
  List.forall_mem_append.2 ⟨hgap, hgap'⟩

theorem Writes.gap_append (hgap : IsGap gap) (h : Writes ls cs) : Writes ls (gap ++ cs) := by
  cases h with
  | nil hgap' => exact .nil (hgap.append hgap')
  | cons hgap' hparts hrest =>
    rw [← List.append_assoc]
    exact .cons (hgap.append hgap') hparts hrest

theorem tokens_gap_append (hgap : IsGap gap) (cs : List Char) : tokens (gap ++ cs) = tokens cs := by
  induction gap with
  | nil => rfl
  | cons c gap ih =>
    rw [IsGap, List.forall_mem_cons] at hgap
    rw [List.cons_append, tokens, if_pos hgap.1, ih hgap.2]

theorem tokens_of_read (hblank : Token.isBlank c = false) (h : Token.read c cs = (t, some rest)) :
    tokens (c :: cs) = t :: tokens rest := by
  rw [tokens, if_neg (by simp [hblank])]
  split
  · next hrest =>
    rw [h] at hrest ⊢
    cases hrest
    rfl
  · next hnone =>
    rw [h] at hnone
    cases hnone

/-- The tokens of a text are those of the lexemes it is made of. -/
theorem tokens_of_writes (h : Writes ls cs) : tokens cs = ls.map (·.token) := by
  induction h with
  | @nil gap hgap => simpa [tokens] using tokens_gap_append hgap []
  | @cons l ls gap rest hgap hparts hrest ih =>
    obtain ⟨c, cs, htext, hblank, hread⟩ := l.spells.read hparts
    rw [tokens_gap_append hgap, htext, List.cons_append, tokens_of_read hblank hread, ih,
      List.map_cons]

end Json
end TypeSurface
