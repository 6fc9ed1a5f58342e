import Mathlib.Data.List.DropRight
import TypeSurface.Proofs.Syntax.Header

/-!
# Tags

The texts that are read as directives are those of a grammar: a name, and keys with their values
between quotes, with white space where it may stand.  The main statement says that reading gives just
the name and the attributes that the grammar gives, and that what can be written is read back.
-/

namespace TypeSurface

namespace Text

variable {p : Char → Bool} {c : Char} {cs ds before rest : List Char}

/-- Whether a text is white space and nothing else. -/
def IsBlank (cs : List Char) : Prop := ∀ c ∈ cs, CharClass.isWhiteSpace c = true

instance (cs : List Char) : Decidable (IsBlank cs) :=
  decidable_of_iff (cs.all CharClass.isWhiteSpace = true) List.all_eq_true

theorem isBlank_nil : IsBlank [] := nofun

theorem IsBlank.append (hcs : IsBlank cs) (hds : IsBlank ds) : IsBlank (cs ++ ds) :=
  fun c hc ↦ (List.mem_append.1 hc).elim (hcs c) (hds c)

theorem splitAt?_singleton_eq_some_iff :
    splitAt? [c] cs = some (before, rest) ↔ cs = before ++ c :: rest ∧ c ∉ before := by
  refine ⟨fun h ↦ ⟨eq_append_of_splitAt? h, fun hmem ↦ ?_⟩,
    fun ⟨hcs, hmem⟩ ↦ hcs ▸ splitAt?_of_notMem rest hmem⟩
  obtain ⟨front, back, rfl, hfront⟩ := List.eq_append_cons_of_mem hmem
  have hfirst := splitAt?_of_notMem (back ++ c :: rest) hfront
  have hcs := eq_append_of_splitAt? h
  rw [List.append_assoc, List.cons_append] at hcs
  rw [hcs, List.singleton_append] at h
  rw [hfirst] at h
  simp at h

/-- White space in front of a text, and the text without it. -/
theorem exists_blank_trimStart (cs : List Char) :
    ∃ blank, IsBlank blank ∧ cs = blank ++ trimStart cs :=
  ⟨cs.takeWhile CharClass.isWhiteSpace, fun _ ↦ List.mem_takeWhile_imp,
    List.takeWhile_append_dropWhile.symm⟩

theorem exists_blank_trimEnd (cs : List Char) :
    ∃ blank, IsBlank blank ∧ cs = trimEnd cs ++ blank :=
  ⟨cs.rtakeWhile CharClass.isWhiteSpace, fun _ ↦ List.mem_rtakeWhile_imp,
    List.rdropWhile_append_rtakeWhile.symm⟩

theorem exists_blank_trim (cs : List Char) :
    ∃ front back, IsBlank front ∧ IsBlank back ∧ cs = front ++ (trim cs ++ back) := by
  obtain ⟨front, hfront, hstart⟩ := exists_blank_trimStart cs
  obtain ⟨back, hback, hend⟩ := exists_blank_trimEnd (trimStart cs)
  exact ⟨front, back, hfront, hback, hstart.trans (by rw [trim, ← hend])⟩

theorem mem_head?_of_trimEnd (h : c ∈ (trimEnd cs).head?) : c ∈ cs.head? := by
  obtain ⟨blank, -, hcs⟩ := exists_blank_trimEnd cs
  rw [hcs, List.head?_append, Option.mem_def.1 h]
  rfl

theorem trimStart_blank (hcs : IsBlank cs) (ds : List Char) : trimStart (cs ++ ds) = trimStart ds :=
  List.dropWhile_append_of_pos hcs

theorem trimStart_of_head (h : ∀ c ∈ cs.head?, CharClass.isWhiteSpace c = false) :
    trimStart cs = cs := by
  cases cs with
  | nil => rfl
  | cons c cs => exact trimStart_cons (h c rfl)

theorem trimEnd_blank (hcs : IsBlank cs) : trimEnd cs = [] :=
  List.rdropWhile_eq_nil_iff.2 hcs

/-- Only what stands behind the last character that is no white space is dropped. -/
theorem trimEnd_append_of_last (hc : CharClass.isWhiteSpace c = false) (ds : List Char) :
    trimEnd (cs ++ c :: ds) = cs ++ c :: trimEnd ds := by
  induction ds using List.reverseRecOn with
  | nil => exact trimEnd_append hc
  | append_singleton ds d ih =>
    rw [← List.cons_append, ← List.append_assoc]
    cases hd : CharClass.isWhiteSpace d with
    | true => rw [trimEnd_append_blank hd, trimEnd_append_blank hd, ih]
    | false =>
      rw [trimEnd_append hd, trimEnd_append hd]
      simp

theorem trim_blank (hbefore : IsBlank before) (hcs : ∀ c ∈ cs, CharClass.isWhiteSpace c = false)
    (hrest : IsBlank rest) : trim (before ++ (cs ++ rest)) = cs := by
  rw [trim, trimStart_blank hbefore]
  rcases List.eq_nil_or_concat cs with rfl | ⟨front, c, rfl⟩
  · rw [List.nil_append, ← List.append_nil rest, trimStart_blank hrest]
    rfl
  · rw [List.concat_eq_append] at hcs ⊢
    have hlast : CharClass.isWhiteSpace c = false := hcs c (by simp)
    rw [trimStart_of_head fun d hd ↦ ?_, List.append_assoc, List.singleton_append,
      trimEnd_append_of_last hlast, trimEnd_blank hrest]
    rw [List.head?_append_of_ne_nil _ (by simp)] at hd
    exact hcs d (List.mem_of_head? hd)

end Text

namespace Directive

/-! ### The grammar -/

/-- Whether a text may be the name of a tag. -/
structure IsName (name : List Char) : Prop where
  nonempty : name ≠ []
  chars : ∀ c ∈ name, isNameChar c = true

/-- Whether a text may be the key of an attribute. -/
structure IsKey (key : List Char) : Prop where
  nonempty : key ≠ []
  chars : ∀ c ∈ key, c ≠ '=' ∧ CharClass.isWhiteSpace c = false

/-- How an attribute is written: the value stands between two equal quotes that are not in it. -/
inductive AttributeText : List Char × List Char → List Char → Prop where
  | intro {key value before after : List Char} {quote : Char} (hkey : IsKey key)
    (hbefore : Text.IsBlank before) (hafter : Text.IsBlank after) (hquote : isQuote quote = true)
    (hvalue : quote ∉ value) :
    AttributeText (key, value) (key ++ (before ++ '=' :: (after ++ quote :: (value ++ [quote]))))

/-- How attributes are written up to the mark that closes the tag: with white space around them. -/
inductive AttributesText : List (List Char × List Char) → List Char → Prop where
  | nil {blank : List Char} (hblank : Text.IsBlank blank) : AttributesText [] blank
  | cons {entry : List Char × List Char} {entries : List (List Char × List Char)}
    {blank text rest : List Char} (hblank : Text.IsBlank blank) (htext : AttributeText entry text)
    (hrest : AttributesText entries rest) :
    AttributesText (entry :: entries) (blank ++ (text ++ rest))

/-- How a tag is written.  White space stands between its name and the first of its attributes. -/
inductive TagText : List Char → List (List Char × List Char) → List Char → Prop where
  | intro {name : List Char} {attributes : List (List Char × List Char)}
    {front body closing back : List Char} (hfront : Text.IsBlank front) (hname : IsName name)
    (hbody : AttributesText attributes body)
    (hapart : attributes ≠ [] → ∀ c ∈ body.head?, CharClass.isWhiteSpace c = true)
    (hclosing : closing = ['/', '>'] ∨ closing = ['>']) (hback : Text.IsBlank back) :
    TagText name attributes ('<' :: (front ++ (name ++ (body ++ (closing ++ back)))))

theorem toNat_lt_of_isNameChar {c : Char} (h : isNameChar c = true) : c.toNat < 128 := by
  have hchar : ((decide ('A' ≤ c ∧ c ≤ 'Z') || (decide ('a' ≤ c) && decide (c ≤ 'z'))) ||
      c.isDigit || c == '-') = true := h
  simp only [Bool.or_eq_true, Bool.and_eq_true, decide_eq_true_eq, beq_iff_eq] at hchar
  rcases hchar with ((⟨-, hle⟩ | ⟨-, hle⟩) | hdigit) | rfl
  · exact CharClass.toNat_lt_of_le hle (by decide)
  · exact CharClass.toNat_lt_of_le hle (by decide)
  · exact CharClass.toNat_lt_of_isDigit hdigit
  · decide

theorem not_isWhiteSpace_of_isNameChar {c : Char} (h : isNameChar c = true) :
    CharClass.isWhiteSpace c = false :=
  CharClass.of_ascii (P := fun c ↦ isNameChar c = true → CharClass.isWhiteSpace c = false)
    (by decide) (toNat_lt_of_isNameChar h) h

theorem isQuote_iff {c : Char} : isQuote c = true ↔ c = '"' ∨ c = '\x27' := by
  simp [isQuote]

theorem not_isWhiteSpace_of_isQuote {c : Char} (h : isQuote c = true) :
    CharClass.isWhiteSpace c = false := by
  rcases isQuote_iff.1 h with rfl | rfl <;> decide

section Grammar

variable {entry : List Char × List Char} {entries : List (List Char × List Char)}
  {cs text rest : List Char}

theorem IsKey.not_isWhiteSpace {key : List Char} (h : IsKey key) :
    ∀ c ∈ key, CharClass.isWhiteSpace c = false := fun c hc ↦ (h.chars c hc).2

theorem eq_notMem_of_isBlank {blank : List Char} (h : Text.IsBlank blank) : '=' ∉ blank :=
  fun hmem ↦ absurd (h _ hmem) (by decide)

theorem AttributeText.head (h : AttributeText entry text) :
    ∃ c cs, text = c :: cs ∧ CharClass.isWhiteSpace c = false := by
  cases h with
  | @intro key value before after quote hkey hbefore hafter hquote hvalue =>
    obtain ⟨c, cs, rfl⟩ := List.exists_cons_of_ne_nil hkey.nonempty
    exact ⟨c, _, rfl, hkey.not_isWhiteSpace c (by simp)⟩

theorem AttributeText.last (h : AttributeText entry text) :
    ∃ cs c, text = cs ++ [c] ∧ isQuote c = true := by
  cases h with
  | @intro key value before after quote hkey hbefore hafter hquote hvalue =>
    exact ⟨key ++ (before ++ '=' :: (after ++ quote :: value)), quote, by simp, hquote⟩

/-! ### Reading attributes -/

/-- What is checked of the text in front of the sign `=`, where that sign does not stand. -/
theorem isKey_iff {key : List Char} (hequals : '=' ∉ key) :
    IsKey key ↔ ¬(key.isEmpty || key.any CharClass.isWhiteSpace) = true := by
  simp only [Bool.or_eq_true, List.isEmpty_iff, List.any_eq_true, not_or, not_exists, not_and,
    Bool.not_eq_true]
  refine ⟨fun h ↦ ⟨h.nonempty, h.not_isWhiteSpace⟩, fun h ↦ ⟨h.1, fun c hc ↦ ⟨?_, h.2 c hc⟩⟩⟩
  rintro rfl
  exact hequals hc

/-- An attribute that is read has been written, with white space in front of it and behind it. -/
theorem attributeText_of_readAttribute? (h : readAttribute? cs = some (entry, rest)) :
    ∃ blank text tail, Text.IsBlank blank ∧ AttributeText entry text ∧
      cs = blank ++ (text ++ tail) ∧ rest = Text.trimStart tail := by
  unfold readAttribute? at h
  split at h
  · cases h
  next front afterKey hsplit =>
  dsimp only at h
  split at h
  · cases h
  next hkey =>
  split at h
  · cases h
  next quote body hafter =>
  split at h
  · next hquote =>
    simp only [Option.map_eq_some_iff, Prod.mk.injEq, Prod.exists] at h
    obtain ⟨value, tail, hvalue, rfl, rfl⟩ := h
    obtain ⟨rfl, hfront⟩ := Text.splitAt?_singleton_eq_some_iff.1 hsplit
    obtain ⟨rfl, hquoted⟩ := Text.splitAt?_singleton_eq_some_iff.1 hvalue
    obtain ⟨blank, before, hblank, hbefore, hsource⟩ := Text.exists_blank_trim front
    obtain ⟨gap, hgap, hbody⟩ := Text.exists_blank_trimStart afterKey
    have hequals : '=' ∉ Text.trim front := fun hmem ↦ by
      rw [hsource] at hfront
      simp [hmem] at hfront
    refine ⟨blank, _, tail, hblank,
      .intro ((isKey_iff hequals).2 hkey) hbefore hgap hquote hquoted, ?_, rfl⟩
    rw [hbody, hafter]
    nth_rewrite 1 [hsource]
    simp
  · cases h

/-- An attribute that is written is read, with the white space in front of it and behind it. -/
theorem readAttribute?_of_attributeText {blank tail : List Char} (hblank : Text.IsBlank blank)
    (h : AttributeText entry text) :
    readAttribute? (blank ++ (text ++ tail)) = some (entry, Text.trimStart tail) := by
  cases h with
  | @intro key value before after quote hkey hbefore hafter hquote hvalue =>
    have hequals : '=' ∉ key := fun hmem ↦ (hkey.chars _ hmem).1 rfl
    have hfront : '=' ∉ blank ++ (key ++ before) := by
      simp [eq_notMem_of_isBlank hblank, hequals, eq_notMem_of_isBlank hbefore]
    have hbody : Text.trimStart (after ++ quote :: (value ++ quote :: tail)) =
        quote :: (value ++ quote :: tail) := by
      rw [Text.trimStart_blank hafter, Text.trimStart_cons (not_isWhiteSpace_of_isQuote hquote)]
    have hsource : blank ++ (key ++ (before ++ '=' :: (after ++ quote :: (value ++ [quote]))) ++
        tail) = (blank ++ (key ++ before)) ++ '=' :: (after ++ quote :: (value ++ quote :: tail)) := by
      simp
    unfold readAttribute?
    rw [hsource, Text.splitAt?_of_notMem _ hfront]
    dsimp only
    rw [Text.trim_blank hblank hkey.not_isWhiteSpace hbefore, if_neg ((isKey_iff hequals).1 hkey),
      hbody]
    dsimp only
    rw [if_pos hquote, Text.splitAt?_of_notMem tail hvalue]
    rfl

theorem AttributesText.blank_append {blank : List Char} (hblank : Text.IsBlank blank)
    (h : AttributesText entries text) : AttributesText entries (blank ++ text) := by
  cases h with
  | nil hblank' => exact .nil (hblank.append hblank')
  | cons hblank' htext hrest =>
    rw [← List.append_assoc]
    exact .cons (hblank.append hblank') htext hrest

theorem attributesText_of_readAttributes? (h : readAttributes? cs = some entries) :
    AttributesText entries cs := by
  fun_induction readAttributes? cs generalizing entries with
  | case1 cs hempty =>
    cases h
    rw [List.isEmpty_iff.1 hempty]
    exact .nil Text.isBlank_nil
  | case2 => cases h
  | case3 cs hempty entry rest hread ih =>
    obtain ⟨entries, hentries, rfl⟩ := Option.map_eq_some_iff.1 h
    obtain ⟨blank, text, tail, hblank, htext, rfl, rfl⟩ := attributeText_of_readAttribute? hread
    obtain ⟨before, hbefore, htail⟩ := Text.exists_blank_trimStart tail
    refine .cons hblank htext ?_
    rw [htail]
    exact (ih hentries).blank_append hbefore

theorem readAttributes?_trimStart (h : AttributesText entries text) :
    readAttributes? (Text.trimStart text) = some entries := by
  induction h with
  | @nil blank hblank =>
    rw [← List.append_nil blank, Text.trimStart_blank hblank, readAttributes?]
    rfl
  | @cons entry entries blank text rest hblank htext hrest ih =>
    have hread : readAttribute? (text ++ rest) = some (entry, Text.trimStart rest) :=
      readAttribute?_of_attributeText Text.isBlank_nil htext
    obtain ⟨c, cs, rfl, hc⟩ := htext.head
    rw [Text.trimStart_blank hblank, List.cons_append, Text.trimStart_cons hc, readAttributes?,
      if_neg (by simp)]
    rw [List.cons_append] at hread
    split
    · next hnone =>
      rw [hread] at hnone
      cases hnone
    · next entry' rest' hsome =>
      rw [hread] at hsome
      cases hsome
      rw [ih]
      rfl

theorem AttributesText.trimEnd (h : AttributesText entries text) :
    AttributesText entries (Text.trimEnd text) := by
  induction h with
  | nil hblank =>
    rw [Text.trimEnd_blank hblank]
    exact .nil Text.isBlank_nil
  | @cons entry entries blank text rest hblank htext hrest ih =>
    obtain ⟨cs, c, rfl, hc⟩ := htext.last
    have hsource : blank ++ (cs ++ [c] ++ rest) = (blank ++ cs) ++ c :: rest := by simp
    have htrimmed : (blank ++ cs) ++ c :: Text.trimEnd rest =
        blank ++ (cs ++ [c] ++ Text.trimEnd rest) := by simp
    rw [hsource, Text.trimEnd_append_of_last (not_isWhiteSpace_of_isQuote hc), htrimmed]
    exact .cons hblank htext ih

theorem AttributesText.append_blank {blank : List Char} (hblank : Text.IsBlank blank)
    (h : AttributesText entries text) : AttributesText entries (text ++ blank) := by
  induction h with
  | nil hblank' => exact .nil (hblank'.append hblank)
  | cons hblank' htext hrest ih =>
    rw [List.append_assoc, List.append_assoc]
    exact .cons hblank' htext ih

/-! ### Reading tags -/

theorem eq_append_of_dropClosing? (h : dropClosing? cs = some text) :
    ∃ closing, (closing = ['/', '>'] ∨ closing = ['>']) ∧ cs = text ++ closing := by
  unfold dropClosing? at h
  split at h
  · next tail hreverse =>
    cases h
    exact ⟨_, Or.inl rfl, List.reverse_injective (by simp [hreverse])⟩
  · next tail _ hreverse =>
    cases h
    exact ⟨_, Or.inr rfl, List.reverse_injective (by simp [hreverse])⟩
  · cases h

theorem dropClosing?_append {closing : List Char} (hclosing : closing = ['/', '>'] ∨ closing = ['>'])
    (hlast : text.getLast? ≠ some '/') : dropClosing? (text ++ closing) = some text := by
  rcases hclosing with rfl | rfl
  · simp [dropClosing?]
  · rcases List.eq_nil_or_concat text with rfl | ⟨front, c, rfl⟩
    · rfl
    · have hc : c ≠ '/' := by simpa using hlast
      unfold dropClosing?
      rw [List.reverse_append, List.concat_eq_append, List.reverse_append, List.reverse_singleton,
        List.reverse_singleton, List.singleton_append, List.singleton_append]
      split
      · next heq =>
        simp only [List.cons.injEq] at heq
        exact absurd heq.2.1 hc
      · next tail _ heq =>
        simp only [List.cons.injEq, true_and] at heq
        rw [← heq]
        simp
      · next hother => exact absurd rfl (hother _)

/-- Attributes end with a quote or with white space. -/
theorem AttributesText.getLast?_ne (h : AttributesText entries text) :
    text.getLast? ≠ some '/' := by
  induction h with
  | nil hblank => exact fun hlast ↦ absurd (hblank _ (List.mem_of_getLast? hlast)) (by decide)
  | @cons entry entries blank text rest hblank htext hrest ih =>
    obtain ⟨cs, c, rfl, hc⟩ := htext.last
    intro hlast
    rcases List.eq_nil_or_concat rest with rfl | ⟨front, d, rfl⟩
    · have hslash : c = '/' := by simpa using hlast
      rw [hslash] at hc
      exact absurd hc (by decide)
    · rw [← List.append_assoc, List.concat_eq_append, ← List.append_assoc,
        List.getLast?_concat] at hlast
      refine ih ?_
      rw [List.concat_eq_append, List.getLast?_concat]
      exact hlast

/-- A name ends where the text behind it starts with white space. -/
theorem takeWhile_name {name : List Char} (hname : IsName name)
    (hrest : ∀ c ∈ rest.head?, CharClass.isWhiteSpace c = true) :
    (name ++ rest).takeWhile (!CharClass.isWhiteSpace ·) = name := by
  rw [List.takeWhile_append_of_pos fun c hc ↦ by
    rw [not_isWhiteSpace_of_isNameChar (hname.chars c hc)]
    rfl]
  cases rest with
  | nil => exact List.append_nil name
  | cons c rest => simp [hrest c rfl]

theorem isName_iff {name : List Char} :
    IsName name ↔ ¬(name.isEmpty || !name.all isNameChar) = true := by
  simp only [Bool.or_eq_true, not_or, List.isEmpty_iff, Bool.not_eq_true', Bool.not_eq_false,
    List.all_eq_true]
  exact ⟨fun h ↦ ⟨h.nonempty, h.chars⟩, fun h ↦ ⟨h.1, h.2⟩⟩

theorem tagText_of_readTag? {name : List Char} (h : readTag? cs = some (name, entries)) :
    TagText name entries cs := by
  unfold readTag? at h
  split at h
  · next body =>
    split at h
    · cases h
    next inner hinner =>
    dsimp only at h
    split at h
    · cases h
    next hname =>
    obtain ⟨attributes, hattributes, hresult⟩ := Option.map_eq_some_iff.1 h
    obtain ⟨hname', rfl⟩ := Prod.mk.inj hresult
    obtain ⟨back, hback, hbody⟩ := Text.exists_blank_trimEnd body
    obtain ⟨closing, hclosing, hclosed⟩ := eq_append_of_dropClosing? hinner
    obtain ⟨front, tail, hfront, htail, hinner'⟩ := Text.exists_blank_trim inner
    obtain ⟨rest, hrest, hsplit⟩ : ∃ rest, (Text.trim inner).dropWhile
        (!CharClass.isWhiteSpace ·) = rest ∧ Text.trim inner = name ++ rest :=
      ⟨_, rfl, by rw [← hname', List.takeWhile_append_dropWhile]⟩
    rw [hname'] at hname hattributes
    rw [hsplit, List.drop_left] at hattributes
    obtain ⟨gap, hgap, hblank⟩ := Text.exists_blank_trimStart rest
    have hattributesText : AttributesText attributes (rest ++ tail) := by
      refine AttributesText.append_blank htail ?_
      rw [hblank]
      exact (attributesText_of_readAttributes? hattributes).blank_append hgap
    have hsource : body = front ++ (name ++ (rest ++ tail ++ (closing ++ back))) := by
      rw [hbody, hclosed, hinner', hsplit]
      simp
    rw [hsource]
    refine .intro hfront (isName_iff.2 hname) hattributesText (fun hne c hc ↦ ?_) hclosing hback
    cases rest with
    | nil =>
      rw [show Text.trimStart [] = [] from rfl, readAttributes?] at hattributes
      cases hattributes
      exact absurd rfl hne
    | cons d rest =>
      cases hc
      have hstop := List.head?_dropWhile_not (!CharClass.isWhiteSpace ·) (Text.trim inner)
      rw [hrest] at hstop
      simpa using hstop
  · cases h

theorem IsName.last {name : List Char} (h : IsName name) :
    ∃ init d, name = init ++ [d] ∧ isNameChar d = true := by
  obtain ⟨init, d, rfl⟩ := (List.eq_nil_or_concat name).resolve_left h.nonempty
  exact ⟨init, d, List.concat_eq_append, h.chars d (by simp)⟩

theorem trimEnd_closing {closing back : List Char} (hclosing : closing = ['/', '>'] ∨ closing = ['>'])
    (hback : Text.IsBlank back) : Text.trimEnd (text ++ (closing ++ back)) = text ++ closing := by
  obtain ⟨init, rfl⟩ : ∃ init, closing = init ++ ['>'] := by
    rcases hclosing with rfl | rfl
    · exact ⟨['/'], rfl⟩
    · exact ⟨[], rfl⟩
  rw [List.append_assoc init, List.singleton_append, ← List.append_assoc,
    Text.trimEnd_append_of_last (by decide), Text.trimEnd_blank hback, List.append_assoc]

/-- Of the text between the marks of a tag, the name comes first and keeps its end. -/
theorem trim_name {front name : List Char} (hfront : Text.IsBlank front) (hname : IsName name) :
    Text.trim (front ++ (name ++ text)) = name ++ Text.trimEnd text := by
  obtain ⟨init, d, hlast, hd⟩ := hname.last
  have hhead : ∀ c ∈ (name ++ text).head?, CharClass.isWhiteSpace c = false := by
    intro c hc
    rw [List.head?_append_of_ne_nil _ hname.nonempty] at hc
    exact not_isWhiteSpace_of_isNameChar (hname.chars c (List.mem_of_head? hc))
  rw [Text.trim, Text.trimStart_blank hfront, Text.trimStart_of_head hhead, hlast, List.append_assoc,
    List.append_assoc, List.singleton_append, List.singleton_append,
    Text.trimEnd_append_of_last (not_isWhiteSpace_of_isNameChar hd)]

/-- The mark that closes a tag is never longer than it is meant to be. -/
theorem getLast?_name_ne {front name : List Char} (hname : IsName name)
    (h : AttributesText entries text) : (front ++ (name ++ text)).getLast? ≠ some '/' := by
  obtain ⟨init, d, rfl, hd⟩ := hname.last
  intro hslash
  rw [List.getLast?_append, List.getLast?_append] at hslash
  cases hend : text.getLast? with
  | some e =>
    rw [hend] at hslash
    exact h.getLast?_ne (hend.trans hslash)
  | none =>
    rw [hend, List.getLast?_concat] at hslash
    cases hslash
    exact absurd hd (by decide)

theorem readTag?_of_tagText {name : List Char} (h : TagText name entries cs) :
    readTag? cs = some (name, entries) := by
  cases h with
  | @intro front body closing back hfront hname hbody hapart hclosing hback =>
    have hclosed : Text.trimEnd (front ++ (name ++ (body ++ (closing ++ back)))) =
        (front ++ (name ++ body)) ++ closing := by
      rw [← trimEnd_closing hclosing hback]
      simp
    have hhead : ∀ c ∈ (Text.trimEnd body).head?, CharClass.isWhiteSpace c = true := by
      intro c hc
      cases entries with
      | nil =>
        cases hbody with
        | nil hblank =>
          rw [Text.trimEnd_blank hblank] at hc
          cases hc
      | cons entry entries => exact hapart (List.cons_ne_nil _ _) c (Text.mem_head?_of_trimEnd hc)
    rw [readTag?, hclosed, dropClosing?_append hclosing (getLast?_name_ne hname hbody)]
    dsimp only
    rw [trim_name hfront hname, takeWhile_name hname hhead, if_neg (isName_iff.1 hname),
      List.drop_left, readAttributes?_trimStart hbody.trimEnd]
    rfl

end Grammar

/-! ### Writing tags -/

/-- The quote that a value is written between: the double one, unless it stands in the value. -/
def quoteFor (value : List Char) : Char := if '"' ∈ value then '\x27' else '"'

/-- An attribute behind a blank. -/
def attributeText (entry : List Char × List Char) : List Char :=
  ' ' :: (entry.1 ++ '=' :: quoteFor entry.2 :: (entry.2 ++ [quoteFor entry.2]))

/-- The attributes as lists of characters. -/
def entries (d : Directive) : List (List Char × List Char) :=
  d.attributes.map fun (key, value) ↦ (key.toList, value.toList)

/-- The text of a directive, without the slashes in front. -/
def text (d : Directive) : String :=
  String.ofList ('<' :: (d.name.toList ++ (d.entries.flatMap attributeText ++ " />".toList)))

/-- Whether a directive can be written: no value holds both quotes. -/
structure IsWritable (d : Directive) : Prop where
  name : IsName d.name.toList
  keys : ∀ entry ∈ d.entries, IsKey entry.1
  values : ∀ entry ∈ d.entries, '"' ∉ entry.2 ∨ '\x27' ∉ entry.2

theorem quoteFor_notMem {value : List Char} (h : '"' ∉ value ∨ '\x27' ∉ value) :
    isQuote (quoteFor value) = true ∧ quoteFor value ∉ value := by
  unfold quoteFor
  split
  · next hdouble => exact ⟨by decide, h.resolve_left (not_not_intro hdouble)⟩
  · next hdouble => exact ⟨by decide, hdouble⟩

theorem attributesText_flatMap {entries : List (List Char × List Char)}
    (hkeys : ∀ entry ∈ entries, IsKey entry.1)
    (hvalues : ∀ entry ∈ entries, '"' ∉ entry.2 ∨ '\x27' ∉ entry.2) :
    AttributesText entries (entries.flatMap attributeText ++ [' ']) := by
  have hblank : Text.IsBlank [' '] := by
    rintro c hc
    rw [List.mem_singleton.1 hc]
    decide
  induction entries with
  | nil => exact .nil hblank
  | cons entry entries ih =>
    rw [List.forall_mem_cons] at hkeys hvalues
    obtain ⟨hquote, hvalue⟩ := quoteFor_notMem hvalues.1
    have hcons := AttributesText.cons hblank
      (.intro hkeys.1 Text.isBlank_nil Text.isBlank_nil hquote hvalue) (ih hkeys.2 hvalues.2)
    simpa [attributeText] using hcons

theorem tagText_text {d : Directive} (h : d.IsWritable) :
    TagText d.name.toList d.entries d.text.toList := by
  have hbody := attributesText_flatMap h.keys h.values
  have hsource : d.text.toList =
      '<' :: ([] ++ (d.name.toList ++ (d.entries.flatMap attributeText ++ [' '] ++
        (['/', '>'] ++ [])))) := by
    rw [text, String.toList_ofList]
    simp
  rw [hsource]
  refine .intro Text.isBlank_nil h.name hbody (fun hne c hc ↦ ?_) (Or.inl rfl) Text.isBlank_nil
  obtain ⟨entry, entries, hentries⟩ := List.exists_cons_of_ne_nil hne
  rw [hentries, List.flatMap_cons, attributeText] at hc
  cases hc
  decide

theorem AttributesText.isWritable {entries : List (List Char × List Char)} {cs : List Char}
    (h : AttributesText entries cs) :
    ∀ entry ∈ entries, IsKey entry.1 ∧ ('"' ∉ entry.2 ∨ '\x27' ∉ entry.2) := by
  induction h with
  | nil => exact nofun
  | cons hblank htext hrest ih =>
    refine List.forall_mem_cons.2 ⟨?_, ih⟩
    cases htext with
    | intro hkey hbefore hafter hquote hvalue =>
      refine ⟨hkey, ?_⟩
      rcases isQuote_iff.1 hquote with rfl | rfl
      · exact Or.inl hvalue
      · exact Or.inr hvalue

theorem isWritable_of_tagText {d : Directive} {cs : List Char}
    (h : TagText d.name.toList d.entries cs) : d.IsWritable := by
  cases h with
  | intro hfront hname hbody hapart hclosing hback =>
    exact ⟨hname, fun entry hentry ↦ (hbody.isWritable entry hentry).1,
      fun entry hentry ↦ (hbody.isWritable entry hentry).2⟩

theorem ofText?_eq_some_iff {text : String} {span : Span} {d : Directive} :
    ofText? text span = some d ↔ d.span = span ∧ TagText d.name.toList d.entries text.toList := by
  have hread : ofText? text span = some d ↔
      d.span = span ∧ readTag? text.toList = some (d.name.toList, d.entries) := by
    unfold ofText?
    constructor
    · intro h
      obtain ⟨⟨name, attributes⟩, htag, rfl⟩ := Option.map_eq_some_iff.1 h
      refine ⟨rfl, htag.trans ?_⟩
      simp [Directive.entries, Function.comp_def]
    · rintro ⟨rfl, htag⟩
      rw [htag]
      simp [Directive.entries, Function.comp_def]
  rw [hread]
  exact and_congr_right fun _ ↦ ⟨tagText_of_readTag?, readTag?_of_tagText⟩

/-- A text is read as a directive just if it is a tag of the grammar, and then as the name and the
attributes of the tag.  Its own text is read as the directive just if that can be written, which holds
of each one that is read from some text. -/
theorem tags_are_read_exactly :
    (∀ text span d, ofText? text span = some d ↔
      d.span = span ∧ TagText d.name.toList d.entries text.toList) ∧
    (∀ text span, (∃ d, ofText? text span = some d) ↔
      ∃ name attributes, TagText name attributes text.toList) ∧
    (∀ d : Directive, ofText? d.text d.span = some d ↔ d.IsWritable) ∧
    ∀ d : Directive, d.IsWritable ↔ ∃ text, ofText? text d.span = some d := by
  refine ⟨fun text span d ↦ ofText?_eq_some_iff, fun text span ↦ ⟨?_, ?_⟩, fun d ↦ ⟨?_, ?_⟩,
    fun d ↦ ⟨?_, ?_⟩⟩
  · rintro ⟨d, hd⟩
    exact ⟨_, _, (ofText?_eq_some_iff.1 hd).2⟩
  · rintro ⟨name, attributes, htag⟩
    refine ⟨⟨String.ofList name, attributes.map (Prod.map String.ofList String.ofList), span⟩,
      ofText?_eq_some_iff.2 ⟨rfl, ?_⟩⟩
    simpa [Directive.entries, Function.comp_def] using htag
  · exact fun h ↦ isWritable_of_tagText (ofText?_eq_some_iff.1 h).2
  · exact fun h ↦ ofText?_eq_some_iff.2 ⟨rfl, tagText_text h⟩
  · exact fun h ↦ ⟨d.text, ofText?_eq_some_iff.2 ⟨rfl, tagText_text h⟩⟩
  · rintro ⟨text, htext⟩
    exact isWritable_of_tagText (ofText?_eq_some_iff.1 htext).2

example : ofText? "< a k = '/>\"=' />" ⟨0, 0⟩ = some ⟨"a", [("k", "/>\"=")], ⟨0, 0⟩⟩ := by
  decide +kernel

end Directive
end TypeSurface
