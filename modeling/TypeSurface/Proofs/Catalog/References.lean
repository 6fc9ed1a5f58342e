import TypeSurface.Catalog.Basic
import TypeSurface.Proofs.Declaration.Reading
import TypeSurface.Proofs.Syntax.Name
import TypeSurface.Proofs.Syntax.Parser.HeadTags
import TypeSurface.Proofs.Syntax.Tag

/-!
# References of a set

What a set refers to is read twice: from the tokens of its file, and by a search for strings in the
lines at its head.  The main statement says that both find the same where the head is written
plainly: each line of three slashes stands on a line of its own with nothing but white space in front
of it, and the attribute `set` of a reference is written `set="..."` and is the first place where
that text stands.  Elsewhere the two part: the search knows neither single quotes nor comments.
-/

namespace TypeSurface

namespace Text

variable {c : Char} {cs ds blank line pattern before : List Char}

/-! ### The first place of a text in another one -/

theorem splitAt?_eq_none_of_not_infix (h : ¬pattern <:+: cs) : splitAt? pattern cs = none := by
  refine Option.eq_none_iff_forall_ne_some.2 fun (before, rest) hsplit ↦ h ⟨before, rest, ?_⟩
  rw [eq_append_of_splitAt? hsplit, List.append_assoc]

/-- The pattern stands nowhere in front of its end. -/
theorem splitAt?_of_not_infix (rest : List Char) (h : ¬pattern <:+: before ++ pattern.dropLast) :
    splitAt? pattern (before ++ (pattern ++ rest)) = some (before, rest) := by
  induction before with
  | nil =>
    have hfound : dropPrefix? pattern (pattern ++ rest) = some rest := dropPrefix?_eq_some_iff.2 rfl
    rw [List.nil_append]
    cases hsource : pattern ++ rest with
    | nil =>
      rw [hsource] at hfound
      rw [splitAt?, hfound]
      rfl
    | cons c cs =>
      rw [hsource] at hfound
      rw [splitAt?, hfound]
  | cons c before ih =>
    have hnone : dropPrefix? pattern (c :: (before ++ (pattern ++ rest))) = none := by
      refine Option.eq_none_iff_forall_ne_some.2 fun tail htail ↦ h ?_
      have hhead : pattern <+: c :: before ++ (pattern ++ rest) :=
        ⟨tail, (dropPrefix?_eq_some_iff.1 htail).symm⟩
      have hshort : c :: before ++ pattern.dropLast <+: c :: before ++ (pattern ++ rest) :=
        (List.prefix_append_right_inj _).2 ((List.dropLast_prefix _).trans (List.prefix_append ..))
      exact (List.prefix_of_prefix_length_le hhead hshort (by simp; omega)).isInfix
    have hrest : ¬pattern <:+: before ++ pattern.dropLast := fun hinfix ↦
      h (List.infix_cons hinfix)
    rw [List.cons_append, splitAt?, hnone, ih hrest]
    rfl

/-- A text starts where its first character stands. -/
theorem infix_of_cons_infix_append (hc : c ∉ cs) (h : c :: line <:+: cs ++ ds) :
    c :: line <:+: ds := by
  induction cs with
  | nil => exact h
  | cons d cs ih =>
    rw [List.mem_cons, not_or] at hc
    rcases List.infix_cons_iff.1 h with hhead | htail
    · exact absurd (List.cons_prefix_cons.1 hhead).1 hc.1
    · exact ih hc.2 htail

/-- A text ends where its last character stands. -/
theorem infix_of_concat_infix_append (hc : c ∉ ds) (h : line ++ [c] <:+: cs ++ ds) :
    line ++ [c] <:+: cs := by
  induction ds using List.reverseRecOn with
  | nil => rwa [List.append_nil] at h
  | append_singleton ds d ih =>
    rw [List.mem_append, List.mem_singleton, not_or] at hc
    rw [← List.append_assoc] at h
    rcases List.infix_concat_iff.1 h with hlast | hinit
    · rcases List.suffix_concat_iff.1 hlast with hnil | ⟨init, hinit, -⟩
      · simp at hnil
      · exact absurd (List.cons.inj (List.append_inj_right' hinit rfl)).1 hc.2
    · exact ih hc.1 hinit

/-! ### Lines without the white space around them -/

theorem not_isWhiteSpace_of_trimStart (h : trimStart cs = c :: ds) :
    CharClass.isWhiteSpace c = false := by
  have hhead := List.head?_dropWhile_not CharClass.isWhiteSpace cs
  rw [show cs.dropWhile CharClass.isWhiteSpace = c :: ds from h] at hhead
  exact hhead

theorem trimEnd_cons_of_not (hc : CharClass.isWhiteSpace c = false) (cs : List Char) :
    trimEnd (c :: cs) = c :: trimEnd cs :=
  (trimEnd_append_of_last hc cs : trimEnd ([] ++ c :: cs) = [] ++ c :: trimEnd cs)

theorem trimStart_trimEnd (cs : List Char) : trimStart (trimEnd cs) = trim cs := by
  obtain ⟨blank, hblank, hcs⟩ := exists_blank_trimStart cs
  cases hstart : trimStart cs with
  | nil =>
    rw [hstart, List.append_nil] at hcs
    rw [trim, hstart, hcs, trimEnd_blank hblank]
    rfl
  | cons c ds =>
    have hc := not_isWhiteSpace_of_trimStart hstart
    rw [trim, hstart]
    nth_rewrite 1 [hcs]
    rw [hstart, trimEnd_append_of_last hc, trimStart_blank hblank, trimStart_cons hc,
      trimEnd_cons_of_not hc]

theorem trimEnd_append_isBlank (hblank : IsBlank blank) (cs : List Char) :
    trimEnd (cs ++ blank) = trimEnd cs := by
  induction blank using List.reverseRecOn with
  | nil => rw [List.append_nil]
  | append_singleton blank c ih =>
    obtain ⟨hblank, hc⟩ := List.forall_mem_append.1 hblank
    rw [← List.append_assoc, trimEnd_append_blank (hc c (by simp)), ih hblank]

theorem trim_append_isBlank (hblank : IsBlank blank) (cs : List Char) :
    trim (cs ++ blank) = trim cs := by
  rw [← trimStart_trimEnd, trimEnd_append_isBlank hblank, trimStart_trimEnd]

theorem trim_cons_of_not (hc : CharClass.isWhiteSpace c = false) (cs : List Char) :
    trim (c :: cs) = c :: trimEnd cs := by
  rw [trim, trimStart_cons hc, trimEnd_cons_of_not hc]

/-- The lines of a text that hold something, without the white space around them. -/
def filledLines (cs : List Char) : List (List Char) :=
  ((splitOn (· == '\n') cs).map trim).filter (!·.isEmpty)

theorem filter_map_trim_lines (cs : List Char) :
    ((lines cs).map trim).filter (!·.isEmpty) = filledLines cs := by
  have hcut : ∀ line : List Char,
      trim (if line.getLast? = some '\r' then line.dropLast else line) = trim line := by
    intro line
    split
    · next hlast =>
      obtain ⟨init, rfl⟩ := List.getLast?_eq_some_iff.1 hlast
      rw [List.dropLast_concat, trim_append_isBlank]
      rintro c hc
      rw [List.mem_singleton.1 hc]
      decide
    · rfl
  have hnil : trim [] = [] := rfl
  unfold filledLines lines
  rcases List.eq_nil_or_concat (splitOn (· == '\n') cs) with hpieces | ⟨front, last, hpieces⟩
  · rw [hpieces]
    rfl
  · rw [hpieces, List.concat_eq_append]
    cases last with
    | nil => simp [Function.comp_def, hcut, hnil]
    | cons c last => simp [Function.comp_def, hcut]

theorem filledLines_append_cons (line rest : List Char) :
    filledLines (line ++ '\n' :: rest) = filledLines line ++ filledLines rest := by
  unfold filledLines
  rw [splitOn_eq_splitOnP, splitOn_eq_splitOnP, splitOn_eq_splitOnP,
    List.splitOnP_append_cons _ _ (by decide), List.map_append, List.filter_append]

theorem filledLines_of_notMem (h : '\n' ∉ line) :
    filledLines line = [trim line].filter (!·.isEmpty) := by
  unfold filledLines
  rw [splitOn_eq_splitOnP, List.splitOnP_eq_singleton fun c hc ↦ ?_, List.map_singleton]
  simpa using fun hbreak : c = '\n' ↦ h (hbreak ▸ hc)

theorem filledLines_cons_of_isWhiteSpace (hc : CharClass.isWhiteSpace c = true) (cs : List Char) :
    filledLines (c :: cs) = filledLines cs := by
  by_cases hbreak : c = '\n'
  · rw [hbreak]
    exact filledLines_append_cons [] cs
  · unfold filledLines
    rw [splitOn, if_neg (by simpa using hbreak)]
    cases hpieces : splitOn (· == '\n') cs with
    | nil =>
      rw [splitOn_eq_splitOnP] at hpieces
      exact absurd hpieces (List.splitOnP_ne_nil _ _)
    | cons piece pieces =>
      have hpiece : trim (c :: piece) = trim piece := by
        rw [trim, trimStart, List.dropWhile_cons_of_pos hc]
        rfl
      simp only [List.map_cons, hpiece]

theorem filledLines_trimStart (cs : List Char) : filledLines (trimStart cs) = filledLines cs := by
  induction cs with
  | nil => rfl
  | cons c cs ih =>
    cases hc : CharClass.isWhiteSpace c with
    | true =>
      rw [filledLines_cons_of_isWhiteSpace hc, ← ih, trimStart, List.dropWhile_cons_of_pos hc]
      rfl
    | false => rw [trimStart_cons hc]

/-- What stands up to the first line feed is the first line. -/
theorem filledLines_of_head (hc : CharClass.isWhiteSpace c = false) (cs : List Char) :
    filledLines (c :: cs) =
      (c :: trimEnd (cs.takeWhile (· != '\n'))) :: filledLines (cs.dropWhile (· != '\n')) := by
  have hbreak : '\n' ∉ c :: cs.takeWhile (· != '\n') := by
    rw [List.mem_cons, not_or]
    refine ⟨?_, fun hmem ↦ absurd (List.mem_takeWhile_imp hmem) (by decide)⟩
    rintro rfl
    exact absurd hc (by decide)
  have hfirst : filledLines (c :: cs.takeWhile (· != '\n')) =
      [c :: trimEnd (cs.takeWhile (· != '\n'))] := by
    rw [filledLines_of_notMem hbreak, trim_cons_of_not hc]
    rfl
  nth_rewrite 1 [← List.takeWhile_append_dropWhile (p := (· != '\n')) (l := cs)]
  have hstop := List.head?_dropWhile_not (· != '\n') cs
  cases hrest : cs.dropWhile (· != '\n') with
  | nil =>
    rw [List.append_nil, hfirst]
    rfl
  | cons d rest =>
    rw [hrest] at hstop
    obtain rfl : d = '\n' := by simpa using hstop
    rw [← List.cons_append, filledLines_append_cons, hfirst,
      filledLines_cons_of_isWhiteSpace (by decide)]
    rfl

end Text

namespace Directive

variable {tag : List Char}

/-- A reference is written plainly if `set="..."` first stands where its attribute `set` does.  What
is no reference is written plainly if the search does not take it for one. -/
inductive IsPlainTag : List Char → Prop
  | reference {front value back closing : List Char}
    {entries more : List (List Char × List Char)} (hfront : AttributesText entries front)
    (hapart : ∃ c ∈ front.head?, CharClass.isWhiteSpace c = true)
    (hkeys : ∀ entry ∈ entries, entry.1 ≠ "set".toList) (hfirst : ¬"set=\"".toList <:+: front)
    (hvalue : '"' ∉ value) (hback : AttributesText more back)
    (hclosing : closing = ['/', '>'] ∨ closing = ['>']) :
    IsPlainTag ("<reference".toList ++ (front ++ ("set=\"".toList ++
      (value ++ '"' :: (back ++ closing)))))
  | other {tag : List Char} (hname : (readTag? tag).map (·.1) ≠ some "reference".toList)
    (hsearch : ¬"<reference".toList <+: tag ∨ ¬"set=\"".toList <:+: tag) : IsPlainTag tag

theorem AttributesText.append {entries more : List (List Char × List Char)} {front back : List Char}
    (hfront : AttributesText entries front) (hback : AttributesText more back) :
    AttributesText (entries ++ more) (front ++ back) := by
  induction hfront with
  | nil hblank => exact hback.blank_append hblank
  | cons hblank htext hrest ih =>
    rw [List.append_assoc, List.append_assoc]
    exact .cons hblank htext ih

/-- What a search for strings finds in a tag. -/
def searchReference? (tag : List Char) : Option (List Char) :=
  (Text.dropPrefix? "<reference".toList tag).bind fun _ ↦
    (Text.splitAt? "set=\"".toList tag).bind fun found ↦
      (Text.splitAt? ['"'] found.2).map (·.1)

theorem lineReference?_slashes (body : List Char) :
    Catalog.lineReference? ('/' :: '/' :: '/' :: body) = searchReference? (Text.trimStart body) := by
  have hslashes : Text.dropPrefix? ['/', '/', '/'] ('/' :: '/' :: '/' :: body) = some body :=
    Text.dropPrefix?_eq_some_iff.2 rfl
  unfold searchReference? Catalog.lineReference?
  rw [hslashes]
  simp only [Option.bind_eq_bind, Option.bind_some, Option.map_eq_bind]
  rfl

/-- In front of its place in a reference, `set="` only stands where it stands behind the name. -/
theorem not_infix_name_append {front : List Char} (h : ¬"set=\"".toList <:+: front) :
    ¬"set=\"".toList <:+: "<reference".toList ++ front ++ "set=\"".toList.dropLast := by
  intro hinfix
  have hname : "set=".toList ++ ['"'] <:+: "<reference".toList ++ front :=
    Text.infix_of_concat_infix_append (by decide) hinfix
  have hfront : 's' :: "et=\"".toList <:+: front :=
    Text.infix_of_cons_infix_append (by decide) hname
  exact h hfront

theorem searchReference?_reference {front value rest : List Char}
    (hfirst : ¬"set=\"".toList <:+: front) (hvalue : '"' ∉ value) :
    searchReference? ("<reference".toList ++ (front ++ ("set=\"".toList ++
      (value ++ '"' :: rest)))) = some value := by
  have hsplit := Text.splitAt?_of_not_infix (value ++ '"' :: rest) (not_infix_name_append hfirst)
  rw [List.append_assoc] at hsplit
  rw [searchReference?, Text.dropPrefix?_eq_some_iff.2 rfl, Option.bind_some, hsplit,
    Option.bind_some, Text.splitAt?_of_notMem rest hvalue]
  rfl

theorem tagReference?_reference {front value back closing : List Char}
    {entries more : List (List Char × List Char)} (hfront : AttributesText entries front)
    (hapart : ∃ c ∈ front.head?, CharClass.isWhiteSpace c = true)
    (hkeys : ∀ entry ∈ entries, entry.1 ≠ "set".toList) (hvalue : '"' ∉ value)
    (hback : AttributesText more back) (hclosing : closing = ['/', '>'] ∨ closing = ['>']) :
    tagReference? ("<reference".toList ++ (front ++ ("set=\"".toList ++
      (value ++ '"' :: (back ++ closing))))) = some value := by
  have hset : AttributeText ("set".toList, value) ("set=\"".toList ++ (value ++ ['"'])) :=
    .intro ((isKey_iff (by decide)).2 (by decide)) Text.isBlank_nil Text.isBlank_nil (by decide)
      hvalue
  have hbody : AttributesText (entries ++ ("set".toList, value) :: more)
      (front ++ ("set=\"".toList ++ (value ++ ['"']) ++ back)) :=
    hfront.append (.cons Text.isBlank_nil hset hback)
  have htag : TagText "reference".toList (entries ++ ("set".toList, value) :: more)
      ('<' :: ([] ++ ("reference".toList ++ (front ++ ("set=\"".toList ++ (value ++ ['"']) ++ back) ++
        (closing ++ []))))) := by
    refine .intro Text.isBlank_nil (isName_iff.2 (by decide)) hbody (fun _ c hc ↦ ?_) hclosing
      Text.isBlank_nil
    obtain ⟨d, hd, hblank⟩ := hapart
    rw [List.head?_append, Option.mem_def.1 hd] at hc
    cases hc
    exact hblank
  have hsource : "<reference".toList ++ (front ++ ("set=\"".toList ++
      (value ++ '"' :: (back ++ closing)))) =
      '<' :: ([] ++ ("reference".toList ++ (front ++ ("set=\"".toList ++ (value ++ ['"']) ++ back) ++
        (closing ++ [])))) := by
    simp
  have hnone : entries.find? (·.1 == "set".toList) = none :=
    List.find?_eq_none.2 fun entry hentry ↦ by simpa using hkeys entry hentry
  rw [hsource, tagReference?, readTag?_of_tagText htag, Option.bind_some]
  dsimp only
  rw [if_pos rfl, List.find?_append, hnone]
  rfl

/-- Both readings of a plain tag find the same. -/
theorem searchReference?_of_isPlainTag (h : IsPlainTag tag) :
    searchReference? tag = tagReference? tag := by
  cases h with
  | reference hfront hapart hkeys hfirst hvalue hback hclosing =>
    rw [searchReference?_reference hfirst hvalue,
      tagReference?_reference hfront hapart hkeys hvalue hback hclosing]
  | other hname hsearch =>
    have hsearched : searchReference? tag = none := by
      unfold searchReference?
      rcases hsearch with hopens | hset
      · have hnone : Text.dropPrefix? "<reference".toList tag = none :=
          Option.eq_none_iff_forall_ne_some.2 fun rest hrest ↦
            hopens ⟨rest, (Text.dropPrefix?_eq_some_iff.1 hrest).symm⟩
        rw [hnone]
        rfl
      · rw [Text.splitAt?_eq_none_of_not_infix hset]
        cases Text.dropPrefix? "<reference".toList tag <;> rfl
    have hread : tagReference? tag = none := by
      unfold tagReference?
      cases hread : readTag? tag with
      | none => rfl
      | some found =>
        refine if_neg fun hreference ↦ hname ?_
        rw [hread, ← hreference]
        rfl
    rw [hsearched, hread]

end Directive

namespace Catalog

/-- The lines of three slashes at the head of a text.  White space may stand between them. -/
def headLines (cs : List Char) : List (List Char) :=
  (Text.filledLines cs).takeWhile fun line ↦ (Text.dropPrefix? ['/', '/', '/'] line).isSome

theorem references_eq (text : String) :
    references text = ((headLines text.toList).filterMap lineReference?).map String.ofList := by
  unfold references headLines
  rw [← Text.filter_map_trim_lines]

variable {cs line : List Char}

theorem headLines_of_line (h : Text.trimStart cs = '/' :: '/' :: '/' :: line) :
    headLines cs = ('/' :: '/' :: '/' :: Text.trimEnd (line.takeWhile (· != '\n'))) ::
      headLines (line.dropWhile (· != '\n')) := by
  have hfirst : Text.trimEnd (('/' :: '/' :: line).takeWhile (· != '\n')) =
      '/' :: '/' :: Text.trimEnd (line.takeWhile (· != '\n')) :=
    (Text.trimEnd_cons_of_not (by decide) _).trans
      (congrArg _ (Text.trimEnd_cons_of_not (by decide) _))
  have hlines := Text.filledLines_of_head (c := '/') (by decide) ('/' :: '/' :: line)
  rw [← h, Text.filledLines_trimStart, hfirst] at hlines
  have hslashes : Text.dropPrefix? ['/', '/', '/']
      ('/' :: '/' :: '/' :: Text.trimEnd (line.takeWhile (· != '\n'))) =
        some (Text.trimEnd (line.takeWhile (· != '\n'))) :=
    Text.dropPrefix?_eq_some_iff.2 rfl
  rw [headLines, hlines, List.takeWhile_cons, hslashes]
  rfl

theorem headLines_of_not_line (h : ∀ line, Text.trimStart cs ≠ '/' :: '/' :: '/' :: line) :
    headLines cs = [] := by
  rw [headLines, ← Text.filledLines_trimStart]
  cases hstart : Text.trimStart cs with
  | nil => rfl
  | cons c ds =>
    have hnone : Text.dropPrefix? ['/', '/', '/']
        (c :: Text.trimEnd (ds.takeWhile (· != '\n'))) = none := by
      refine Option.eq_none_iff_forall_ne_some.2 fun tail htail ↦ ?_
      obtain ⟨blank, -, hends⟩ := Text.exists_blank_trimEnd (ds.takeWhile (· != '\n'))
      refine h (tail ++ (blank ++ ds.dropWhile (· != '\n'))) ?_
      calc Text.trimStart cs
        _ = c :: Text.trimEnd (ds.takeWhile (· != '\n')) ++
            (blank ++ ds.dropWhile (· != '\n')) := by
          rw [hstart, List.cons_append, ← List.append_assoc, ← hends,
            List.takeWhile_append_dropWhile]
        _ = '/' :: '/' :: '/' :: (tail ++ (blank ++ ds.dropWhile (· != '\n'))) := by
          rw [Text.dropPrefix?_eq_some_iff.1 htail]
          rfl
    rw [Text.filledLines_of_head (Text.not_isWhiteSpace_of_trimStart hstart), List.takeWhile_cons,
      hnone]
    rfl

theorem headLines_congr {ds : List Char} (h : Text.trimStart cs = Text.trimStart ds) :
    headLines cs = headLines ds := by
  rw [headLines, headLines, ← Text.filledLines_trimStart, h, Text.filledLines_trimStart]

/-! ### Heads that are written plainly -/

/-- The head of a file is written plainly if each line of three slashes stands on a line of its own,
behind white space alone, and holds a plain tag, up to a place where the search stops; what else may
be read as the head refers to nothing. -/
inductive IsPlainHead : List Char → Prop
  | stop {cs : List Char} (hline : ¬"///".toList <+: Text.trimStart cs)
    (hnone : (headTags cs).filterMap Directive.tagReference? = []) : IsPlainHead cs
  | line {front body rest : List Char}
    (hfront : ∀ c ∈ front, Trivia.isBlank c = true ∧ c ≠ '\ufeff')
    (hbody : ∀ c ∈ body, Text.isLineBreak c = false)
    (hend : ∀ c ∈ rest.head?, Text.isLineBreak c = true)
    (halone : Text.IsBlank (rest.takeWhile (· != '\n')))
    (htag : Directive.IsPlainTag (Text.trim body)) (hrest : IsPlainHead rest) :
    IsPlainHead (front ++ '/' :: '/' :: '/' :: (body ++ rest))

theorem isWhiteSpace_of_isBlank {c : Char} (h : Trivia.isBlank c = true ∧ c ≠ '\ufeff') :
    CharClass.isWhiteSpace c = true := by
  obtain ⟨hblank, hmark⟩ := h
  simp only [Trivia.isBlank, Text.isLineBreak, Bool.or_eq_true, beq_iff_eq] at hblank
  rcases hblank with ((((rfl | rfl) | rfl) | rfl) | rfl | rfl) | rfl
  all_goals first | decide | exact absurd rfl hmark

section Line

variable {front body rest : List Char}

/-- The search finds a line that stands alone. -/
theorem headLines_line (hfront : ∀ c ∈ front, Trivia.isBlank c = true ∧ c ≠ '\ufeff')
    (hbody : ∀ c ∈ body, Text.isLineBreak c = false)
    (halone : Text.IsBlank (rest.takeWhile (· != '\n'))) :
    headLines (front ++ '/' :: '/' :: '/' :: (body ++ rest)) =
      ('/' :: '/' :: '/' :: Text.trimEnd body) :: headLines rest := by
  have hstart : Text.trimStart (front ++ '/' :: '/' :: '/' :: (body ++ rest)) =
      '/' :: '/' :: '/' :: (body ++ rest) := by
    rw [Text.trimStart_blank fun c hc ↦ isWhiteSpace_of_isBlank (hfront c hc),
      Text.trimStart_cons (by decide)]
  have hfeed : ∀ c ∈ body, (c != '\n') = true := by
    intro c hc
    rw [bne_iff_ne]
    rintro rfl
    exact absurd (hbody _ hc) (by decide)
  have htail : headLines (rest.dropWhile (· != '\n')) = headLines rest := by
    refine headLines_congr ?_
    conv_rhs => rw [← List.takeWhile_append_dropWhile (p := (· != '\n')) (l := rest)]
    exact (Text.trimStart_blank halone _).symm
  rw [headLines_of_line hstart, List.takeWhile_append_of_pos hfeed,
    List.dropWhile_append_of_pos hfeed, Text.trimEnd_append_isBlank halone, htail]

/-- The tokens begin with a line that stands behind blanks. -/
theorem headTags_line (hfront : ∀ c ∈ front, Trivia.isBlank c = true ∧ c ≠ '\ufeff')
    (hbody : ∀ c ∈ body, Text.isLineBreak c = false)
    (hend : ∀ c ∈ rest.head?, Text.isLineBreak c = true) :
    headTags (front ++ '/' :: '/' :: '/' :: (body ++ rest)) = Text.trim body :: headTags rest := by
  have hskip : (Trivia.readAll (front ++ '/' :: '/' :: '/' :: (body ++ rest))).2 =
      '/' :: '/' :: '/' :: (body ++ rest) := by
    induction front with
    | nil => rw [List.nil_append, Trivia.readAll_of_read_eq_none rfl]
    | cons c front ih =>
      rw [List.forall_mem_cons] at hfront
      rw [List.cons_append, Trivia.readAll_of_read_eq_some (Trivia.read_blank hfront.1.1),
        ih hfront.2]
  have hinside : ∀ c ∈ body, (!Text.isLineBreak c) = true := fun c hc ↦ by simp [hbody c hc]
  have hstop : ∀ c ∈ rest.head?, (!Text.isLineBreak c) = false := fun c hc ↦ by simp [hend c hc]
  have hline : (body ++ rest).takeWhile (!Text.isLineBreak ·) = body :=
    Text.takeWhile_append_of_head? hinside hstop
  have hdrop : (body ++ rest).dropWhile (!Text.isLineBreak ·) = rest := by
    rw [List.dropWhile_append_of_pos hinside]
    cases rest with
    | nil => rfl
    | cons c rest => exact List.dropWhile_cons_of_neg (by simp [hend c rfl])
  rw [headTags_of_line hskip, hline, hdrop]

end Line

theorem filterMap_headLines_of_isPlainHead (h : IsPlainHead cs) :
    (headLines cs).filterMap lineReference? =
      (headTags cs).filterMap Directive.tagReference? := by
  induction h with
  | stop hline hnone =>
    rw [headLines_of_not_line fun line hstart ↦ hline ⟨line, hstart.symm⟩, hnone]
    rfl
  | line hfront hbody hend halone htag hrest ih =>
    rw [headLines_line hfront hbody halone, headTags_line hfront hbody hend,
      filterMap_cons_toList, filterMap_cons_toList, ih,
      Directive.lineReference?_slashes, Text.trimStart_trimEnd,
      Directive.searchReference?_of_isPlainTag htag]

/-- Both readings of what a set refers to give the same where the head of its file is written
plainly. -/
theorem references_eq_of_isPlainHead {file source : String} {S : DeclarationSet}
    (h : DeclarationSet.parse file source = .ok S) (hplain : IsPlainHead source.toList) :
    references source = S.references := by
  rw [references_eq, filterMap_headLines_of_isPlainHead hplain,
    DeclarationSet.references_of_parse h]

/-- A set with a line that is no tag in front of a reference with a second attribute. -/
def plainSource : String :=
  "/// <set id=\"a\" />\n\n/////\n  /// <reference path='b' set=\"base\" />\r\ntype A = b;\n"

theorem isPlainHead_plainSource : IsPlainHead plainSource.toList := by
  have hset : Directive.IsPlainTag (Text.trim " <set id=\"a\" />".toList) :=
    .other (by decide +kernel) (.inl (by decide +kernel))
  have hslashes : Directive.IsPlainTag (Text.trim "//".toList) :=
    .other (by decide +kernel) (.inl (by decide +kernel))
  have hblank : Text.IsBlank [' '] := by decide
  have hreference : Directive.IsPlainTag
      (Text.trim " <reference path='b' set=\"base\" />".toList) := by
    have htext : Text.trim " <reference path='b' set=\"base\" />".toList =
        "<reference".toList ++ (" path='b' ".toList ++ ("set=\"".toList ++
          ("base".toList ++ '"' :: ([' '] ++ ['/', '>'])))) := by
      decide +kernel
    have hpath : Directive.AttributesText [("path".toList, "b".toList)] " path='b' ".toList :=
      .cons hblank (.intro ((Directive.isKey_iff (by decide)).2 (by decide)) Text.isBlank_nil
        Text.isBlank_nil (by decide) (by decide)) (.nil hblank)
    rw [htext]
    exact .reference hpath ⟨' ', rfl, by decide⟩ (by decide) (by decide +kernel) (by decide)
      (.nil hblank) (.inl rfl)
  have htext : plainSource.toList = [] ++ '/' :: '/' :: '/' :: (" <set id=\"a\" />".toList ++
      ("\n\n".toList ++ '/' :: '/' :: '/' :: ("//".toList ++
        ("\n  ".toList ++ '/' :: '/' :: '/' :: (" <reference path='b' set=\"base\" />".toList ++
          "\r\ntype A = b;\n".toList))))) := by
    decide +kernel
  rw [htext]
  refine .line nofun (by simp [Text.isLineBreak]) (by simp [Text.isLineBreak]) (by decide +kernel)
    hset ?_
  refine .line (by simp [Trivia.isBlank, Text.isLineBreak]) (by simp [Text.isLineBreak])
    (by simp [Text.isLineBreak]) (by decide +kernel) hslashes ?_
  refine .line (by simp [Trivia.isBlank, Text.isLineBreak]) (by simp [Text.isLineBreak])
    (by simp [Text.isLineBreak]) (by decide +kernel) hreference ?_
  exact .stop (by decide +kernel) (by decide +kernel)

theorem references_eq_of_isPlainHead_indented :
    ∃ S, DeclarationSet.parse "a.d.ts" plainSource = .ok S ∧ IsPlainHead plainSource.toList ∧
      references plainSource = S.references := by
  obtain ⟨S, hS, -⟩ : ∃ S, DeclarationSet.parse "a.d.ts" plainSource = .ok S ∧ S.id = "a" :=
    exists_ok_iff.2 (by decide +kernel)
  exact ⟨S, hS, isPlainHead_plainSource, references_eq_of_isPlainHead hS isPlainHead_plainSource⟩

/-- A set with a tag that is no reference but starts like one, and with a reference between single
quotes. -/
def mistakenSource : String :=
  "/// <set id=\"a\" />\n/// <references set=\"x\" />\n/// <reference set='base' />\n"

/-- The search may find what is not referred to, and miss what is. -/
theorem not_references_eq :
    ¬∀ (file source : String) (S : DeclarationSet), DeclarationSet.parse file source = .ok S →
      references source = S.references := by
  intro hall
  obtain ⟨S, hS, hread⟩ : ∃ S, DeclarationSet.parse "a.d.ts" mistakenSource = .ok S ∧
      S.references = ["base"] :=
    exists_ok_iff.2 (by decide +kernel)
  have hsearched : references mistakenSource = ["x"] := by decide +kernel
  rw [← hall _ _ S hS, hsearched] at hread
  exact absurd hread (by decide)

end Catalog
end TypeSurface
