import TypeSurface.Proofs.Syntax.Piece

/-!
# Dotted names

A dotted name is cut into its segments at the dots, and its segments give it back.
-/

namespace TypeSurface

namespace Text

theorem splitOn_eq_splitOnP (p : Char → Bool) (cs : List Char) : splitOn p cs = cs.splitOnP p := by
  induction cs with
  | nil => simp [splitOn]
  | cons c cs ih =>
    rw [splitOn, List.splitOnP_cons_eq_if_modifyHead, ih]
    by_cases hc : p c = true
    · rw [if_pos hc, if_pos hc]
    · rw [if_neg hc, if_neg hc]
      cases hpieces : cs.splitOnP p with
      | nil => exact absurd hpieces (List.splitOnP_ne_nil _ _)
      | cons piece pieces => rfl

/-- The parts of a name between its dots. -/
def segments (name : String) : List String :=
  (splitOn (· == '.') name.toList).map String.ofList

/-- Whether a name is made of words with dots between them. -/
def isDotted (name : String) : Bool :=
  (segments name).all fun segment ↦ Lexeme.isWord segment.toList

theorem segments_ne_nil (name : String) : segments name ≠ [] := by
  unfold segments
  rw [splitOn_eq_splitOnP]
  exact fun h ↦ List.splitOnP_ne_nil _ _ (List.map_eq_nil_iff.1 h)

theorem intercalate_segments (name : String) : ".".intercalate (segments name) = name := by
  have hlist : ['.'].intercalate (splitOn (· == '.') name.toList) = name.toList := by
    rw [splitOn_eq_splitOnP]
    exact List.intercalate_splitOn '.'
  apply String.toList_inj.1
  rw [String.toList_intercalate, segments, List.map_map]
  simpa [Function.comp_def] using hlist

theorem segments_intercalate {words : List String} (hne : words ≠ [])
    (hwords : ∀ w ∈ words, Lexeme.isWord w.toList = true) :
    segments (".".intercalate words) = words := by
  have hdot : ∀ l ∈ words.map String.toList, '.' ∉ l := by
    intro l hl hmem
    obtain ⟨w, hw, rfl⟩ := List.mem_map.1 hl
    exact absurd (Lexeme.isIdentifierPart_of_mem_word (hwords w hw) hmem) (by decide)
  unfold segments
  rw [String.toList_intercalate, splitOn_eq_splitOnP]
  have hsplit : (['.'].intercalate (words.map String.toList)).splitOn '.' =
      words.map String.toList := List.splitOn_intercalate '.' hdot (by simpa using hne)
  unfold List.splitOn at hsplit
  have hchars : ".".toList = ['.'] := rfl
  rw [hchars, hsplit, List.map_map]
  simp [Function.comp_def]

theorem isDotted_intercalate {words : List String} (hne : words ≠ [])
    (hwords : ∀ w ∈ words, Lexeme.isWord w.toList = true) :
    isDotted (".".intercalate words) = true := by
  rw [isDotted, segments_intercalate hne hwords, List.all_eq_true]
  exact hwords

end Text

/-- The pieces of a list of words with dots between them. -/
def dotted (words : List String) : List Piece :=
  separated (.mark .dot) (words.map fun w ↦ [.word w])

theorem heads_dot {c : Char} {cs : List Char} (hc : CharClass.isIdentifierStart c = true) :
    (Piece.mark .dot).Heads ('.' :: c :: cs) (c :: cs) := by
  have hdot : c ≠ '.' := CharClass.ne_of_start hc (by decide)
  have hlexeme : Lexeme.read ('.' :: c :: cs) = ⟨.dot, [], ['.'], c :: cs, none⟩ := by
    unfold Lexeme.read
    split
    · next heq => cases heq
    · next heq => exact absurd (List.cons.inj heq).1 (by decide)
    · next heq => exact absurd (List.cons.inj (List.cons.inj heq).2).1 hdot
    · next heq => exact absurd (List.cons.inj heq).1 (by decide)
    · next heq =>
      obtain ⟨rfl, rfl⟩ := List.cons.inj heq
      rw [if_neg (by decide), if_neg, if_neg (by decide)]
      · rfl
      · simp [CharClass.not_isDigit_of_start hc]
  exact Piece.heads_of_read (by decide) rfl (Trivia.read_eq_none (by decide) (by decide)) hlexeme

/-- A word may stand in front of a dot. -/
theorem heads_word {w : String} {cs : List Char} (h : Lexeme.isWord w.toList = true)
    (hcs : ∀ c ∈ cs.head?, CharClass.isIdentifierPart c = false) :
    (Piece.word w).Heads (w.toList ++ cs) cs :=
  Piece.heads_of_read (by simp [Piece.word]) rfl (trivia_read_word cs h) (Lexeme.read_word h hcs)

theorem spells_dotted {words : List String}
    (hwords : ∀ w ∈ words, Lexeme.isWord w.toList = true) :
    Spells (".".intercalate words) (dotted words) := by
  match words with
  | [] => exact spells_empty
  | [w] => exact spells_word (hwords w (by simp))
  | w :: v :: words =>
    intro rest qs hrest hqs
    have htail : Spells (".".intercalate (v :: words)) (dotted (v :: words)) :=
      spells_dotted fun u hu ↦ hwords u (List.mem_cons_of_mem w hu)
    have hlexes := htail rest qs hrest hqs
    have hv := hwords v (by simp)
    obtain ⟨c, cs, hchars, hc⟩ : ∃ c cs, (".".intercalate (v :: words)).toList ++ rest = c :: cs ∧
        CharClass.isIdentifierStart c = true := by
      cases hchars : v.toList with
      | nil =>
        rw [hchars] at hv
        cases hv
      | cons c cs =>
        rw [hchars] at hv
        simp only [Lexeme.isWord, Bool.and_eq_true] at hv
        cases words with
        | nil => exact ⟨c, cs ++ rest, by simp [hchars], hv.1⟩
        | cons u words =>
          exact ⟨c, _, by simp [hchars, String.intercalate_cons_cons]; rfl, hv.1⟩
    have htext : (".".intercalate (w :: v :: words)).toList ++ rest =
        w.toList ++ '.' :: c :: cs := by
      rw [String.intercalate_cons_cons, String.toList_append, String.toList_append,
        List.append_assoc, List.append_assoc, hchars]
      rfl
    rw [htext]
    rw [hchars] at hlexes
    exact ⟨_, heads_word (hwords w (by simp)) (by simp; decide), _, heads_dot hc, hlexes⟩

theorem spells_dottedName {name : String} (h : Text.isDotted name = true) :
    Spells name (dotted (Text.segments name)) := by
  have hspells := spells_dotted fun w hw ↦ (List.all_eq_true.1 h) w hw
  rwa [Text.intercalate_segments] at hspells

end TypeSurface
