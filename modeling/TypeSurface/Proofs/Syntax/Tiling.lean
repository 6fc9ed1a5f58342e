import Mathlib.Logic.Function.Iterate
import TypeSurface.Proofs.Syntax.Piece

/-!
# Tiles

The tokens of a text and what stands between them give the text back, piece by piece: nothing is
skipped but trivia, and nothing is read twice.
-/

namespace TypeSurface

namespace Text

variable {pattern cs before rest : List Char}

theorem not_infix_of_splitAt?_eq_none (h : splitAt? pattern cs = none) : ¬pattern <:+: cs := by
  rintro ⟨front, back, rfl⟩
  induction front with
  | nil =>
    have hfound : dropPrefix? pattern (pattern ++ back) = some back := dropPrefix?_eq_some_iff.2 rfl
    rw [List.nil_append] at h
    cases hsource : pattern ++ back with
    | nil =>
      rw [hsource] at h hfound
      simp [splitAt?, hfound] at h
    | cons c cs =>
      rw [hsource] at h hfound
      simp [splitAt?, hfound] at h
  | cons c front ih =>
    refine ih ?_
    simp only [List.cons_append, splitAt?] at h
    split at h
    · cases h
    · simpa using h

/-- What is split off ends where the pattern comes first. -/
theorem first_of_splitAt? (h : splitAt? pattern cs = some (before, rest)) {front back : List Char}
    (hcs : cs = front ++ (pattern ++ back)) : before.length ≤ front.length := by
  induction cs generalizing before front with
  | nil =>
    simp only [splitAt?, Option.map_eq_some_iff, Prod.mk.injEq] at h
    obtain ⟨tail, -, rfl, -⟩ := h
    exact Nat.zero_le _
  | cons c cs ih =>
    simp only [splitAt?] at h
    split at h
    · simp only [Option.some.injEq, Prod.mk.injEq] at h
      rw [← h.1]
      exact Nat.zero_le _
    · next hnone =>
      simp only [Option.map_eq_some_iff, Prod.mk.injEq, Prod.exists] at h
      obtain ⟨before, tail, found, rfl, rfl⟩ := h
      cases front with
      | nil =>
        rw [List.nil_append] at hcs
        rw [hcs, dropPrefix?_eq_some_iff.2 rfl] at hnone
        cases hnone
      | cons d front => exact Nat.succ_le_succ (ih found (List.cons.inj hcs).2)

theorem byteLength_eq_utf8ByteSize (cs : List Char) :
    byteLength cs = (String.ofList cs).utf8ByteSize := by
  induction cs with
  | nil => rfl
  | cons c cs ih => simp [String.ofList_cons, ih]

/-- A prefix of a text ends between two characters. -/
theorem isValid_of_append {source : String} (rest : List Char) (h : source.toList = before ++ rest) :
    String.Pos.Raw.IsValid source ⟨byteLength before⟩ := by
  rw [String.Pos.Raw.isValid_iff_exists_append]
  refine ⟨.ofList before, .ofList rest, ?_, ?_⟩
  · rw [← String.ofList_append, ← h, String.ofList_toList]
  · rw [byteLength_eq_utf8ByteSize]
    rfl

end Text

namespace Trivia

/-- The mark that a comment ends at. -/
def closing : List Char := ['*', '/']

/-- Whether pieces of trivia can stand side by side in front of a text. -/
inductive Fills (after : List Char) : List Trivia → Prop
  | nil : Fills after []
  | blank {c : Char} {ts : List Trivia}
    (hc : c ∈ [' ', '\t', '\x0b', '\x0c', '\r', '\n', '\ufeff']) (hts : Fills after ts) :
    Fills after (.blank c :: ts)
  | lineComment {body : List Char} {ts : List Trivia}
    (hbody : ∀ c ∈ body, Text.isLineBreak c = false) (hdirective : body.head? ≠ some '/')
    (hend : ∀ c ∈ (ts.flatMap text ++ after).head?, Text.isLineBreak c = true)
    (hts : Fills after ts) : Fills after (.lineComment body :: ts)
  | blockComment {body : List Char} {ts : List Trivia}
    (hbody : ∀ front back, body ++ closing = front ++ (closing ++ back) → back = [])
    (hts : Fills after ts) : Fills after (.blockComment body :: ts)
  | openComment {body : List Char} (hbody : ¬closing <:+: body) (hafter : after = []) :
    Fills after [.openComment body]

theorem mem_of_isBlank {c : Char} (h : isBlank c = true) :
    c ∈ [' ', '\t', '\x0b', '\x0c', '\r', '\n', '\ufeff'] := by
  simp only [isBlank, Text.isLineBreak, Bool.or_eq_true, beq_iff_eq] at h
  simp only [List.mem_cons, List.not_mem_nil, or_false]
  grind

theorem fills_readAll (cs : List Char) : Fills (readAll cs).2 (readAll cs).1 := by
  fun_induction readAll cs with
  | case1 => exact .nil
  | case2 cs t rest h ts after hafter ih =>
    have hsplit := flatMap_text_append_readAll rest
    rw [hafter] at ih hsplit
    unfold read at h
    split at h
    · cases h
    · cases h
    · next cs hdirective =>
      cases h
      refine .lineComment (fun c hc ↦ ?_) (fun hhead ↦ ?_) (fun c hc ↦ ?_) ih
      · simpa using List.mem_takeWhile_imp hc
      · obtain ⟨tail, htail⟩ := List.head?_eq_some_iff.1 hhead
        have hcs := List.takeWhile_append_dropWhile (p := (!Text.isLineBreak ·)) (l := cs)
        rw [htail, List.cons_append] at hcs
        exact hdirective _ hcs.symm
      · rw [hsplit] at hc
        have hstop := List.head?_dropWhile_not (!Text.isLineBreak ·) cs
        rw [Option.mem_def.1 hc] at hstop
        simpa using hstop
    · next cs =>
      split at h
      · next body rest hfound =>
        cases h
        refine .blockComment (fun front back hclosed ↦ ?_) ih
        have hsource : cs = front ++ (closing ++ (back ++ rest)) := by
          rw [Text.eq_append_of_splitAt? hfound]
          simpa [closing] using congrArg (· ++ rest) hclosed
        have hfirst := Text.first_of_splitAt? hfound hsource
        have hlength := congrArg List.length hclosed
        simp only [List.length_append, closing] at hlength
        exact List.length_eq_zero_iff.1 (by omega)
      · next hopen =>
        cases h
        rw [readAll_of_read_eq_none rfl] at hafter
        cases hafter
        exact .openComment (Text.not_infix_of_splitAt?_eq_none hopen) rfl
    · split at h
      · next hblank =>
        cases h
        exact .blank (mem_of_isBlank hblank) ih
      · cases h

end Trivia

namespace Lexeme

theorem text_append_rest_ofStringBody (quote : Char) (cs : List Char) :
    (ofStringBody quote cs).text ++ (ofStringBody quote cs).rest = cs := by
  fun_induction ofStringBody quote cs with
  | case3 c cs tail ih => exact congrArg (fun l ↦ '\\' :: c :: l) ih
  | case6 c cs _ _ _ _ tail ih => exact congrArg (c :: ·) ih
  | _ => rfl

theorem text_append_rest_ofText (kind : TokenKind) {text cs : List Char} (h : text <+: cs) :
    (ofText kind text cs).text ++ (ofText kind text cs).rest = cs :=
  List.prefix_iff_eq_append.1 h

theorem text_append_rest (cs : List Char) : (read cs).text ++ (read cs).rest = cs := by
  unfold read
  split
  · rfl
  · exact congrArg (fun l ↦ '/' :: '/' :: '/' :: l) List.takeWhile_append_dropWhile
  · rfl
  · rfl
  · next c cs _ _ _ =>
    split
    · exact congrArg (c :: ·) (text_append_rest_ofStringBody c cs)
    split
    · exact text_append_rest_ofText _ (numberText_isPrefix _)
    split
    · exact text_append_rest_ofText _ ((List.prefix_cons_inj c).2 (List.takeWhile_prefix _))
    · unfold ofSymbol
      split <;> rfl

theorem text_eq_nil_iff {cs : List Char} : (read cs).text = [] ↔ (read cs).kind = .endOfFile := by
  constructor
  · intro htext
    by_cases hcs : cs = []
    · rw [hcs]
      rfl
    · have hsplit := text_append_rest cs
      have hshorter := (isFront_read cs).shorter hcs
      rw [htext, List.nil_append] at hsplit
      rw [hsplit] at hshorter
      exact absurd hshorter (Nat.lt_irrefl _)
  · intro hkind
    rw [(isFront_read cs).ending hkind]
    rfl

end Lexeme

/-- A token with the trivia in front of it and the text that it takes. -/
structure Tile where
  gap : List Trivia
  text : List Char
  token : Token

namespace Tile

/-- The text in front of the token. -/
def gapText (t : Tile) : List Char := t.gap.flatMap Trivia.text

def whole (t : Tile) : List Char := t.gapText ++ t.text

/-- Whether a tile stands `offset` bytes into a text, in front of `after`. -/
structure Stands (offset : Nat) (after : List Char) (t : Tile) : Prop where
  fills : Trivia.Fills (t.text ++ after) t.gap
  start : t.token.span.start = offset + Text.byteLength t.gapText
  stop : t.token.span.stop = t.token.span.start + Text.byteLength t.text
  text : t.text = [] ↔ t.token.kind = .endOfFile
  afterLineBreak : t.token.afterLineBreak = true ↔
    ∃ u ∈ t.gap, (∀ body, u ≠ .openComment body) ∧ ∃ c ∈ u.text, c = '\n' ∨ c = '\r'

/-- Tiles that stand one behind the other do not overlap. -/
theorem pairwise_of_stands {tiles : List Tile} (offset : Nat)
    (h : ∀ before t after, tiles = before ++ t :: after →
      t.Stands (offset + Text.byteLength (before.flatMap whole)) (after.flatMap whole)) :
    tiles.Pairwise fun t u ↦ t.token.span.stop ≤ u.token.span.start := by
  induction tiles generalizing offset with
  | nil => exact .nil
  | cons t ts ih =>
    refine List.pairwise_cons.2 ⟨fun u hu ↦ ?_,
      ih (offset + Text.byteLength t.whole) fun before u after hsplit ↦ ?_⟩
    · obtain ⟨before, after, rfl⟩ := List.append_of_mem hu
      have ht := h [] t _ rfl
      have hu := h (t :: before) u after rfl
      rw [ht.stop, ht.start, hu.start, List.flatMap_cons, Text.byteLength_append, whole,
        Text.byteLength_append, List.flatMap_nil, Text.byteLength_nil]
      omega
    · have hu := h (t :: before) u after (by rw [hsplit]; rfl)
      rwa [List.flatMap_cons, Text.byteLength_append, ← Nat.add_assoc] at hu

end Tile

namespace Trivia

variable {ts : List Trivia} {after : List Char} {u : Trivia}

theorem Fills.not_isLineBreak {body : List Char} (h : Fills after ts)
    (hu : .lineComment body ∈ ts) : ∀ c ∈ body, Text.isLineBreak c = false := by
  induction h with
  | nil => cases hu
  | blank _ _ ih => exact ih ((List.mem_cons.1 hu).resolve_left nofun)
  | lineComment hbody _ _ _ ih =>
    rcases List.mem_cons.1 hu with heq | hu
    · obtain rfl := lineComment.inj heq
      exact hbody
    · exact ih hu
  | blockComment _ _ ih => exact ih ((List.mem_cons.1 hu).resolve_left nofun)
  | openComment _ _ => cases List.mem_singleton.1 hu

theorem hasLineBreak_iff (h : Fills after ts) (hu : u ∈ ts) : u.hasLineBreak = true ↔
    (∀ body, u ≠ .openComment body) ∧ ∃ c ∈ u.text, c = '\n' ∨ c = '\r' := by
  cases u with
  | blank c => simp [hasLineBreak, text, Text.isLineBreak]
  | lineComment body =>
    have hbody := h.not_isLineBreak hu
    simp only [Text.isLineBreak, Bool.or_eq_false_iff, beq_eq_false_iff_ne] at hbody
    simp only [hasLineBreak, text]
    grind
  | blockComment body =>
    simp only [hasLineBreak, text]
    grind [Text.isLineBreak]
  | openComment body => simp [hasLineBreak]

end Trivia

namespace Scanner

variable {s : Scanner}

/-- The tile that a scanner comes to next. -/
def tile (s : Scanner) : Tile :=
  ⟨(Trivia.readAll s.ahead).1, (Lexeme.read (Trivia.readAll s.ahead).2).text, s.scan.token⟩

theorem whole_tile_append (s : Scanner) : s.tile.whole ++ s.scan.ahead = s.ahead := by
  have hlexeme := Lexeme.text_append_rest (Trivia.readAll s.ahead).2
  have htrivia := Trivia.flatMap_text_append_readAll s.ahead
  rw [← hlexeme, ← List.append_assoc] at htrivia
  exact htrivia

theorem stands_tile (s : Scanner) : s.tile.Stands s.token.span.stop s.scan.ahead where
  fills := by
    have hfills := Trivia.fills_readAll s.ahead
    rwa [← Lexeme.text_append_rest (Trivia.readAll s.ahead).2] at hfills
  start := rfl
  stop := rfl
  text := Lexeme.text_eq_nil_iff
  afterLineBreak := by
    change ((Trivia.readAll s.ahead).1.any Trivia.hasLineBreak) = true ↔ _
    rw [List.any_eq_true]
    exact exists_congr fun u ↦ and_congr_right fun hu ↦
      Trivia.hasLineBreak_iff (Trivia.fills_readAll s.ahead) hu

theorem stop_scan (s : Scanner) :
    s.scan.token.span.stop = s.token.span.stop + Text.byteLength s.tile.whole := by
  rw [Tile.whole, Text.byteLength_append, ← Nat.add_assoc]
  rfl

theorem ahead_scan_of_endOfFile (h : s.scan.token.kind = .endOfFile) : s.scan.ahead = [] := by
  have hnil : (Trivia.readAll s.ahead).2 = [] := (Lexeme.isFront_read _).ending h
  change (Lexeme.read (Trivia.readAll s.ahead).2).rest = []
  rw [hnil]
  rfl

/-- From any token but the last, a scanner comes to the end of the text, and what it reads on the
way is the text. -/
theorem exists_tiles (s : Scanner) (h : s.token.kind ≠ .endOfFile) :
    ∃ tiles last, (∀ t ∈ tiles, t.token.kind ≠ .endOfFile) ∧ last.token.kind = .endOfFile ∧
      (∀ i t, (tiles ++ [last])[i]? = some t → (scan^[i + 1] s).token = t.token) ∧
      (tiles ++ [last]).flatMap Tile.whole = s.ahead ∧
      ∀ before t after, tiles ++ [last] = before ++ t :: after →
        t.Stands (s.token.span.stop + Text.byteLength (before.flatMap Tile.whole))
          (after.flatMap Tile.whole) := by
  induction hn : s.remaining using Nat.strong_induction_on generalizing s with
  | _ n ih =>
    by_cases hend : s.scan.token.kind = .endOfFile
    · have hahead := ahead_scan_of_endOfFile hend
      have hwhole := whole_tile_append s
      rw [hahead, List.append_nil] at hwhole
      refine ⟨[], s.tile, nofun, hend, fun i t ht ↦ ?_, by simpa using hwhole,
        fun before t after hsplit ↦ ?_⟩
      · cases i with
        | zero =>
          cases ht
          rfl
        | succ i => cases ht
      · cases before with
        | nil =>
          obtain ⟨rfl, rfl⟩ := List.cons.inj hsplit
          have hstands := stands_tile s
          rwa [hahead] at hstands
        | cons u before => simp at hsplit
    · obtain ⟨tiles, last, htiles, hlast, htokens, hwhole, hstands⟩ :=
        ih _ (hn ▸ remaining_scan_lt h) s.scan hend rfl
      refine ⟨s.tile :: tiles, last, List.forall_mem_cons.2 ⟨hend, htiles⟩, hlast,
        fun i t ht ↦ ?_, ?_, fun before t after hsplit ↦ ?_⟩
      · cases i with
        | zero =>
          cases ht
          rfl
        | succ i => exact htokens i t ht
      · rw [List.cons_append, List.flatMap_cons, hwhole]
        exact whole_tile_append s
      · cases before with
        | nil =>
          obtain ⟨rfl, hafter⟩ := List.cons.inj hsplit
          have hafter : tiles ++ [last] = after := hafter
          rw [← hafter, hwhole]
          exact stands_tile s
        | cons u before =>
          obtain ⟨rfl, htail⟩ := List.cons.inj hsplit
          have hbehind := hstands before t after htail
          rw [stop_scan, Nat.add_assoc, ← Text.byteLength_append, ← List.flatMap_cons] at hbehind
          exact hbehind

/-- A scanner comes to the end of every text.  The tokens on the way and the trivia between them give
the text back: each token but the last takes something, starts and ends between two characters, and
follows a line break just if one stands in the trivia before it. -/
theorem tokens_tile_source (file source : String) :
    ∃ tiles last,
      (∀ i t, (tiles ++ [last])[i]? = some t →
        (scan^[i + 1] (.ofSource file source)).token = t.token) ∧
      last.token.kind = .endOfFile ∧
      (∀ t ∈ tiles, t.token.kind ≠ .endOfFile ∧ t.token.span.start < t.token.span.stop) ∧
      (tiles ++ [last]).flatMap Tile.whole = source.toList ∧
      (∀ before t after, tiles ++ [last] = before ++ t :: after →
        t.Stands (Text.byteLength (before.flatMap Tile.whole)) (after.flatMap Tile.whole)) ∧
      (∀ t ∈ tiles ++ [last], String.Pos.Raw.IsValid source ⟨t.token.span.start⟩ ∧
        String.Pos.Raw.IsValid source ⟨t.token.span.stop⟩) ∧
      (tiles ++ [last]).Pairwise fun t u ↦ t.token.span.stop ≤ u.token.span.start := by
  obtain ⟨tiles, last, htiles, hlast, htokens, hwhole, hstands⟩ :=
    exists_tiles (.ofSource file source) nofun
  have hstands : ∀ before t after, tiles ++ [last] = before ++ t :: after →
      t.Stands (Text.byteLength (before.flatMap Tile.whole)) (after.flatMap Tile.whole) := by
    intro before t after hsplit
    simpa [ofSource, Token.start] using hstands before t after hsplit
  refine ⟨tiles, last, htokens, hlast, fun t ht ↦ ⟨htiles t ht, ?_⟩, hwhole, hstands,
    fun t ht ↦ ?_, ?_⟩
  · obtain ⟨before, after, hsplit⟩ := List.append_of_mem (List.mem_append_left [last] ht)
    have hstand := hstands before t after hsplit
    rw [hstand.stop]
    exact Nat.lt_add_of_pos_right
      (Text.byteLength_pos_of_ne_nil (mt hstand.text.1 (htiles t ht)))
  · obtain ⟨before, after, hsplit⟩ := List.append_of_mem ht
    have hstand := hstands before t after hsplit
    have hwhole : (tiles ++ [last]).flatMap Tile.whole = source.toList := hwhole
    rw [hsplit, List.flatMap_append, List.flatMap_cons, Tile.whole] at hwhole
    have hstart : t.token.span.start =
        Text.byteLength (before.flatMap Tile.whole ++ t.gapText) := by
      rw [hstand.start, Text.byteLength_append]
    have hstop : t.token.span.stop =
        Text.byteLength (before.flatMap Tile.whole ++ t.gapText ++ t.text) := by
      rw [hstand.stop, hstart, Text.byteLength_append _ t.text]
    rw [hstart, hstop]
    exact ⟨Text.isValid_of_append (t.text ++ after.flatMap Tile.whole)
        (by rw [← hwhole]; simp only [List.append_assoc]),
      Text.isValid_of_append (after.flatMap Tile.whole)
        (by rw [← hwhole]; simp only [List.append_assoc])⟩
  · exact Tile.pairwise_of_stands 0 fun before t after hsplit ↦
      (Nat.zero_add _).symm ▸ hstands before t after hsplit

end Scanner
end TypeSurface
