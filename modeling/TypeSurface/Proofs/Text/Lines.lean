import Mathlib.Data.List.DropRight
import TypeSurface.Proofs.Syntax.Placement
import TypeSurface.Text.LineMap

/-!
# Lines of a text

A text is its lines and the line breaks between them.  The main statement says that a line map holds
the place where each line starts, that it gives each line without its break, and that a position is
the same as an offset between two characters.
-/

namespace TypeSurface

namespace Text

/-- The ways in which a line ends. -/
def breaks : List (List Char) := [['\r', '\n'], ['\n'], ['\r']]

/-- The lines of a text: those that a break ends, each with its break, and the last one, which ends
with the text.  A carriage return in front of a line feed is no break by itself. -/
inductive Lines : List (List Char × List Char) → List Char → List Char → Prop
  | last {text : List Char} (htext : ∀ c ∈ text, isLineBreak c = false) : Lines [] text text
  | cons {text ending last rest : List Char} {ended : List (List Char × List Char)}
    (htext : ∀ c ∈ text, isLineBreak c = false) (hending : ending ∈ breaks)
    (halone : ending = ['\r'] → rest.head? ≠ some '\n') (hrest : Lines ended last rest) :
    Lines ((text, ending) :: ended) last (text ++ (ending ++ rest))

/-- The text of lines that are ended by breaks. -/
def joinLines (ended : List (List Char × List Char)) : List Char :=
  ended.flatMap fun (text, ending) ↦ text ++ ending

@[simp] theorem joinLines_nil : joinLines [] = [] := rfl

@[simp] theorem joinLines_cons (line : List Char × List Char)
    (ended : List (List Char × List Char)) :
    joinLines (line :: ended) = line.1 ++ line.2 ++ joinLines ended := rfl

@[simp] theorem joinLines_append (ended others : List (List Char × List Char)) :
    joinLines (ended ++ others) = joinLines ended ++ joinLines others :=
  List.flatMap_append

variable {ended : List (List Char × List Char)} {last source : List Char}

/-- Nothing is lost between the lines. -/
theorem Lines.source_eq (h : Lines ended last source) : source = joinLines ended ++ last := by
  induction h with
  | last => rfl
  | cons _ _ _ _ ih => simp [← ih]

theorem Lines.exists_rest {front back : List (List Char × List Char)}
    (h : Lines (front ++ back) last source) :
    ∃ rest, Lines back last rest ∧ source = joinLines front ++ rest := by
  induction front generalizing source with
  | nil => exact ⟨source, h, rfl⟩
  | cons line front ih =>
    cases h with
    | cons _ _ _ hrest =>
      obtain ⟨rest, hback, rfl⟩ := ih hrest
      exact ⟨rest, hback, by simp⟩

theorem Lines.push {c : Char} (hc : isLineBreak c = false) (h : Lines ended last source) :
    ∃ ended' last', Lines ended' last' (c :: source) := by
  cases h with
  | last htext => exact ⟨_, _, .last (List.forall_mem_cons.2 ⟨hc, htext⟩)⟩
  | cons htext hending halone hrest =>
    exact ⟨_, _, .cons (List.forall_mem_cons.2 ⟨hc, htext⟩) hending halone hrest⟩

theorem isLineBreak_of_mem_breaks {ending : List Char} (h : ending ∈ breaks) {c : Char}
    (hc : c ∈ ending) : isLineBreak c = true := by
  simp only [breaks, List.mem_cons, List.not_mem_nil, or_false] at h
  have hchar : c = '\n' ∨ c = '\r' := by
    rcases h with rfl | rfl | rfl <;> simp_all [or_comm]
  rcases hchar with rfl | rfl <;> rfl

/-- The break at the end of a line is all that is dropped. -/
theorem dropSuffixWhile_line {text ending : List Char} (htext : ∀ c ∈ text, isLineBreak c = false)
    (hending : ∀ c ∈ ending, isLineBreak c = true) :
    dropSuffixWhile isLineBreak (text ++ ending) = text := by
  have htext' : dropSuffixWhile isLineBreak text = text :=
    List.rdropWhile_eq_self_iff.2 fun hne ↦ by simp [htext _ (List.getLast_mem hne)]
  induction ending using List.reverseRecOn with
  | nil => rwa [List.append_nil]
  | append_singleton ending c ih =>
    rw [List.forall_mem_append] at hending
    rw [← List.append_assoc]
    exact (List.rdropWhile_concat_pos _ _ _ (hending.2 c (by simp))).trans (ih hending.1)

/-- Of two pieces at the front of a text the shorter one is at the front of the longer one. -/
theorem exists_append_of_byteLength_le {front back before after : List Char}
    (h : front ++ back = before ++ after) (hle : byteLength front ≤ byteLength before) :
    ∃ text, before = front ++ text := by
  rcases List.append_eq_append_iff.1 h with ⟨text, hbefore, -⟩ | ⟨text, hfront, -⟩
  · exact ⟨text, hbefore⟩
  · refine ⟨[], ?_⟩
    cases text with
    | nil => simpa using hfront.symm
    | cons c text =>
      rw [hfront, byteLength_append] at hle
      have := byteLength_pos_of_ne_nil (List.cons_ne_nil c text)
      omega

end Text

namespace LineMap

open Text

/-! ### Where lines start -/

theorem lineStarts_cons_of_not {c : Char} (hc : isLineBreak c = false) (pos : Nat)
    (cs : List Char) : lineStarts pos (c :: cs) = lineStarts (pos + c.utf8Size) cs := by
  rw [lineStarts, if_neg (by simp [hc])]
  rintro tail rfl -
  cases hc

theorem lineStarts_append {text : List Char} (htext : ∀ c ∈ text, isLineBreak c = false)
    (pos : Nat) (rest : List Char) :
    lineStarts pos (text ++ rest) = lineStarts (pos + byteLength text) rest := by
  induction text generalizing pos with
  | nil => rfl
  | cons c text ih =>
    rw [List.forall_mem_cons] at htext
    rw [List.cons_append, lineStarts_cons_of_not htext.1, ih htext.2, byteLength_cons,
      Nat.add_assoc]

theorem lineStarts_break {ending rest : List Char} (hending : ending ∈ breaks)
    (halone : ending = ['\r'] → rest.head? ≠ some '\n') (pos : Nat) :
    lineStarts pos (ending ++ rest) =
      (pos + byteLength ending) :: lineStarts (pos + byteLength ending) rest := by
  simp only [breaks, List.mem_cons, List.not_mem_nil, or_false] at hending
  rcases hending with rfl | rfl | rfl
  · rfl
  · rfl
  · rw [List.singleton_append, lineStarts, if_pos (by decide)]
    · rfl
    · rintro tail - rfl
      exact halone rfl rfl

/-- Every line but the first starts behind the break that ends the one before. -/
theorem lineStarts_eq {ended : List (List Char × List Char)} {last source : List Char}
    (h : Text.Lines ended last source) (pos : Nat) :
    lineStarts pos source = (List.range ended.length).map fun i ↦
      pos + byteLength (joinLines (ended.take (i + 1))) := by
  induction h generalizing pos with
  | last htext =>
    have hall := lineStarts_append htext pos []
    rwa [List.append_nil] at hall
  | cons htext hending halone _ ih =>
    rw [lineStarts_append htext, lineStarts_break hending halone, ih, List.length_cons,
      List.range_succ_eq_map, List.map_cons, List.map_map]
    simp [Function.comp_def, Nat.add_assoc]

theorem exists_lines (source : List Char) : ∃ ended last, Text.Lines ended last source := by
  -- `lineStarts` walks along a text break by break.
  fun_induction lineStarts 0 source with
  | case1 => exact ⟨_, _, .last nofun⟩
  | case2 pos cs ih =>
    obtain ⟨ended, last, hlines⟩ := ih
    exact ⟨([], ['\r', '\n']) :: ended, last,
      .cons (List.forall_mem_nil _) (List.mem_cons_self ..) (fun h ↦ by simp at h) hlines⟩
  | case3 pos c cs halone hbreak ih =>
    obtain ⟨ended, last, hlines⟩ := ih
    refine ⟨([], [c]) :: ended, last,
      .cons (List.forall_mem_nil _) ?_ (fun hc hhead ↦ ?_) hlines⟩
    · simp only [isLineBreak, Bool.or_eq_true, beq_iff_eq] at hbreak
      rcases hbreak with rfl | rfl <;> simp [breaks]
    · obtain ⟨tail, rfl⟩ := List.head?_eq_some_iff.1 hhead
      exact halone tail (List.cons.inj hc).1 rfl
  | case4 pos c cs _ hbreak ih =>
    obtain ⟨ended, last, hlines⟩ := ih
    exact hlines.push (by simpa using hbreak)

variable {ended : List (List Char × List Char)} {last source : List Char}

theorem starts_eq (h : Text.Lines ended last source) :
    (ofText source).starts =
      (List.range (ended.length + 1)).map fun i ↦ byteLength (joinLines (ended.take i)) := by
  rw [ofText, lineStarts_eq h, List.range_succ_eq_map, List.map_cons, List.map_map]
  simp [Function.comp_def]

theorem lineCount_eq (h : Text.Lines ended last source) :
    (ofText source).lineCount = ended.length + 1 := by
  rw [lineCount, starts_eq h, List.length_map, List.length_range]

theorem starts_getElem? (h : Text.Lines ended last source) {i : Nat} (hi : i ≤ ended.length) :
    (ofText source).starts[i]? = some (byteLength (joinLines (ended.take i))) := by
  rw [starts_eq h, List.getElem?_map, List.getElem?_range (Nat.lt_succ_of_le hi)]
  rfl

theorem starts_getElem?_eq_none (h : Text.Lines ended last source) {i : Nat}
    (hi : ended.length < i) :
    (ofText source).starts[i]? = none := by
  rw [List.getElem?_eq_none_iff]
  exact (lineCount_eq h).trans_le hi

/-! ### The text of a line -/

theorem lineText?_of_starts {front text ending : List Char} (rest : List Char) {m : LineMap}
    {i : Nat} (htext : ∀ c ∈ text, isLineBreak c = false)
    (hending : ∀ c ∈ ending, isLineBreak c = true)
    (hstart : m.starts[i]? = some (byteLength front))
    (hstop : (m.starts[i + 1]?).getD (byteLength (front ++ (text ++ (ending ++ rest)))) =
      byteLength (front ++ (text ++ ending))) :
    m.lineText? i (front ++ (text ++ (ending ++ rest))) = some text := by
  simp only [lineText?, hstart, Option.bind_eq_bind, Option.bind_some]
  rw [hstop, ← List.append_assoc text, slice?_append, Option.bind_some,
    dropSuffixWhile_line htext hending]
  rfl

theorem lineText?_ended {front back : List (List Char × List Char)} {line : List Char × List Char}
    (h : Text.Lines (front ++ line :: back) last source) :
    (ofText source).lineText? front.length source = some line.1 := by
  have hlength : front.length + 1 ≤ (front ++ line :: back).length := by simp
  have hstart := starts_getElem? h (Nat.le_of_succ_le hlength)
  have hstop := starts_getElem? h hlength
  rw [List.take_left] at hstart
  rw [List.take_length_add_append, List.take_one, List.head?_cons] at hstop
  obtain ⟨rest, hrest, rfl⟩ := h.exists_rest
  cases hrest with
  | cons htext hending =>
    refine lineText?_of_starts _ htext (fun c ↦ isLineBreak_of_mem_breaks hending) hstart ?_
    rw [hstop]
    simp

theorem lineText?_last (h : Text.Lines ended last source) :
    (ofText source).lineText? ended.length source = some last := by
  have hstart := starts_getElem? h le_rfl
  have hstop := starts_getElem?_eq_none h (Nat.lt_succ_self _)
  rw [List.take_length] at hstart
  rw [← List.append_nil ended] at h
  obtain ⟨rest, hrest, rfl⟩ := h.exists_rest
  cases hrest with
  | last htext =>
    have hnone : ∀ c ∈ ([] : List Char), isLineBreak c = true := nofun
    simpa using lineText?_of_starts [] htext hnone hstart (by simp [hstop])

/-- Each line is given without its break. -/
theorem lineText?_eq (h : Text.Lines ended last source) (i : Nat) :
    (ofText source).lineText? i source = (ended.map Prod.fst ++ [last])[i]? := by
  rcases lt_trichotomy i ended.length with hlt | rfl | hgt
  · have hsplit : ended = ended.take i ++ ended[i] :: ended.drop (i + 1) := by
      rw [← List.drop_eq_getElem_cons hlt, List.take_append_drop]
    have hline := lineText?_ended (hsplit ▸ h)
    rw [List.length_take_of_le hlt.le] at hline
    rw [hline, List.getElem?_append_left (by simpa using hlt)]
    simp [hlt]
  · rw [lineText?_last h]
    simp
  · have hnone : (ended.map Prod.fst ++ [last])[i]? = none :=
      List.getElem?_eq_none (by simpa using Nat.succ_le_of_lt hgt)
    rw [hnone, lineText?, starts_getElem?_eq_none h hgt]
    rfl

/-! ### Positions -/

/-- In the order of a list, what is at most `n` comes before what is more. -/
theorem exists_takeWhile_le {a n : Nat} {l : List Nat} (hsorted : (a :: l).Pairwise (· < ·))
    (ha : a ≤ n) :
    ∃ front b back, a :: l = front ++ b :: back ∧ b ≤ n ∧ (∀ c ∈ back, n < c) ∧
      ((a :: l).takeWhile (· ≤ n)).length = front.length + 1 := by
  induction l generalizing a with
  | nil => exact ⟨[], a, [], rfl, ha, nofun, by simp [ha]⟩
  | cons b l ih =>
    rw [List.pairwise_cons] at hsorted
    by_cases hb : b ≤ n
    · obtain ⟨front, c, back, hsplit, hc, hback, hlength⟩ := ih hsorted.2 hb
      refine ⟨a :: front, c, back, by simp [hsplit], hc, hback, ?_⟩
      rw [List.takeWhile_cons_of_pos (by simpa using ha), List.length_cons, hlength,
        List.length_cons]
    · refine ⟨[], a, b :: l, rfl, ha, List.forall_mem_cons.2 ⟨not_le.1 hb, fun c hc ↦ ?_⟩, ?_⟩
      · exact (not_le.1 hb).trans ((List.pairwise_cons.1 hsorted.2).1 c hc)
      · simp [ha, hb]

theorem pairwise_lineStarts (pos : Nat) (cs : List Char) :
    (pos :: lineStarts pos cs).Pairwise (· < ·) := by
  have hlower : ∀ {a b : Nat} {l : List Nat}, a < b → (b :: l).Pairwise (· < ·) →
      (a :: l).Pairwise (· < ·) := fun hab h ↦ by
    rw [List.pairwise_cons] at h ⊢
    exact ⟨fun c hc ↦ hab.trans (h.1 c hc), h.2⟩
  have hcons : ∀ {a b : Nat} {l : List Nat}, a < b → (b :: l).Pairwise (· < ·) →
      (a :: b :: l).Pairwise (· < ·) := fun hab h ↦
    .cons (List.forall_mem_cons.2 ⟨hab, (List.pairwise_cons.1 (hlower hab h)).1⟩) h
  fun_induction lineStarts pos cs with
  | case1 => exact List.pairwise_singleton _ _
  | case2 pos cs ih => exact hcons (Nat.lt_add_of_pos_right (by decide)) ih
  | case3 pos c cs _ _ ih => exact hcons (Nat.lt_add_of_pos_right c.utf8Size_pos) ih
  | case4 pos c cs _ _ ih => exact hlower (Nat.lt_add_of_pos_right c.utf8Size_pos) ih

theorem pairwise_starts (source : List Char) : (ofText source).starts.Pairwise (· < ·) :=
  pairwise_lineStarts 0 source

theorem exists_of_mem_starts {start : Nat} (h : start ∈ (ofText source).starts) :
    ∃ front back, source = front ++ back ∧ start = byteLength front := by
  obtain ⟨ended, last, hlines⟩ := exists_lines source
  rw [starts_eq hlines] at h
  obtain ⟨i, -, rfl⟩ := List.mem_map.1 h
  refine ⟨joinLines (ended.take i), joinLines (ended.drop i) ++ last, ?_, rfl⟩
  rw [hlines.source_eq, ← List.append_assoc, ← joinLines_append, List.take_append_drop]

/-- Among starts in their order, the search ends at the last one that is not behind the offset,
whether or not it finds the offset. -/
theorem lineAt_eq_length_takeWhile {m : LineMap} (hsorted : m.starts.Pairwise (· < ·))
    (offset : Nat) : m.lineAt offset = (m.starts.takeWhile (· ≤ offset)).length - 1 := by
  obtain ⟨starts⟩ := m
  unfold lineAt search
  dsimp only at hsorted ⊢
  have hsplit := (List.takeWhile_append_dropWhile (p := (· < offset)) (l := starts)).symm
  have hfront : ∀ s ∈ starts.takeWhile (· < offset), decide (s ≤ offset) = true := fun s hs ↦ by
    have hlt := List.mem_takeWhile_imp hs
    simp only [decide_eq_true_eq] at hlt ⊢
    exact hlt.le
  have hrest := List.head?_dropWhile_not (· < offset) starts
  generalize starts.takeWhile (· < offset) = front at hsplit hfront ⊢
  generalize starts.dropWhile (· < offset) = rest at hsplit hrest
  subst hsplit
  rw [List.takeWhile_append_of_pos hfront, List.getElem?_append_right le_rfl, Nat.sub_self]
  cases rest with
  | nil => simp
  | cons start rest =>
    have hle : offset ≤ start := by simpa using hrest
    rcases hle.lt_or_eq with hlt | rfl
    · simp [hlt.ne', hlt]
    · have hbehind : rest.takeWhile (· ≤ offset) = [] := by
        cases rest with
        | nil => rfl
        | cons next rest =>
          have hnext : offset < next :=
            (List.pairwise_cons.1 (List.pairwise_append.1 hsorted).2.1).1 next List.mem_cons_self
          simp [hnext]
      simp [hbehind]

/-- The line of an offset is the last one that starts there or before. -/
theorem exists_lineAt (source : List Char) (offset : Nat) :
    ∃ front start back, (ofText source).starts = front ++ start :: back ∧
      (ofText source).lineAt offset = front.length ∧ start ≤ offset ∧ ∀ s ∈ back, offset < s := by
  obtain ⟨front, start, back, hsplit, hstart, hback, hlength⟩ :=
    exists_takeWhile_le (pairwise_starts source) (Nat.zero_le offset)
  refine ⟨front, start, back, hsplit, ?_, hstart, hback⟩
  rw [lineAt_eq_length_takeWhile (pairwise_starts source), ofText, hlength,
    Nat.add_sub_cancel]

end LineMap

/-- Whether a position is that of an offset: its line is the last one that starts there or before, and
its column counts the characters from the start of the line up to the offset. -/
def Position.IsAt (p : Position) (source : List Char) (offset : Nat) : Prop :=
  ∃ start rest, (LineMap.ofText source).starts[p.line]? = some start ∧
    (∀ s ∈ (LineMap.ofText source).starts, s ≤ offset → s ≤ start) ∧
    Text.dropBytes? start source = some rest ∧ p.character ≤ rest.length ∧
    start + Text.byteLength (rest.take p.character) = offset

theorem Position.IsAt.offset_eq {p : Position} {source : List Char} {offset offset' : Nat}
    (h : p.IsAt source offset) (h' : p.IsAt source offset') : offset = offset' := by
  obtain ⟨start, rest, hstart, -, hrest, -, rfl⟩ := h
  obtain ⟨start', rest', hstart', -, hrest', -, rfl⟩ := h'
  cases hstart.symm.trans hstart'
  cases hrest.symm.trans hrest'
  rfl

namespace LineMap

open Text

/-- A position counts the characters between the start of its line and the offset. -/
theorem position_of_lineAt {line text after : List Char} {m : LineMap} {i : Nat}
    (hline : m.lineAt (byteLength (line ++ text)) = i)
    (hstart : m.starts[i]? = some (byteLength line)) :
    m.position (byteLength (line ++ text)) (line ++ (text ++ after)) = ⟨i, text.length⟩ := by
  have hle : byteLength line ≤ byteLength (line ++ text) := by simp
  have hstop : min (byteLength (line ++ text)) (byteLength (line ++ (text ++ after))) =
      byteLength (line ++ text) := by
    refine Nat.min_eq_left ?_
    rw [← List.append_assoc, byteLength_append _ after]
    exact Nat.le_add_right _ _
  simp only [position, hline, hstart, hstop, Option.getD_some, Nat.min_eq_left hle]
  rw [slice?_append]
  rfl

theorem position_isAt (before after : List Char) :
    ((ofText (before ++ after)).position (byteLength before) (before ++ after)).IsAt
      (before ++ after) (byteLength before) := by
  obtain ⟨front, start, back, hsplit, hline, hle, hback⟩ :=
    exists_lineAt (before ++ after) (byteLength before)
  obtain ⟨line, rest, hsource, rfl⟩ := exists_of_mem_starts (hsplit ▸ List.mem_append_cons_self)
  obtain ⟨text, rfl⟩ := exists_append_of_byteLength_le hsource.symm hle
  have hstart :
      (ofText (line ++ text ++ after)).starts[front.length]? = some (byteLength line) := by
    rw [hsplit, List.getElem?_append_right le_rfl, Nat.sub_self]
    rfl
  have hposition : (ofText (line ++ text ++ after)).position (byteLength (line ++ text))
      (line ++ text ++ after) = ⟨front.length, text.length⟩ := by
    rw [List.append_assoc] at hline hstart ⊢
    exact position_of_lineAt hline hstart
  have hdrop : dropBytes? (byteLength line) (line ++ text ++ after) = some (text ++ after) := by
    rw [List.append_assoc, dropBytes?_append]
  rw [hposition]
  refine ⟨byteLength line, text ++ after, hstart, fun s hs hsle ↦ ?_, hdrop, by simp, by simp⟩
  have hsorted := pairwise_starts (line ++ text ++ after)
  rw [hsplit] at hs hsorted
  rcases List.mem_append.1 hs with hfront | hs
  · exact ((List.pairwise_append.1 hsorted).2.2 s hfront _ (List.mem_cons_self ..)).le
  · rcases List.mem_cons.1 hs with rfl | hs
    · exact le_rfl
    · exact absurd hsle (not_le.2 (hback s hs))

/-- Behind a text all offsets have the position of its end. -/
theorem position_of_le {offset : Nat} (h : byteLength source ≤ offset) :
    (ofText source).position offset source =
      (ofText source).position (byteLength source) source := by
  have hall : ∀ n, byteLength source ≤ n →
      (ofText source).starts.takeWhile (· ≤ n) = (ofText source).starts := fun n hn ↦ by
    rw [List.takeWhile_eq_self_iff]
    intro s hs
    obtain ⟨front, back, rfl, rfl⟩ := exists_of_mem_starts hs
    rw [byteLength_append] at hn
    simpa using (Nat.le_add_right _ _).trans hn
  have hline : ∀ n, byteLength source ≤ n →
      (ofText source).lineAt n = (ofText source).starts.length - 1 := fun n hn ↦ by
    rw [lineAt_eq_length_takeWhile (pairwise_starts source), hall n hn]
  simp only [position, hline _ h, hline _ le_rfl, Nat.min_eq_right h, Nat.min_self]

theorem byteLength_break_pos {ending : List Char} (h : ending ∈ breaks) :
    0 < byteLength ending := by
  refine byteLength_pos_of_ne_nil ?_
  rintro rfl
  simp [breaks] at h

theorem length_ended_le (h : Text.Lines ended last source) : ended.length ≤ byteLength source := by
  induction h with
  | last => exact Nat.zero_le _
  | cons _ hending _ _ ih =>
    have := byteLength_break_pos hending
    rw [List.length_cons, byteLength_append, byteLength_append]
    omega

end LineMap

namespace Text

/-- Whether `line` is a line of a text without its break: the one with the number `i`, `start` bytes
into the text. -/
def IsLine (source : List Char) (i start : Nat) (line : List Char) : Prop :=
  ∃ ended last, Lines ended last source ∧ (ended.map Prod.fst ++ [last])[i]? = some line ∧
    byteLength (joinLines (ended.take i)) = start

namespace IsLine

open LineMap

variable {source line : List Char} {i start : Nat}

theorem lineText? (h : IsLine source i start line) :
    (ofText source).lineText? i source = some line := by
  obtain ⟨ended, last, hlines, hline, -⟩ := h
  rw [lineText?_eq hlines, hline]

/-- A line stands behind what is in front of it, and the next one starts behind its break. -/
theorem exists_append (h : IsLine source i start line) :
    ∃ front tail, source = front ++ (line ++ tail) ∧ byteLength front = start ∧
      (ofText source).starts[i]? = some start ∧
      ∀ next, (ofText source).starts[i + 1]? = some next → start + byteLength line < next := by
  obtain ⟨ended, last, hlines, hline, rfl⟩ := h
  have hi : i ≤ ended.length := by
    obtain ⟨hlt, -⟩ := List.getElem?_eq_some_iff.1 hline
    simpa [Nat.lt_succ_iff] using hlt
  have hstart := starts_getElem? hlines hi
  have hsplit := hlines
  rw [← List.take_append_drop i ended] at hsplit
  obtain ⟨rest, hrest, hsource⟩ := hsplit.exists_rest
  rcases hi.lt_or_eq with hlt | rfl
  · have hnext := starts_getElem? hlines hlt
    rw [List.getElem?_append_left (by simpa using hlt), List.getElem?_map,
      List.getElem?_eq_getElem hlt] at hline
    rw [List.drop_eq_getElem_cons hlt] at hrest
    rw [List.take_succ_eq_append_getElem hlt, joinLines_append] at hnext
    cases Option.some.inj hline
    generalize ended[i] = entry at hrest hnext
    cases hrest with
    | @cons text ending _ tail _ _ hending _ _ =>
      refine ⟨_, ending ++ tail, hsource, rfl, hstart, fun next hnext' ↦ ?_⟩
      cases hnext.symm.trans hnext'
      have hpos := byteLength_break_pos hending
      simp only [byteLength_append, joinLines_cons, joinLines_nil, byteLength_nil]
      omega
  · rw [List.getElem?_append_right (by simp)] at hline
    rw [List.drop_length] at hrest
    have hnone := starts_getElem?_eq_none hlines (Nat.lt_succ_self _)
    cases hrest with
    | last _ =>
      obtain rfl : last = line := by simpa using hline
      refine ⟨_, [], by simpa using hsource, rfl, hstart, fun next hnext ↦ ?_⟩
      rw [hnone] at hnext
      cases hnext

/-- The line of an offset is the one in whose text it lies. -/
theorem lineAt_eq {offset : Nat} (h : IsLine source i start line) (hstart : start ≤ offset)
    (hstop : offset < start + byteLength line) : (ofText source).lineAt offset = i := by
  obtain ⟨-, -, -, -, hi, hnext⟩ := h.exists_append
  obtain ⟨front, begins, back, hsplit, hlineAt, hle, hback⟩ := exists_lineAt source offset
  have hsorted := pairwise_starts source
  rw [hsplit] at hi hnext hsorted
  rw [hlineAt]
  rcases lt_trichotomy front.length i with hlt | heq | hgt
  · -- The line would start behind the offset.
    obtain ⟨k, rfl⟩ := Nat.exists_eq_add_of_lt hlt
    rw [List.getElem?_append_right (by omega)] at hi
    have hmem : start ∈ back := List.mem_of_getElem? (i := k) (by
      rwa [show front.length + k + 1 - front.length = k + 1 by omega] at hi)
    exact absurd hstart (not_le.2 (hback start hmem))
  · exact heq
  · -- The next line would start in front of the offset.
    have hlength : i + 1 < (front ++ begins :: back).length := by
      rw [List.length_append, List.length_cons]
      omega
    have hle' : (front ++ begins :: back)[i + 1] ≤ begins := by
      rcases (Nat.succ_le_of_lt hgt).lt_or_eq with hlt | heq
      · have := List.pairwise_iff_getElem.1 hsorted (i + 1) front.length hlength (by simp) hlt
        simpa using this.le
      · have hzero : i + 1 - front.length = 0 := by omega
        rw [List.getElem_append_right (le_of_eq heq.symm)]
        simp [hzero]
    have hbegins := hnext _ (List.getElem?_eq_getElem hlength)
    omega

theorem position_eq {before after : List Char} (h : IsLine source i start (before ++ after))
    (hafter : after ≠ []) :
    (ofText source).position (start + byteLength before) source = ⟨i, before.length⟩ := by
  have hpos := byteLength_pos_of_ne_nil hafter
  have hlineAt := h.lineAt_eq (Nat.le_add_right start (byteLength before))
    (by rw [byteLength_append]; omega)
  obtain ⟨front, tail, rfl, rfl, hi, -⟩ := h.exists_append
  rw [← byteLength_append] at hlineAt ⊢
  rw [List.append_assoc] at hlineAt hi ⊢
  exact position_of_lineAt hlineAt hi

end IsLine

end Text

namespace LineMap

open Text

/-- A line map says of a text where its lines start and what they hold, and which line and column an
offset has.  The offsets between two characters are the lengths of what stands in front of one.  No
number is greater than the length of the text, but that of the lines may be greater by one. -/
theorem line_map_is_exact (source : List Char) :
    (∃ ended last, Text.Lines ended last source ∧ source = joinLines ended ++ last ∧
      (ofText source).lineCount = ended.length + 1 ∧ ended.length ≤ byteLength source ∧
      (ofText source).starts =
        (List.range (ended.length + 1)).map (fun i ↦ byteLength (joinLines (ended.take i))) ∧
      ∀ i, (ofText source).lineText? i source = (ended.map Prod.fst ++ [last])[i]?) ∧
    (∀ k, ((ofText source).position (byteLength (source.take k)) source).IsAt source
      (byteLength (source.take k))) ∧
    (∀ k l, (ofText source).position (byteLength (source.take k)) source =
        (ofText source).position (byteLength (source.take l)) source ↔
      byteLength (source.take k) = byteLength (source.take l)) ∧
    ∀ n, (ofText source).position (byteLength source + n) source =
      (ofText source).position (byteLength source) source := by
  have hat : ∀ k, ((ofText source).position (byteLength (source.take k)) source).IsAt source
      (byteLength (source.take k)) := fun k ↦ by
    simpa only [List.take_append_drop] using position_isAt (source.take k) (source.drop k)
  obtain ⟨ended, last, hlines⟩ := exists_lines source
  refine ⟨⟨ended, last, hlines, hlines.source_eq, lineCount_eq hlines, length_ended_le hlines,
    starts_eq hlines, lineText?_eq hlines⟩, hat, fun k l ↦ ⟨fun h ↦ ?_, fun h ↦ by rw [h]⟩,
    fun n ↦ position_of_le (Nat.le_add_right _ _)⟩
  exact (h ▸ hat k).offset_eq (hat l)

example : (ofText "a\r\r\n\nb".toList).starts = [0, 2, 4, 5] := by
  decide

end LineMap
end TypeSurface
