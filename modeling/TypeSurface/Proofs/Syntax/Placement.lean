import TypeSurface.Proofs.Syntax.Tiling

/-!
# Places in a source

Whatever a scanner reports has its place: each token and each defect takes a part of the source that
starts and ends between two characters, and the defects follow one another.
-/

namespace TypeSurface

namespace Text

/-- A text with a first character: how far is to go, and what is left behind the character. -/
theorem exists_byteLength_cons (c : Char) (cs : List Char) :
    ∃ n, byteLength (c :: cs) = n + 1 ∧ c.utf8Size ≤ n + 1 ∧ n + 1 - c.utf8Size = byteLength cs := by
  obtain ⟨n, hn⟩ := Nat.exists_eq_add_of_lt c.utf8Size_pos
  exact ⟨n + byteLength cs, by rw [byteLength_cons]; omega, by omega, by omega⟩

theorem dropBytes?_append (before rest : List Char) :
    dropBytes? (byteLength before) (before ++ rest) = some rest := by
  induction before with
  | nil => rw [byteLength_nil, dropBytes?.eq_1, List.nil_append]
  | cons c cs ih =>
    obtain ⟨n, hlength, hle, hrest⟩ := exists_byteLength_cons c cs
    rw [hlength, List.cons_append, dropBytes?, if_pos hle, hrest, ih]

theorem takeBytes?_append (text rest : List Char) :
    takeBytes? (byteLength text) (text ++ rest) = some text := by
  induction text with
  | nil => rw [byteLength_nil, takeBytes?.eq_1]
  | cons c cs ih =>
    obtain ⟨n, hlength, hle, hrest⟩ := exists_byteLength_cons c cs
    rw [hlength, List.cons_append, takeBytes?, if_pos hle, hrest, ih, Option.map_some]

/-- A piece of a text is cut out at its two ends. -/
theorem slice?_append (before text rest : List Char) :
    slice? (byteLength before) (byteLength (before ++ text)) (before ++ (text ++ rest)) =
      some text := by
  have hle : byteLength before ≤ byteLength (before ++ text) := by
    rw [byteLength_append]
    exact Nat.le_add_right _ _
  have hlength : byteLength (before ++ text) - byteLength before = byteLength text := by
    rw [byteLength_append]
    exact Nat.add_sub_cancel_left _ _
  rw [slice?, if_pos hle, dropBytes?_append, Option.bind_some, hlength, takeBytes?_append]

end Text

theorem Lexeme.text_eq_value {cs : List Char} (h : (read cs).kind = .identifier) :
    (read cs).text = (read cs).value := by
  revert h
  unfold read
  split
  · exact nofun
  · exact nofun
  · exact nofun
  · exact nofun
  · next c cs _ _ _ =>
    split
    · intro h
      cases (kind_ofStringBody c cs).symm.trans h
    split
    · exact fun _ ↦ rfl
    split
    · exact fun _ ↦ rfl
    · unfold ofSymbol
      split
      · next kind hkind =>
        intro h
        exact absurd h (ofPunctuation?_ne hkind).1
      · exact nofun

/-- Whether a span lies in a source, with both ends between two characters. -/
structure Span.LiesIn (source : String) (s : Span) : Prop where
  start : String.Pos.Raw.IsValid source ⟨s.start⟩
  stop : String.Pos.Raw.IsValid source ⟨s.stop⟩
  le : s.start ≤ s.stop

theorem Span.liesIn_of_append {source : String} {before text rest : List Char}
    (h : source.toList = before ++ (text ++ rest)) :
    Span.LiesIn source ⟨Text.byteLength before, Text.byteLength (before ++ text)⟩ where
  start := Text.isValid_of_append (text ++ rest) h
  stop := Text.isValid_of_append rest (h.trans (List.append_assoc _ _ _).symm)
  le := by
    rw [Text.byteLength_append]
    exact Nat.le_add_right _ _

/-- What a diagnostic is about. -/
def Diagnostic.span (d : Diagnostic) : Span := ⟨d.start, d.start + d.length⟩

theorem Diagnostic.span_atSpan {span : Span} (rule : Rule) (args : List String) (file : String)
    (h : span.start ≤ span.stop) : (Diagnostic.atSpan rule args file span).span = span := by
  have hstop : span.start + span.length = span.stop := Nat.add_sub_cancel' h
  exact congrArg (Span.mk span.start) hstop

/-- Whether spans of a source run one behind the other from one offset to another. -/
structure Span.RunIn (source : String) (start stop : Nat) (spans : List Span) : Prop where
  lies : ∀ span ∈ spans, span.LiesIn source ∧ start ≤ span.start ∧ span.stop ≤ stop
  order : spans.Pairwise fun a b ↦ a.stop ≤ b.start

namespace Span.RunIn

variable {source : String} {start stop start' stop' : Nat} {spans : List Span} {span : Span}

theorem nil : RunIn source start stop [] := ⟨nofun, .nil⟩

theorem widen (h : RunIn source start stop spans) (hstart : start' ≤ start) (hstop : stop ≤ stop') :
    RunIn source start' stop' spans := by
  refine ⟨fun span hspan ↦ ?_, h.order⟩
  obtain ⟨hlies, hle, hle'⟩ := h.lies span hspan
  exact ⟨hlies, hstart.trans hle, hle'.trans hstop⟩

theorem concat (h : RunIn source start stop spans) (hspan : span.LiesIn source)
    (hstart : start ≤ span.start) (hstop : stop ≤ span.start) :
    RunIn source start span.stop (spans ++ [span]) := by
  have hbefore := h.widen (Nat.le_refl _) (hstop.trans hspan.le)
  refine ⟨fun a ha ↦ ?_, ?_⟩
  · rcases List.mem_append.1 ha with ha | ha
    · exact hbefore.lies a ha
    · obtain rfl := List.mem_singleton.1 ha
      exact ⟨hspan, hstart, Nat.le_refl _⟩
  · refine List.pairwise_append.2 ⟨h.order, List.pairwise_singleton _ _, fun a ha b hb ↦ ?_⟩
    obtain rfl := List.mem_singleton.1 hb
    exact (h.lies a ha).2.2.trans hstop

end Span.RunIn

namespace Scanner

variable {source : String} {s : Scanner}

theorem stop_le_start_scan (s : Scanner) : s.token.span.stop ≤ s.scan.token.span.start :=
  Nat.le_add_right _ _

theorem start_le_stop_scan (s : Scanner) : s.scan.token.span.start ≤ s.scan.token.span.stop :=
  Nat.le_add_right _ _

/-- Tokens further on start behind the current one. -/
theorem stop_le_start_iterate (s : Scanner) (n : Nat) :
    s.token.span.stop ≤ (Scanner.scan^[n + 1] s).token.span.start := by
  induction n generalizing s with
  | zero => exact s.stop_le_start_scan
  | succ n ih => exact s.stop_le_start_scan.trans (s.start_le_stop_scan.trans (ih s.scan))

/-- Whether a scanner stands in a source: what is ahead is the rest of it, and what has been reported
lies in front of that, one behind the other. -/
structure StandsIn (source : String) (s : Scanner) : Prop where
  ahead : ∃ before, source.toList = before ++ s.ahead ∧
    Text.byteLength before = s.token.span.stop
  token : s.token.span.LiesIn source
  word : s.token.kind = .identifier → s.token.span.start < s.token.span.stop ∧
    Text.slice? s.token.span.start s.token.span.stop source.toList = some s.token.value.toList
  problems : ∀ d ∈ s.problems,
    d.span.LiesIn source ∧ 0 < d.length ∧ d.span.stop ≤ s.token.span.stop
  order : s.problems.Pairwise fun d e ↦ d.span.stop ≤ e.span.start

theorem standsIn_ofSource (file source : String) : (ofSource file source).StandsIn source := by
  have hsource : source.toList = [] ++ ([] ++ source.toList) := rfl
  have hempty : Span.LiesIn source ⟨0, 0⟩ := Span.liesIn_of_append hsource
  exact ⟨⟨[], rfl, rfl⟩, hempty, nofun, nofun, .nil⟩

/-- A comment without an end is reported at its opening. -/
theorem span_of_mem_triviaProblems {file : String} {before after : List Char}
    {trivia : List Trivia} (hsource : source.toList = before ++ (trivia.flatMap Trivia.text ++ after))
    {d : Diagnostic} (hd : d ∈ triviaProblems file
      (Text.byteLength (before ++ trivia.flatMap Trivia.text)) trivia) :
    d.span.LiesIn source ∧ 0 < d.length ∧ Text.byteLength before ≤ d.span.start ∧
      d.span.stop ≤ Text.byteLength (before ++ trivia.flatMap Trivia.text) := by
  unfold triviaProblems at hd
  split at hd
  · next body hlast =>
    obtain ⟨front, rfl⟩ := List.getLast?_eq_some_iff.1 hlast
    rw [List.mem_singleton] at hd
    have hstart : Text.byteLength (before ++ (front ++ [Trivia.openComment body]).flatMap Trivia.text) -
        Text.byteLength (Trivia.openComment body).text =
          Text.byteLength (before ++ front.flatMap Trivia.text) := by
      rw [List.flatMap_append, List.flatMap_singleton, ← List.append_assoc, Text.byteLength_append _
        (Trivia.openComment body).text, Nat.add_sub_cancel]
    rw [hstart] at hd
    subst hd
    have hlies : Span.LiesIn source ⟨Text.byteLength (before ++ front.flatMap Trivia.text),
        Text.byteLength (before ++ front.flatMap Trivia.text ++ ['/', '*'])⟩ := by
      have hopening : source.toList =
          before ++ front.flatMap Trivia.text ++ (['/', '*'] ++ (body ++ after)) := by
        simp [hsource, Trivia.text]
      exact Span.liesIn_of_append hopening
    have hlength : Text.byteLength (before ++ front.flatMap Trivia.text ++ ['/', '*']) =
        Text.byteLength (before ++ front.flatMap Trivia.text) + 2 := by
      rw [Text.byteLength_append _ ['/', '*']]
      rfl
    rw [hlength] at hlies
    refine ⟨hlies, Nat.succ_pos 1, ?_, ?_⟩
    · change Text.byteLength before ≤ Text.byteLength (before ++ front.flatMap Trivia.text)
      rw [Text.byteLength_append]
      exact Nat.le_add_right _ _
    · change Text.byteLength (before ++ front.flatMap Trivia.text) + 2 ≤ _
      rw [← hlength]
      simp only [List.flatMap_append, List.flatMap_singleton, Text.byteLength_append, Trivia.text,
        Text.byteLength_cons, Text.byteLength_nil]
      omega
  · cases hd

theorem length_triviaProblems_le (file : String) (stop : Nat) (trivia : List Trivia) :
    (triviaProblems file stop trivia).length ≤ 1 := by
  unfold triviaProblems
  split <;> simp

theorem length_lexemeProblems_le (file : String) (start : Nat) (lexeme : Lexeme) :
    (lexemeProblems file start lexeme).length ≤ 1 := by
  unfold lexemeProblems
  split <;> simp

theorem span_of_mem_lexemeProblems {file : String} {start : Nat} {cs : List Char} {d : Diagnostic}
    (hd : d ∈ lexemeProblems file start (Lexeme.read cs)) :
    d.span = ⟨start, start + Text.byteLength (Lexeme.read cs).text⟩ ∧ 0 < d.length := by
  unfold lexemeProblems at hd
  split at hd
  · next rule hproblem =>
    rw [List.mem_singleton] at hd
    subst hd
    refine ⟨rfl, Text.byteLength_pos_of_ne_nil fun hnil ↦ ?_⟩
    -- Only the end of the text takes nothing, and it is no defect.
    have hend := (Lexeme.isFront_read cs).ending (Lexeme.text_eq_nil_iff.1 hnil)
    rw [hend] at hproblem
    cases hproblem
  · cases hd

theorem pairwise_of_length_le_one {α : Type} {R : α → α → Prop} {as : List α} (h : as.length ≤ 1) :
    as.Pairwise R := by
  match as, h with
  | [], _ => exact .nil
  | [a], _ => exact List.pairwise_singleton R a

/-- The defects that one scan reports. -/
def newProblems (s : Scanner) : List Diagnostic :=
  triviaProblems s.file s.scan.token.span.start s.tile.gap ++
    lexemeProblems s.file s.scan.token.span.start (Lexeme.read (Trivia.readAll s.ahead).2)

theorem problems_scan (s : Scanner) : s.scan.problems = s.problems ++ s.newProblems := rfl

/-- A scan takes the next tile of the source. -/
theorem StandsIn.exists_tile (h : s.StandsIn source) : ∃ before,
    source.toList = before ++ s.tile.gapText ++ (s.tile.text ++ s.scan.ahead) ∧
      Text.byteLength before = s.token.span.stop ∧
      s.scan.token.span = ⟨Text.byteLength (before ++ s.tile.gapText),
        Text.byteLength (before ++ s.tile.gapText ++ s.tile.text)⟩ := by
  obtain ⟨before, hsource, hbefore⟩ := h.ahead
  have hwhole := whole_tile_append s
  rw [Tile.whole, List.append_assoc] at hwhole
  rw [← hwhole, ← List.append_assoc] at hsource
  refine ⟨before, hsource, hbefore, ?_⟩
  rw [Text.byteLength_append _ s.tile.text, Text.byteLength_append, hbefore]
  rfl

theorem StandsIn.token_scan (h : s.StandsIn source) : s.scan.token.span.LiesIn source := by
  obtain ⟨before, hsource, -, hspan⟩ := h.exists_tile
  exact hspan ▸ Span.liesIn_of_append hsource

/-- A word is spelt in the source as its token says. -/
theorem StandsIn.word_scan (h : s.StandsIn source) (hkind : s.scan.token.kind = .identifier) :
    s.scan.token.span.start < s.scan.token.span.stop ∧
      Text.slice? s.scan.token.span.start s.scan.token.span.stop source.toList =
        some s.scan.token.value.toList := by
  obtain ⟨before, hsource, -, hspan⟩ := h.exists_tile
  have hne : s.tile.text ≠ [] := fun hnil ↦ by
    have hend : s.scan.token.kind = .endOfFile := Lexeme.text_eq_nil_iff.1 hnil
    rw [hkind] at hend
    cases hend
  have hvalue : s.scan.token.value.toList = s.tile.text :=
    String.toList_ofList.trans (Lexeme.text_eq_value hkind).symm
  rw [hspan, hvalue, hsource]
  refine ⟨?_, Text.slice?_append _ _ _⟩
  rw [Text.byteLength_append _ s.tile.text]
  exact Nat.lt_add_of_pos_right (Text.byteLength_pos_of_ne_nil hne)

/-- What a scan reports of comments stands in front of the new token. -/
theorem StandsIn.triviaProblems (h : s.StandsIn source) {d : Diagnostic}
    (hd : d ∈ triviaProblems s.file s.scan.token.span.start s.tile.gap) :
    d.span.LiesIn source ∧ 0 < d.length ∧ s.token.span.stop ≤ d.span.start ∧
      d.span.stop ≤ s.scan.token.span.start := by
  obtain ⟨before, hsource, hbefore, hspan⟩ := h.exists_tile
  rw [hspan] at hd ⊢
  rw [← hbefore]
  exact span_of_mem_triviaProblems (hsource.trans (List.append_assoc _ _ _)) hd

/-- What a scan reports lies behind the old token and no further on than the new one. -/
theorem StandsIn.newProblems (h : s.StandsIn source) {d : Diagnostic} (hd : d ∈ s.newProblems) :
    d.span.LiesIn source ∧ 0 < d.length ∧ s.token.span.stop ≤ d.span.start ∧
      d.span.stop ≤ s.scan.token.span.stop := by
  rcases List.mem_append.1 hd with hd | hd
  · obtain ⟨hlies, hlength, hstart, hstop⟩ := h.triviaProblems hd
    exact ⟨hlies, hlength, hstart, hstop.trans h.token_scan.le⟩
  · obtain ⟨hspan, hlength⟩ := span_of_mem_lexemeProblems hd
    have hspan' : d.span = s.scan.token.span := hspan
    rw [hspan']
    exact ⟨h.token_scan, hlength, s.stop_le_start_scan, Nat.le_refl _⟩

theorem StandsIn.pairwise_newProblems (h : s.StandsIn source) :
    s.newProblems.Pairwise fun d e ↦ d.span.stop ≤ e.span.start := by
  refine List.pairwise_append.2 ⟨pairwise_of_length_le_one (length_triviaProblems_le _ _ _),
    pairwise_of_length_le_one (length_lexemeProblems_le _ _ _), fun d hd e he ↦ ?_⟩
  rw [(span_of_mem_lexemeProblems he).1]
  exact (h.triviaProblems hd).2.2.2

theorem StandsIn.scan (h : s.StandsIn source) : s.scan.StandsIn source where
  ahead := by
    obtain ⟨before, hsource, -, hspan⟩ := h.exists_tile
    exact ⟨before ++ s.tile.gapText ++ s.tile.text, hsource.trans (List.append_assoc _ _ _).symm,
      by rw [hspan]⟩
  token := h.token_scan
  word := h.word_scan
  problems d hd := by
    rcases List.mem_append.1 (problems_scan s ▸ hd) with hd | hd
    · obtain ⟨hlies, hlength, hle⟩ := h.problems d hd
      exact ⟨hlies, hlength, hle.trans (s.stop_le_start_scan.trans h.token_scan.le)⟩
    · obtain ⟨hlies, hlength, -, hle⟩ := h.newProblems hd
      exact ⟨hlies, hlength, hle⟩
  order := by
    rw [problems_scan, List.pairwise_append]
    exact ⟨h.order, h.pairwise_newProblems, fun d hd e he ↦
      (h.problems d hd).2.2.trans (h.newProblems he).2.2.1⟩

theorem StandsIn.iterate_scan (h : s.StandsIn source) (n : Nat) :
    (Scanner.scan^[n] s).StandsIn source := by
  induction n generalizing s with
  | zero => exact h
  | succ n ih => exact ih h.scan

/-- No two defects start at one place. -/
theorem StandsIn.pairwise_start_lt (h : s.StandsIn source) :
    s.problems.Pairwise (·.start < ·.start) := by
  refine h.order.imp_of_mem fun {d e} hd _ hle ↦ ?_
  exact Nat.lt_of_lt_of_le (Nat.lt_add_of_pos_right (h.problems d hd).2.1) hle

end Scanner
end TypeSurface
