import TypeSurface.Proofs.Syntax.Spelling
import TypeSurface.Syntax.Parser.Basic

/-!
# Reading pieces

`Yields` says what a parser answers at known pieces and at which pieces it leaves the reader, and
that it takes at least one character for each piece it passes over, so that no loop stalls.
-/

namespace TypeSurface

namespace Scanner

theorem scanUntil_of_next {s : Scanner} {p : Token → Bool} (h : p s.scan.token = true) :
    s.scanUntil p = s.scan := by
  rw [scanUntil]
  simp [h]

end Scanner

namespace Parser

namespace State

/-- Whether the reader stands at the pieces and nothing has gone wrong so far. -/
structure At (s : State) (ps : List Piece) : Prop where
  token : ∀ p ∈ ps.head?, p.Matches s.token
  ahead : Lexes s.scanner.ahead ps.tail
  problems : s.problems = []
  scannerProblems : s.scanner.problems = []
  isAbandoned : s.isAbandoned = false

section At

variable {s : State} {p q r : Piece} {ps : List Piece}

theorem At.here (h : s.At (p :: ps)) : p.Matches s.token := h.token p rfl

theorem At.of_broken (h : s.At (p.broken :: ps)) : s.At (p :: ps) := by
  refine ⟨fun q hq ↦ ?_, h.ahead, h.problems, h.scannerProblems, h.isAbandoned⟩
  cases hq
  exact h.here.of_broken

theorem At.kind (h : s.At (p :: ps)) : s.kind = p.kind := h.here.kind

theorem At.value (h : s.At (p :: ps)) : s.value = p.value := h.here.value

/-! What stands behind the current token can be seen. -/

theorem At.first (h : s.At (p :: q :: ps)) :
    q.Matches s.scanner.scan.token ∧ Lexes s.scanner.scan.ahead ps ∧ q.kind ≠ .directive ∧
      s.scanner.scan.problems = [] := by
  obtain ⟨rest, hhead, htail⟩ := h.ahead
  obtain ⟨hmatches, hahead, hproblems⟩ := Scanner.scan_of_heads hhead
  exact ⟨hmatches, hahead ▸ htail, hhead.kind, hproblems.trans h.scannerProblems⟩

theorem At.next (h : s.At (p :: q :: ps)) : q.Matches s.next := h.first.1

theorem At.second (h : s.At (p :: q :: r :: ps)) :
    r.Matches s.scanner.scan.scan.token ∧ Lexes s.scanner.scan.scan.ahead ps := by
  obtain ⟨rest, hhead, htail⟩ := h.first.2.1
  obtain ⟨hmatches, hahead, -⟩ := Scanner.scan_of_heads hhead
  exact ⟨hmatches, hahead ▸ htail⟩

theorem At.commit (h : s.At (p :: q :: ps)) : s.commit.At (q :: ps) := by
  obtain ⟨hmatches, hlexes, -, hproblems⟩ := h.first
  refine ⟨?_, hlexes, h.problems, hproblems, h.isAbandoned⟩
  intro p' hp'
  cases hp'
  exact hmatches

theorem At.advance (h : s.At (p :: ps)) (hps : ps ≠ []) : s.advance.At ps := by
  obtain ⟨q, ps, rfl⟩ := List.exists_cons_of_ne_nil hps
  obtain ⟨hmatches, hlexes, hkind, hproblems⟩ := h.first
  have hscan : s.scanner.scanUntil (·.kind ≠ .directive) = s.scanner.scan :=
    Scanner.scanUntil_of_next (by simpa [hmatches.kind] using hkind)
  have hadvance : s.advance = { s with lastEnd := s.token.span.stop, scanner := s.scanner.scan } := by
    rw [State.advance, hscan]
  rw [hadvance]
  refine ⟨?_, hlexes, h.problems, hproblems, h.isAbandoned⟩
  intro p' hp'
  cases hp'
  exact hmatches

theorem At.remaining_commit_lt (h : s.At (p :: ps)) (hkind : p.kind ≠ .endOfFile) :
    s.commit.remaining < s.remaining :=
  Scanner.remaining_scan_lt (h.here.kind ▸ hkind)

theorem At.remaining_advance_lt (h : s.At (p :: q :: ps)) (hkind : p.kind ≠ .endOfFile) :
    s.advance.remaining < s.remaining := by
  obtain ⟨hmatches, -, hdirective, -⟩ := h.first
  have hscan : s.scanner.scanUntil (·.kind ≠ .directive) = s.scanner.scan :=
    Scanner.scanUntil_of_next (by simpa [hmatches.kind] using hdirective)
  have hlt := Scanner.remaining_scan_lt (s := s.scanner) (h.here.kind ▸ hkind)
  unfold State.remaining State.advance
  rw [hscan]
  exact hlt

end At
end State

/-- At the pieces `ts` the parser gives a value of which `P` holds, and leaves the pieces `ks`. -/
def Yields {α : Type} (p : Parser α) (ts : List Piece) (P : α → Prop) (ks : List Piece) : Prop :=
  ∀ s : State, s.At ts → ∃ a s', p s = (some a, s') ∧ P a ∧ s'.At ks ∧
    s'.remaining + ts.length ≤ s.remaining + ks.length

/-- At the pieces `ts` the parser gives `a`, and leaves the pieces `ks`. -/
def Reads {α : Type} (p : Parser α) (ts : List Piece) (a : α) (ks : List Piece) : Prop :=
  Yields p ts (· = a) ks

section Yields

variable {α β : Type} {ts us ks : List Piece} {P : α → Prop} {Q : β → Prop} {a : α}
  {p : Parser α} {f : α → Parser β}

theorem yields_pure (h : P a) : Yields (Pure.pure a) ks P ks :=
  fun s hs ↦ ⟨a, s, rfl, h, hs, Nat.le_refl _⟩

theorem reads_pure (a : α) (ks : List Piece) : Reads (Pure.pure a) ks a ks := yields_pure rfl

theorem Yields.bind (hp : Yields p ts P us) (hf : ∀ a, P a → Yields (f a) us Q ks) :
    Yields (p >>= f) ts Q ks := by
  intro s hs
  obtain ⟨a, s₁, hrun₁, ha, hs₁, hle₁⟩ := hp s hs
  obtain ⟨b, s₂, hrun₂, hb, hs₂, hle₂⟩ := hf a ha s₁ hs₁
  refine ⟨b, s₂, ?_, hb, hs₂, ?_⟩
  · rw [bind_run, hrun₁]
    exact hrun₂
  · omega

theorem Reads.bind (hp : Reads p ts a us) (hf : Yields (f a) us Q ks) : Yields (p >>= f) ts Q ks :=
  Yields.bind hp fun _ h ↦ h ▸ hf

theorem Yields.imp {Q : α → Prop} (h : Yields p ts P ks) (hPQ : ∀ a, P a → Q a) :
    Yields p ts Q ks := by
  intro s hs
  obtain ⟨a, s', hrun, ha, hrest⟩ := h s hs
  exact ⟨a, s', hrun, hPQ a ha, hrest⟩

/-- A line break in front of the first piece may be left out of account. -/
theorem Yields.of_broken {q : Piece} {qs : List Piece} (h : Yields p (q :: qs) P ks) :
    Yields p (q.broken :: qs) P ks :=
  fun s hs ↦ h s hs.of_broken

theorem reads_view {g : State → α} (h : ∀ s, s.At ks → g s = a) : Reads (view g) ks a ks :=
  fun s hs ↦ ⟨g s, s, rfl, h s hs, hs, Nat.le_refl _⟩

theorem yields_view (g : State → α) (ks : List Piece) : Yields (view g) ks (fun _ ↦ True) ks :=
  fun s hs ↦ ⟨g s, s, rfl, trivial, hs, Nat.le_refl _⟩

theorem yields_attempt (h : Yields p ts P ks) :
    Yields (attempt p) ts (fun r ↦ ∃ a, r = some a ∧ P a) ks := by
  intro s hs
  obtain ⟨a, s', hrun, ha, hrest⟩ := h s hs
  refine ⟨some a, s', ?_, ⟨a, rfl, ha⟩, hrest⟩
  unfold Parser.attempt
  rw [hrun]

theorem reads_attempt (h : Reads p ts a ks) : Reads (attempt p) ts (some a) ks := by
  refine Yields.imp (yields_attempt h) ?_
  rintro _ ⟨b, rfl, rfl⟩
  rfl

end Yields

section Tokens

variable {p q : Piece} {ps ks : List Piece} {kind : TokenKind}

theorem reads_advance (hkind : p.kind ≠ .endOfFile) (hps : ps ≠ []) :
    Reads advance (p :: ps) () ps := by
  intro s hs
  refine ⟨(), s.advance, rfl, rfl, hs.advance hps, ?_⟩
  obtain ⟨q, ps, rfl⟩ := List.exists_cons_of_ne_nil hps
  have := hs.remaining_advance_lt hkind
  simp only [List.length_cons]
  omega

theorem reads_commit (hkind : p.kind ≠ .endOfFile) : Reads commit (p :: q :: ps) () (q :: ps) := by
  intro s hs
  have := hs.remaining_commit_lt hkind
  refine ⟨(), s.commit, rfl, rfl, hs.commit, ?_⟩
  simp only [List.length_cons]
  omega

/-- A parser that advances at the tokens of a kind reads a piece of the kind. -/
theorem reads_of_advance {r : Parser Bool}
    (hr : ∀ s : State, s.kind = kind → r s = (some true, s.advance)) (hkind : p.kind = kind)
    (hending : kind ≠ .endOfFile) (hps : ps ≠ []) : Reads r (p :: ps) true ps := by
  intro s hs
  obtain ⟨_, s', hrun, -, hrest⟩ := reads_advance (hkind ▸ hending) hps s hs
  cases hrun
  exact ⟨true, s.advance, hr s (hs.kind.trans hkind), rfl, hrest⟩

theorem reads_accept (hkind : p.kind = kind) (hending : kind ≠ .endOfFile) (hps : ps ≠ []) :
    Reads (accept kind) (p :: ps) true ps :=
  reads_of_advance (fun _ h ↦ if_pos h) hkind hending hps

theorem reads_accept_none (hkind : p.kind ≠ kind) : Reads (accept kind) (p :: ps) false (p :: ps) := by
  intro s hs
  refine ⟨false, s, ?_, rfl, hs, Nat.le_refl _⟩
  unfold Parser.accept
  rw [if_neg (hs.kind ▸ hkind)]

theorem reads_accept_optionally {flag : Bool} {qs : List Piece} (hending : kind ≠ .endOfFile)
    (hq : q.kind ≠ kind) :
    Reads (Parser.accept kind) (optionally flag [.mark kind] ++ q :: qs) flag (q :: qs) := by
  cases flag with
  | true => exact reads_accept rfl hending (by simp)
  | false => exact reads_accept_none hq

theorem reads_expect (hkind : p.kind = kind) (hending : kind ≠ .endOfFile) (hps : ps ≠ []) :
    Reads (expect kind) (p :: ps) true ps :=
  reads_of_advance (fun _ h ↦ if_pos h) hkind hending hps

theorem reads_require (hkind : p.kind = kind) (hending : kind ≠ .endOfFile) (hps : ps ≠ []) :
    Reads (require kind) (p :: ps) () ps :=
  Reads.bind (reads_expect hkind hending hps) (reads_pure () ps)

theorem reads_kind : Reads (view State.kind) (p :: ps) p.kind (p :: ps) :=
  reads_view fun _ hs ↦ hs.kind

/-- The current token is seen as the first piece. -/
theorem yields_token : Yields (view State.token) (p :: ps)
    (fun t ↦ ∃ span afterLineBreak, t = ⟨p.kind, span, p.value, afterLineBreak⟩) (p :: ps) := by
  intro s hs
  refine ⟨s.token, s, rfl, ⟨s.token.span, s.token.afterLineBreak, ?_⟩, hs, Nat.le_refl _⟩
  rw [← hs.here.kind, ← hs.here.value]

theorem yields_matches : Yields (view State.token) (p :: ps) p.Matches (p :: ps) :=
  fun s hs ↦ ⟨s.token, s, rfl, hs.here, hs, Nat.le_refl _⟩

theorem yields_identifier {name : String} (hps : ps ≠ []) :
    Yields identifier (.word name :: ps) (·.1 = name) ps := by
  intro s hs
  have hkind : s.token.kind = .identifier := hs.kind
  have hvalue : s.token.value = name := hs.value
  obtain ⟨_, s', hrun, -, hs', hle⟩ := reads_advance (by simp [Piece.word]) hps s hs
  refine ⟨(s.token.value, s.token.span), s', ?_, hvalue, hs', hle⟩
  cases hrun
  simp only [identifier, bind_run, view, if_pos hkind, advance, update, pure_run]

theorem reads_name {name : String} (hps : ps ≠ []) :
    Reads (Prod.fst <$> identifier) (.word name :: ps) name ps :=
  Yields.bind (yields_identifier hps) fun _ hr ↦ yields_pure hr

end Tokens

/-! ### Repetition -/

section Loops

variable {α β : Type} {ts us ks : List Piece} {P : α → Prop} {Q : β → Prop} {a : α}
  {round : α → Parser (Step α β)}

theorem yields_loop_done (h : Yields (round a) ts (fun r ↦ ∃ b, r = .done b ∧ Q b) ks) :
    Yields (loop round a) ts Q ks := by
  intro s hs
  obtain ⟨_, s', hrun, ⟨b, rfl, hb⟩, hrest⟩ := h s hs
  refine ⟨b, s', ?_, hb, hrest⟩
  rw [loop, hrun]

theorem yields_loop_again (h : Yields (round a) ts (fun r ↦ ∃ a', r = .again a' ∧ P a') us)
    (hlength : us.length < ts.length) (hnext : ∀ a', P a' → Yields (loop round a') us Q ks) :
    Yields (loop round a) ts Q ks := by
  intro s hs
  obtain ⟨_, s₁, hrun, ⟨a', rfl, ha'⟩, hs₁, hle₁⟩ := h s hs
  obtain ⟨b, s₂, hrun₂, hb, hs₂, hle₂⟩ := hnext a' ha' s₁ hs₁
  refine ⟨b, s₂, ?_, hb, hs₂, by omega⟩
  rw [loop, hrun]
  dsimp only
  rw [if_pos (by omega), hrun₂]

theorem reads_loop_done {b : β} (h : Reads (round a) ts (.done b) ks) :
    Reads (loop round a) ts b ks :=
  yields_loop_done (Yields.imp h fun _ hr ↦ ⟨b, hr, rfl⟩)

theorem reads_loop_again {a' : α} (h : Reads (round a) ts (.again a') us)
    (hlength : us.length < ts.length) (hnext : Yields (loop round a') us Q ks) :
    Yields (loop round a) ts Q ks :=
  yields_loop_again (P := (· = a')) (Yields.imp h fun _ hr ↦ ⟨a', hr, rfl⟩) hlength
    fun _ ha ↦ ha ▸ hnext

/-- What follows two parsers that answer alike answers alike. -/
theorem bind_congr_run {γ : Type} {p q : Parser β} {f : β → Parser γ} {s t : State}
    (h : p s = q t) : (p >>= f) s = (q >>= f) t := by
  rw [bind_run, bind_run, h]

theorem reads_loop_again_bind {γ : Type} {R : γ → Prop} {f : β → Parser γ} {a' : α}
    (h : Reads (round a) ts (.again a') us) (hlength : us.length < ts.length)
    (hnext : Yields (loop round a' >>= f) us R ks) : Yields (loop round a >>= f) ts R ks := by
  intro s hs
  obtain ⟨_, s₁, hrun, rfl, hs₁, hle₁⟩ := h s hs
  obtain ⟨c, s₂, hrun₂, hc, hs₂, hle₂⟩ := hnext s₁ hs₁
  have hloop : loop round a s = loop round a' s₁ := by
    rw [loop, hrun]
    dsimp only
    rw [if_pos (by omega)]
  refine ⟨c, s₂, ?_, hc, hs₂, by omega⟩
  rw [← hrun₂]
  exact bind_congr_run hloop

theorem whileRound_run (goOn : State → Bool) (round : α → Parser α) (a : α) (s : State) :
    whileRound goOn round a s =
      if goOn s = true then
        match round a s with
        | (some a', s') => (some (if goOn s' = true then .again a' else .done a'), s')
        | (none, s') => (none, s')
      else (some (.done a), s) := by
  unfold whileRound
  rw [bind_run]
  dsimp only [view]
  split
  · rw [bind_run]
    cases hrun : round a s with
    | mk result s' =>
      cases result with
      | none => rfl
      | some a' =>
        dsimp only
        rw [bind_run]
        cases hgoOn : goOn s' <;> simp [view, hgoOn]
  · rfl

theorem loopWhile_again {goOn : State → Bool} {round : α → Parser α} {a a' : α} {s s' : State}
    (hgoOn : goOn s = true) (hrun : round a s = (some a', s')) (hlt : s'.remaining < s.remaining) :
    loopWhile goOn round a s = loopWhile goOn round a' s' := by
  unfold loopWhile
  cases hnext : goOn s' with
  | true =>
    rw [loop, whileRound_run]
    simp only [hgoOn, if_true, hrun, hnext, if_pos hlt]
  | false =>
    rw [loop, loop, whileRound_run, whileRound_run]
    simp [hgoOn, hrun, hnext]

theorem yields_loopWhile_again {goOn : State → Bool} {round : α → Parser α} {Q : α → Prop}
    (hgoOn : ∀ s, s.At ts → goOn s = true) (hround : Yields (round a) ts P us)
    (hlength : us.length < ts.length)
    (hnext : ∀ a', P a' → Yields (loopWhile goOn round a') us Q ks) :
    Yields (loopWhile goOn round a) ts Q ks := by
  intro s hs
  obtain ⟨a', s₁, hrun, ha', hs₁, hle₁⟩ := hround s hs
  obtain ⟨b, s₂, hrun₂, hb, hs₂, hle₂⟩ := hnext a' ha' s₁ hs₁
  refine ⟨b, s₂, ?_, hb, hs₂, by omega⟩
  rw [loopWhile_again (hgoOn s hs) hrun (by omega), hrun₂]

theorem yields_loopWhile_done {goOn : State → Bool} {round : α → Parser α} {Q : α → Prop}
    (hgoOn : ∀ s, s.At ks → goOn s = false) (ha : Q a) :
    Yields (loopWhile goOn round a) ks Q ks := by
  refine yields_loop_done (Reads.bind (reads_view hgoOn) ?_)
  exact yields_pure ⟨a, rfl, ha⟩

variable {isSeparator : TokenKind → Prop} [DecidablePred isSeparator] {item : Parser α}
  {recovery : Parser Unit} {items : List α} {p : Piece} {ps : List Piece}

/-- A round of items that starts at an item adds it to those before. -/
theorem yields_itemRound (hseparator : ¬isSeparator p.kind) (hitem : Yields item (p :: ps) P ks) :
    Yields (itemRound isSeparator item recovery items) (p :: ps)
      (fun read ↦ ∃ a, P a ∧ read = items ++ [a]) ks := by
  unfold itemRound
  refine Reads.bind reads_kind ?_
  rw [if_neg hseparator]
  refine Yields.bind (yields_attempt hitem) ?_
  rintro _ ⟨a, rfl, ha⟩
  exact yields_pure ⟨a, ha, rfl⟩

end Loops

/-! ### Lists -/

section Lists

variable {α : Type} {item : Parser α} {g : α → List Piece} {items : List α} {close : Piece}
  {ks : List Piece}

/-- A loop reads a list with commas if its rounds read the items, the last of which ends it. -/
theorem reads_list_loop {round : List α → Parser (Step (List α) (List α))}
    (hempty : ∀ read, Reads (round read) (close :: ks) (.done read) (close :: ks))
    (hlast : ∀ a ∈ items, ∀ read,
      Reads (round read) (g a ++ close :: ks) (.done (read ++ [a])) (close :: ks))
    (hagain : ∀ a ∈ items, ∀ read us, us ≠ [] →
      Reads (round read) (g a ++ .mark .comma :: us) (.again (read ++ [a])) us) (read : List α) :
    Reads (loop round read) (separated (.mark .comma) (items.map g) ++ close :: ks) (read ++ items)
      (close :: ks) := by
  -- The read items are generalised, as each round hands them on with one more.
  induction items generalizing read with
  | nil =>
    rw [List.append_nil]
    exact reads_loop_done (hempty read)
  | cons a items ih =>
    rw [List.forall_mem_cons] at hlast hagain
    cases items with
    | nil => exact reads_loop_done (hlast.1 read)
    | cons b items =>
      have hts : separated (.mark .comma) ((a :: b :: items).map g) ++ close :: ks =
          g a ++ Piece.mark .comma ::
            (separated (.mark .comma) ((b :: items).map g) ++ close :: ks) := by
        simp [separated]
      have hnext := ih hlast.2 hagain.2 (read ++ [a])
      rw [List.append_assoc, List.singleton_append] at hnext
      rw [hts]
      refine reads_loop_again (hagain.1 read _ (by simp)) ?_ hnext
      simp only [List.length_append, List.length_cons]
      omega

/-- One item of a list with commas, at the end of the list or in front of a comma. -/
structure IsItem (item : Parser α) (closing : TokenKind) (ps : List Piece) (a : α) : Prop where
  head : ∀ rest, ∃ kind, kind ≠ closing ∧ Reads (view State.kind) (ps ++ rest) kind (ps ++ rest)
  reads : ∀ k ks, k.kind = .comma ∨ k.kind = closing → Reads item (ps ++ k :: ks) a (k :: ks)

theorem IsItem.of_cons {closing : TokenKind} {p : Piece} {ps : List Piece} {a : α}
    (hp : p.kind ≠ closing) (h : ∀ k ks, k.kind = .comma ∨ k.kind = closing →
      Reads item (p :: ps ++ k :: ks) a (k :: ks)) : IsItem item closing (p :: ps) a :=
  ⟨fun _ ↦ ⟨p.kind, hp, reads_kind⟩, h⟩

theorem reads_commaList (close : Piece) (hcomma : close.kind ≠ .comma)
    (hitems : ∀ a ∈ items, IsItem item close.kind (g a) a) :
    Reads (commaList close.kind item) (separated (.mark .comma) (items.map g) ++ close :: ks) items
      (close :: ks) := by
  refine reads_list_loop (fun read ↦ ?_) (fun a ha read ↦ ?_) (fun a ha read us hus ↦ ?_) []
  · refine Reads.bind reads_kind ?_
    rw [if_pos rfl]
    exact reads_pure _ _
  · obtain ⟨kind, hkind, hview⟩ := (hitems a ha).head (close :: ks)
    refine Reads.bind hview ?_
    rw [if_neg hkind]
    refine Reads.bind ((hitems a ha).reads close ks (Or.inr rfl)) ?_
    refine Reads.bind (reads_accept_none hcomma) ?_
    exact reads_pure _ _
  · obtain ⟨kind, hkind, hview⟩ := (hitems a ha).head (.mark .comma :: us)
    refine Reads.bind hview ?_
    rw [if_neg hkind]
    refine Reads.bind ((hitems a ha).reads _ us (Or.inl rfl)) ?_
    refine Reads.bind (reads_accept rfl (by decide) hus) ?_
    exact reads_pure _ _

/-- What stands behind an item of such a list: a separator, or what ends the list. -/
theorem introduced_behind (separator : TokenKind) (close : Piece) (ks : List Piece)
    (items : List α) (g : α → List Piece) :
    ∃ k ks', items.flatMap (fun a ↦ .mark separator :: g a) ++ close :: ks = k :: ks' ∧
      (k.kind = separator ∨ k = close) := by
  cases items with
  | nil => exact ⟨close, ks, rfl, Or.inr rfl⟩
  | cons b items => exact ⟨_, _, rfl, Or.inl rfl⟩

theorem reads_introduced_loop {separator : TokenKind} (hending : separator ≠ .endOfFile)
    (hclose : close.kind ≠ separator)
    (hitems : ∀ a ∈ items, ∀ k ks', k.kind = separator ∨ k = close →
      Reads item (g a ++ k :: ks') a (k :: ks')) (read : List α) :
    Reads (loop (introducedRound separator item) read)
      (items.flatMap (fun a ↦ .mark separator :: g a) ++ close :: ks) (read ++ items)
      (close :: ks) := by
  induction items generalizing read with
  | nil =>
    refine reads_loop_done (Reads.bind (reads_accept_none hclose) ?_)
    rw [List.append_nil]
    exact reads_pure _ _
  | cons a items ih =>
    obtain ⟨hitem, hitems⟩ := List.forall_mem_cons.1 hitems
    have hnext := ih hitems (read ++ [a])
    rw [List.append_assoc, List.singleton_append] at hnext
    obtain ⟨k, ks', hks, hk⟩ := introduced_behind separator close ks items g
    rw [List.flatMap_cons, List.cons_append, List.cons_append, List.append_assoc]
    rw [hks] at hnext ⊢
    refine reads_loop_again ?_ ?_ hnext
    · refine Reads.bind (reads_accept rfl hending (by simp)) ?_
      rw [if_pos rfl]
      refine Reads.bind (hitem k ks' hk) ?_
      exact reads_pure _ _
    · simp only [List.length_append, List.length_cons]
      omega

theorem reads_introduced {separator : TokenKind} {first : α} (hending : separator ≠ .endOfFile)
    (hclose : close.kind ≠ separator)
    (hitems : ∀ a ∈ items, ∀ k ks', k.kind = separator ∨ k = close →
      Reads item (g a ++ k :: ks') a (k :: ks')) :
    Reads (introduced separator item first)
      (items.flatMap (fun a ↦ .mark separator :: g a) ++ close :: ks) (first :: items)
      (close :: ks) := by
  rw [introduced]
  exact reads_introduced_loop hending hclose hitems [first]

end Lists

theorem reads_dottedName {words : List String} {close : Piece} (ks : List Piece)
    (hwords : words ≠ []) (hclose : close.kind ≠ .dot) :
    Reads dottedName (dotted words ++ close :: ks) (".".intercalate words) (close :: ks) := by
  obtain ⟨word, words, rfl⟩ := List.exists_cons_of_ne_nil hwords
  have hpieces : dotted (word :: words) ++ close :: ks =
      .word word :: (words.flatMap (fun w ↦ .mark .dot :: [.word w]) ++ close :: ks) := by
    rw [dotted, List.map_cons, separated_cons, List.flatMap_map]
    rfl
  rw [hpieces]
  refine Yields.bind (yields_identifier (by simp)) fun r hr ↦ ?_
  rw [← hr]
  refine Reads.bind (reads_introduced (by decide) hclose fun w _ k ks' _ ↦ ?_) (reads_pure _ _)
  exact reads_name (by simp)

end Parser
end TypeSurface
