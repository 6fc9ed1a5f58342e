import Mathlib.Logic.Function.Iterate
import TypeSurface.Proofs.Syntax.Parser.Reading

/-!
# What a parser finds in any text

`Ensures` says what holds of every answer of a parser, whatever it reads and whatever it reports.
It rests on what holds of every token, and on whether directive lines may still come.
-/

namespace TypeSurface

/-- Whether a word or a number is such as a text can hold. -/
structure Token.IsFound (t : Token) : Prop where
  word : t.kind = .identifier → Lexeme.isWord t.value.toList = true
  numeral : t.kind = .numericLiteral → Lexeme.isNumeral t.value.toList = true

namespace Scanner

/-- Whether neither the current token nor one ahead is a directive line. -/
def IsQuiet (s : Scanner) : Prop := ∀ n, (scan^[n] s).token.kind ≠ .directive

/-- What is known of a scanner; without directives if it is quiet. -/
structure IsSound (isQuiet : Bool) (s : Scanner) : Prop where
  token : s.token.IsFound
  quiet : isQuiet = true → s.IsQuiet

variable {isQuiet : Bool} {s : Scanner}

theorem isFound_scan (s : Scanner) : s.scan.token.IsFound := by
  have hfront := Lexeme.isFront_read (Trivia.readAll s.ahead).2
  have htoken : s.scan.token.kind = (Lexeme.read (Trivia.readAll s.ahead).2).kind := rfl
  have hvalue : s.scan.token.value.toList = (Lexeme.read (Trivia.readAll s.ahead).2).value :=
    String.toList_ofList
  refine ⟨fun h ↦ ?_, fun h ↦ ?_⟩
  · rw [hvalue]
    exact hfront.word (htoken ▸ h)
  · rw [hvalue]
    exact hfront.numeral (htoken ▸ h)

theorem IsSound.scan (h : s.IsSound isQuiet) : s.scan.IsSound isQuiet :=
  ⟨isFound_scan s, fun hquiet n ↦ h.quiet hquiet (n + 1)⟩

theorem IsSound.scanUntil (p : Token → Bool) (h : s.IsSound isQuiet) :
    (s.scanUntil p).IsSound isQuiet := by
  fun_induction Scanner.scanUntil p s with
  | case1 s next hp => exact h.scan
  | case2 s next hp hlt ih => exact ih h.scan
  | case3 s next hp hlt => exact h.scan

end Scanner

namespace Parser

namespace State

variable {isQuiet : Bool} {s : State}

/-- What is known of a reader: what is known of its scanner. -/
def IsSound (isQuiet : Bool) (s : State) : Prop := s.scanner.IsSound isQuiet

theorem IsSound.commit (h : s.IsSound isQuiet) : s.commit.IsSound isQuiet := Scanner.IsSound.scan h

theorem IsSound.advance (h : s.IsSound isQuiet) : s.advance.IsSound isQuiet :=
  Scanner.IsSound.scanUntil _ h

/-- A report changes the defects and whether the file is abandoned, and nothing else. -/
theorem exists_report_eq (s : State) (rule : Rule) (args : List String) (span : Span) :
    ∃ problems isAbandoned, s.report rule args span = { s with problems, isAbandoned } := by
  unfold State.report
  split
  · exact ⟨_, _, rfl⟩
  · split
    · exact ⟨_, _, rfl⟩
    · split
      · exact ⟨_, _, rfl⟩
      · exact ⟨_, _, rfl⟩

theorem report_scanner (rule : Rule) (args : List String) (span : Span) :
    (s.report rule args span).scanner = s.scanner := by
  obtain ⟨_, _, h⟩ := s.exists_report_eq rule args span
  rw [h]

theorem IsSound.report (h : s.IsSound isQuiet) (rule : Rule) (args : List String) (span : Span) :
    (s.report rule args span).IsSound isQuiet := by
  unfold State.IsSound
  rw [report_scanner]
  exact h

/-- A token that is seen ahead and is no directive is the next one. -/
theorem advance_scanner_of_next (h : s.next.kind ≠ .directive) :
    s.advance.scanner = s.scanner.scan :=
  Scanner.scanUntil_of_next (by simpa [State.next] using h)

end State

/-- Whether what a round of a loop says has one property or the other. -/
def Step.Holds {α β : Type} (P : α → Prop) (Q : β → Prop) : Step α β → Prop
  | .again a => P a
  | .done b => Q b

/-- Whether a parser answers only what `P` holds of. -/
def Ensures {α : Type} (isQuiet : Bool) (p : Parser α) (P : α → Prop) : Prop :=
  ∀ s : State, s.IsSound isQuiet → (p s).2.IsSound isQuiet ∧ ∀ a ∈ (p s).1, P a

section Ensures

variable {α β : Type} {isQuiet : Bool} {P : α → Prop} {Q : β → Prop} {p : Parser α}
  {f : α → Parser β}

theorem ensures_pure {a : α} (h : P a) : Ensures isQuiet (Pure.pure a) P := by
  intro s hs
  refine ⟨hs, fun b hb ↦ ?_⟩
  cases hb
  exact h

theorem Ensures.bind (hp : Ensures isQuiet p P) (hf : ∀ a, P a → Ensures isQuiet (f a) Q) :
    Ensures isQuiet (p >>= f) Q := by
  intro s hs
  obtain ⟨hstate, hvalue⟩ := hp s hs
  rw [bind_run]
  cases hrun : p s with
  | mk result s' =>
    rw [hrun] at hstate hvalue
    cases result with
    | none => exact ⟨hstate, nofun⟩
    | some a => exact hf a (hvalue a rfl) s' hstate

/-- What is answered behind another parser is answered for one of its answers. -/
theorem mem_bind_iff {s : State} {b : β} :
    b ∈ ((p >>= f) s).1 ↔ ∃ a s', p s = (some a, s') ∧ b ∈ (f a s').1 := by
  rw [bind_run]
  cases hrun : p s with
  | mk result s' => cases result <;> simp

theorem Ensures.imp {P' : α → Prop} (h : Ensures isQuiet p P) (hP : ∀ a, P a → P' a) :
    Ensures isQuiet p P' :=
  fun s hs ↦ ⟨(h s hs).1, fun a ha ↦ hP a ((h s hs).2 a ha)⟩

theorem ensures_giveUp : Ensures isQuiet giveUp P := fun _ hs ↦ ⟨hs, nofun⟩

theorem ensures_view (g : State → α) : Ensures isQuiet (view g) (fun _ ↦ True) :=
  fun _ hs ↦ ⟨hs, fun _ _ ↦ trivial⟩

theorem ensures_token : Ensures isQuiet (view State.token) Token.IsFound := by
  intro s hs
  refine ⟨hs, fun t ht ↦ ?_⟩
  cases ht
  exact hs.token

theorem ensures_update {g : State → State} (h : ∀ s : State, s.IsSound isQuiet → (g s).IsSound isQuiet) :
    Ensures isQuiet (update g) (fun _ ↦ True) :=
  fun s hs ↦ ⟨h s hs, fun _ _ ↦ trivial⟩

theorem Ensures.attempt (h : Ensures isQuiet p P) :
    Ensures isQuiet (attempt p) (fun r ↦ ∀ a ∈ r, P a) := by
  intro s hs
  obtain ⟨hstate, hvalue⟩ := h s hs
  refine ⟨hstate, fun r hr ↦ ?_⟩
  cases hr
  exact hvalue

theorem ensures_advance : Ensures isQuiet advance (fun _ ↦ True) :=
  ensures_update fun _ hs ↦ hs.advance

theorem ensures_commit : Ensures isQuiet commit (fun _ ↦ True) :=
  ensures_update fun _ hs ↦ hs.commit

theorem ensures_report (rule : Rule) (args : List String) (span : Span) :
    Ensures isQuiet (report rule args span) (fun _ ↦ True) :=
  ensures_update fun _ hs ↦ hs.report rule args span

theorem ensures_reportHere (rule : Rule) (args : List String) :
    Ensures isQuiet (reportHere rule args) (fun _ ↦ True) :=
  ensures_update fun s hs ↦ hs.report rule args s.token.span

theorem ensures_accept (kind : TokenKind) : Ensures isQuiet (accept kind) (fun _ ↦ True) := by
  intro s hs
  unfold Parser.accept
  split
  · exact ⟨hs.advance, fun _ _ ↦ trivial⟩
  · exact ⟨hs, fun _ _ ↦ trivial⟩

theorem ensures_expect (kind : TokenKind) : Ensures isQuiet (expect kind) (fun _ ↦ True) := by
  intro s hs
  unfold Parser.expect
  split
  · exact ⟨hs.advance, fun _ _ ↦ trivial⟩
  · exact ⟨hs.report _ _ _, fun _ _ ↦ trivial⟩

theorem ensures_require (kind : TokenKind) : Ensures isQuiet (require kind) (fun _ ↦ True) := by
  unfold require
  refine Ensures.bind (ensures_expect kind) fun found _ ↦ ?_
  split
  · exact ensures_pure trivial
  · exact ensures_giveUp

theorem ensures_loop {round : α → Parser (Step α β)}
    (hround : ∀ a, P a → Ensures isQuiet (round a) (Step.Holds P Q)) {a : α} (ha : P a) :
    Ensures isQuiet (loop round a) Q := by
  intro s hs
  fun_induction loop round a s with
  | case1 a s s' hrun =>
    have hstate := (hround a ha s hs).1
    rw [hrun] at hstate
    exact ⟨hstate, nofun⟩
  | case2 a s s' b hrun =>
    obtain ⟨hstate, hvalue⟩ := hround a ha s hs
    rw [hrun] at hstate hvalue
    refine ⟨hstate, fun c hc ↦ ?_⟩
    cases hc
    exact hvalue _ rfl
  | case3 a s a' s' hrun hlt ih =>
    obtain ⟨hstate, hvalue⟩ := hround a ha s hs
    rw [hrun] at hstate hvalue
    exact ih (hvalue _ rfl) hstate
  | case4 a s a' s' hrun hlt =>
    have hstate := (hround a ha s hs).1
    rw [hrun] at hstate
    exact ⟨hstate, nofun⟩

theorem ensures_loopWhile {goOn : State → Bool} {round : α → Parser α}
    (hround : ∀ a, P a → Ensures isQuiet (round a) P) {a : α} (ha : P a) :
    Ensures isQuiet (loopWhile goOn round a) P := by
  refine ensures_loop (P := P) (fun a ha ↦ ?_) ha
  refine Ensures.bind (ensures_view _) fun again _ ↦ ?_
  split
  · refine Ensures.bind (hround a ha) fun a' ha' ↦ ?_
    refine Ensures.bind (ensures_view _) fun again' _ ↦ ?_
    split
    · exact ensures_pure ha'
    · exact ensures_pure ha'
  · exact ensures_pure ha

theorem forall_mem_append_singleton {as : List α} {a : α} (has : ∀ b ∈ as, P b) (ha : P a) :
    ∀ b ∈ as ++ [a], P b := by
  simpa [or_imp, forall_and] using ⟨has, ha⟩

section Items

variable {isSeparator : TokenKind → Prop} [DecidablePred isSeparator] {item : Parser α}
  {recovery : Parser Unit} {items : List α}

theorem ensures_itemRound (hitem : Ensures isQuiet item P)
    (hrecovery : Ensures isQuiet recovery fun _ ↦ True) (hitems : ∀ a ∈ items, P a) :
    Ensures isQuiet (itemRound isSeparator item recovery items) (fun items ↦ ∀ a ∈ items, P a) := by
  unfold itemRound
  refine Ensures.bind (ensures_view _) fun kind _ ↦ ?_
  split
  · exact Ensures.bind ensures_advance fun _ _ ↦ ensures_pure hitems
  · refine Ensures.bind hitem.attempt fun found hfound ↦ ?_
    split
    · next a => exact ensures_pure (forall_mem_append_singleton hitems (hfound a rfl))
    · exact Ensures.bind hrecovery fun _ _ ↦ ensures_pure hitems

theorem ensures_items (goOn : State → Bool) (hitem : Ensures isQuiet item P)
    (hrecovery : Ensures isQuiet recovery fun _ ↦ True) :
    Ensures isQuiet (loopWhile goOn (itemRound isSeparator item recovery) [])
      (fun items ↦ ∀ a ∈ items, P a) := by
  have hround : ∀ items : List α, (∀ a ∈ items, P a) → Ensures isQuiet
      (itemRound isSeparator item recovery items) (fun items ↦ ∀ a ∈ items, P a) :=
    fun items hitems ↦ ensures_itemRound hitem hrecovery hitems
  exact ensures_loopWhile hround (List.forall_mem_nil P)

end Items

theorem ensures_commaList {item : Parser α} (closing : TokenKind)
    (hitem : Ensures isQuiet item P) :
    Ensures isQuiet (commaList closing item) (fun items ↦ ∀ a ∈ items, P a) := by
  refine ensures_loop (P := fun items ↦ ∀ a ∈ items, P a) (fun items hitems ↦ ?_) nofun
  refine Ensures.bind (ensures_view _) fun kind _ ↦ ?_
  split
  · exact ensures_pure hitems
  · refine Ensures.bind hitem fun a ha ↦ ?_
    have hall := forall_mem_append_singleton hitems ha
    refine Ensures.bind (ensures_accept _) fun comma _ ↦ ?_
    split
    · exact ensures_pure hall
    · exact ensures_pure hall

theorem ensures_introduced {item : Parser α} {first : α} (separator : TokenKind)
    (hitem : Ensures isQuiet item P) (hfirst : P first) :
    Ensures isQuiet (introduced separator item first)
      (fun items ↦ items.head? = some first ∧ ∀ a ∈ items, P a) := by
  rw [introduced]
  refine ensures_loop (P := fun items ↦ items.head? = some first ∧ ∀ a ∈ items, P a)
    (fun items hitems ↦ ?_) ⟨rfl, by simpa using hfirst⟩
  unfold introducedRound
  refine Ensures.bind (ensures_accept _) fun found _ ↦ ?_
  split
  · refine Ensures.bind hitem fun a ha ↦ ?_
    exact ensures_pure ⟨by simp [hitems.1], forall_mem_append_singleton hitems.2 ha⟩
  · exact ensures_pure hitems

/-- At a separator at least one more item is found. -/
theorem ensures_introduced_several {item : Parser α} {first : α} (separator : TokenKind)
    (hitem : Ensures isQuiet item P) (hfirst : P first) {s : State} (hs : s.IsSound isQuiet)
    (hkind : s.kind = separator) :
    (introduced separator item first s).2.IsSound isQuiet ∧
      ∀ items ∈ (introduced separator item first s).1, 2 ≤ items.length ∧ ∀ a ∈ items, P a := by
  have hloop : ∀ items : List α, (2 ≤ items.length ∧ ∀ a ∈ items, P a) →
      Ensures isQuiet (loop (introducedRound separator item) items)
        (fun items ↦ 2 ≤ items.length ∧ ∀ a ∈ items, P a) := by
    intro items hitems
    refine ensures_loop (P := fun items ↦ 2 ≤ items.length ∧ ∀ a ∈ items, P a)
      (fun items hitems ↦ ?_) hitems
    unfold introducedRound
    refine Ensures.bind (ensures_accept _) fun found _ ↦ ?_
    split
    · refine Ensures.bind hitem fun a ha ↦ ?_
      refine ensures_pure ⟨?_, forall_mem_append_singleton hitems.2 ha⟩
      rw [List.length_append]
      exact Nat.le_add_right_of_le hitems.1
    · exact ensures_pure hitems
  have hround : introducedRound separator item [first] s =
      (do
        let a ← item
        return (Step.again ([first] ++ [a]) : Step (List α) (List α))) s.advance := by
    unfold introducedRound
    rw [bind_run, accept, if_pos hkind]
    rfl
  rw [introduced, loop, hround, bind_run]
  obtain ⟨hstate, hvalue⟩ := hitem s.advance hs.advance
  cases hrun : item s.advance with
  | mk result s' =>
    rw [hrun] at hstate hvalue
    cases result with
    | none => exact ⟨hstate, fun _ h ↦ by cases h⟩
    | some a =>
      have hpair : ∀ b ∈ [first] ++ [a], P b :=
        forall_mem_append_singleton (by simpa using hfirst) (hvalue a rfl)
      simp only [pure_run]
      split
      · exact hloop _ ⟨Nat.le_refl _, hpair⟩ s' hstate
      · exact ⟨hstate, fun _ h ↦ by cases h⟩

end Ensures
end Parser
end TypeSurface
