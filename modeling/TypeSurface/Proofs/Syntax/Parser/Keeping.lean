import TypeSurface.Proofs.Syntax.Parser.FoundStatements

/-!
# What every reading keeps

A relation between the states before and after that the single steps establish is established by
every parser, through all loops; and so is a second one where the parser gives up, which is never
done without a report.  Since a loop without progress ends as a stall, this rests on the progress of
the rounds, which is shown with it: a round that is followed by another one has taken a token, but
for a block at a member that cannot be read and leaves the reader behind a line break.
-/

namespace TypeSurface

namespace Scanner

theorem remaining_scan_le (s : Scanner) : s.scan.remaining ≤ s.remaining :=
  s.remaining_scan_le_length.trans (Nat.le_add_right _ _)

theorem remaining_iterate_scan_le (s : Scanner) (n : Nat) :
    (scan^[n] s).remaining ≤ s.remaining := by
  induction n generalizing s with
  | zero => exact Nat.le_refl _
  | succ n ih => exact (ih s.scan).trans s.remaining_scan_le

theorem remaining_scanUntil_le (p : Token → Bool) (s : Scanner) :
    (s.scanUntil p).remaining ≤ s.scan.remaining := by
  fun_induction Scanner.scanUntil p s with
  | case1 s next hp => exact Nat.le_refl _
  | case2 s next hp hlt ih => exact ih.trans next.remaining_scan_le
  | case3 s next hp hlt => exact Nat.le_refl _

end Scanner

namespace Parser

/-! ### States -/

namespace State

/-- A member that cannot be read starts here: nothing of it is taken, and as a line break stands in
front of it, passing over the rest of it takes nothing either. -/
structure LosesMember (depth : Nat) (s : State) : Prop where
  inBlock : isInBlock s = true
  afterLineBreak : s.token.afterLineBreak = true
  unread : (member (typeExpr depth) s).1 = none
  untouched : (member (typeExpr depth) s).2.scanner = s.scanner

/-- Where reading may lead from a state, and where it may lead if it gives up. -/
structure Reading where
  steps : State → State → Prop
  fails : State → State → Prop

/-- Each step of reading leads where it may, and whoever gives up has reported it. -/
structure IsReading (R : Reading) : Prop where
  refl : ∀ s, R.steps s s
  trans : ∀ {s t u}, R.steps s t → R.steps t u → R.steps s u
  trans_fails : ∀ {s t u}, R.steps s t → R.fails t u → R.fails s u
  reaches : ∀ {s t}, R.steps s t → ∃ n, t.scanner = Scanner.scan^[n] s.scanner
  advance : ∀ s, R.steps s s.advance
  /-- The name of a predicate, which has been looked at, and its `is`. -/
  commit : ∀ s, R.steps s s.commit.advance
  /-- A line of three slashes at the head of a file. -/
  pass : ∀ s, R.steps s { s.commit with lastEnd := s.token.span.stop }
  report : ∀ s {rule : Rule} args, rule.category = .error →
    R.steps s (s.report rule args s.token.span)
  refuse : ∀ s rule args, R.fails s (s.report rule args s.token.span)
  abandon : ∀ s {rule : Rule} args, rule.category = .error →
    R.steps s (s.report rule args s.token.span).abandon ∧
      R.fails s (s.report rule args s.token.span).abandon
  stall : ∀ {depth s t}, s.LosesMember depth → R.fails s (member (typeExpr depth) s).2 →
    R.steps (member (typeExpr depth) s).2 t → R.steps s t →
      R.steps s (t.stall s.scanner) ∧ R.fails s (t.stall s.scanner)

theorem kind_ne_endOfFile {s : State} {kind : TokenKind} (h : s.token.kind = kind)
    (hkind : kind ≠ .endOfFile) : s.kind ≠ .endOfFile := by
  unfold State.kind
  rw [h]
  exact hkind

theorem remaining_advance_lt {s : State} (h : s.kind ≠ .endOfFile) :
    s.advance.remaining < s.remaining :=
  (Scanner.remaining_scanUntil_le _ s.scanner).trans_lt (Scanner.remaining_scan_lt h)

theorem IsReading.remaining_le {R : Reading} (hR : IsReading R) {s t : State} (h : R.steps s t) :
    t.remaining ≤ s.remaining := by
  obtain ⟨n, hn⟩ := hR.reaches h
  unfold State.remaining
  rw [hn]
  exact Scanner.remaining_iterate_scan_le s.scanner n

/-- A reader that has less to read than it could have has not moved. -/
theorem IsReading.scanner_eq {R : Reading} (hR : IsReading R) {s t : State} (h : R.steps s t)
    (hkind : s.kind ≠ .endOfFile) (hle : ¬t.remaining < s.remaining) :
    t.scanner = s.scanner := by
  obtain ⟨n, hn⟩ := hR.reaches h
  cases n with
  | zero => exact hn
  | succ n =>
    have hlt := Scanner.remaining_scan_lt (s := s.scanner) hkind
    have hmore := Scanner.remaining_iterate_scan_le s.scanner.scan n
    unfold State.remaining at hle
    rw [hn] at hle
    exact absurd (hmore.trans_lt hlt) hle

end State

/-! ### Parsers -/

/-- Every run of the parser leads where it may, whether it answers or gives up. -/
structure Keeps {α : Type} (R : State.Reading) (p : Parser α) : Prop where
  steps : ∀ s, R.steps s (p s).2
  fails : ∀ s, (p s).1 = none → R.fails s (p s).2

/-- The parser takes a token, whether it answers or gives up. -/
def Moves {α : Type} (p : Parser α) (s : State) : Prop := (p s).2.remaining < s.remaining

/-- If the parser answers something of which `Q` holds, it has taken a token. -/
def Takes {α : Type} (Q : α → Prop) (p : Parser α) (s : State) : Prop :=
  ∀ a, (p s).1 = some a → Q a → (p s).2.remaining < s.remaining

/-- Whether the parser answers wherever it starts. -/
def IsTotal {α : Type} (p : Parser α) : Prop := ∀ s, ∃ a, (p s).1 = some a

def Step.IsAgain {α β : Type} : Step α β → Prop
  | .again _ => True
  | .done _ => False

/-- Every round that is followed by another one takes a token. -/
def IsProgressive {α β : Type} (round : α → Parser (Step α β)) : Prop :=
  ∀ a s, Takes Step.IsAgain (round a) s

section Combinators

variable {α β : Type} {R : State.Reading} {p : Parser α} {f : α → Parser β}
  {Q : β → Prop} {s : State}

theorem isTotal_pure (a : α) : IsTotal (pure a : Parser α) := fun _ ↦ ⟨a, rfl⟩

theorem isTotal_update (g : State → State) : IsTotal (update g) := fun _ ↦ ⟨(), rfl⟩

theorem isTotal_view_bind {g : State → α} {f : α → Parser β} (h : ∀ a, IsTotal (f a)) :
    IsTotal (view g >>= f) := fun s ↦ h (g s) s

theorem IsTotal.bind {p : Parser α} {f : α → Parser β} (hp : IsTotal p) (hf : ∀ a, IsTotal (f a)) :
    IsTotal (p >>= f) := by
  intro s
  obtain ⟨a, ha⟩ := hp s
  obtain ⟨b, hb⟩ := hf a (p s).2
  exact ⟨b, by rw [bind_run, show p s = (some a, (p s).2) from Prod.ext ha rfl, hb]⟩

/-- A parser that never gives up. -/
theorem keeps_of_answer (hsteps : ∀ s, R.steps s (p s).2) (hanswer : IsTotal p) : Keeps R p := by
  refine ⟨hsteps, fun s hnone ↦ ?_⟩
  obtain ⟨a, ha⟩ := hanswer s
  rw [ha] at hnone
  cases hnone

theorem keeps_pure (hR : State.IsReading R) (a : α) : Keeps R (pure a : Parser α) :=
  keeps_of_answer hR.refl fun _ ↦ ⟨a, rfl⟩

theorem keeps_view (hR : State.IsReading R) (g : State → α) : Keeps R (view g) :=
  keeps_of_answer hR.refl fun s ↦ ⟨g s, rfl⟩

theorem keeps_update {g : State → State} (h : ∀ s, R.steps s (g s)) : Keeps R (update g) :=
  keeps_of_answer h fun _ ↦ ⟨(), rfl⟩

theorem Keeps.bind (hR : State.IsReading R) (hp : Keeps R p) (hf : ∀ a, Keeps R (f a)) :
    Keeps R (p >>= f) := by
  refine ⟨fun s ↦ ?_, fun s hnone ↦ ?_⟩
  · have hfirst := hp.steps s
    rw [bind_run]
    split
    · next a s' hp' =>
      rw [hp'] at hfirst
      exact hR.trans hfirst ((hf a).steps s')
    · next s' hp' =>
      rw [hp'] at hfirst
      exact hfirst
  · have hfirst := hp.steps s
    have hfirst' := hp.fails s
    rw [bind_run] at hnone ⊢
    split at hnone
    · next a s' hp' =>
      rw [hp'] at hfirst
      exact hR.trans_fails hfirst ((hf a).fails s' hnone)
    · next s' hp' =>
      rw [hp'] at hfirst'
      exact hfirst' rfl

theorem Keeps.attempt (hp : Keeps R p) : Keeps R (attempt p) :=
  keeps_of_answer hp.steps fun s ↦ ⟨(p s).1, rfl⟩

theorem keeps_advance (hR : State.IsReading R) : Keeps R advance := keeps_update hR.advance

theorem keeps_reportHere (hR : State.IsReading R) {rule : Rule} (args : List String)
    (hrule : rule.category = .error) : Keeps R (reportHere rule args) :=
  keeps_update fun s ↦ hR.report s args hrule

theorem keeps_refusal (hR : State.IsReading R) {rule : Rule} (args : List String)
    (hrule : rule.category = .error) : Keeps R (do reportHere rule args; giveUp : Parser α) :=
  ⟨fun s ↦ hR.report s args hrule, fun s _ ↦ hR.refuse s rule args⟩

theorem accept_run (kind : TokenKind) (s : State) :
    accept kind s = if s.kind = kind then (some true, s.advance) else (some false, s) := rfl

theorem expect_run (kind : TokenKind) (s : State) :
    expect kind s =
      if s.kind = kind then (some true, s.advance)
      else (some false, s.report .expectedToken [kind.text] s.token.span) := rfl

theorem require_run (kind : TokenKind) (s : State) :
    require kind s =
      if s.kind = kind then (some (), s.advance)
      else (none, s.report .expectedToken [kind.text] s.token.span) := by
  unfold require
  rw [bind_run, expect_run]
  by_cases h : s.kind = kind <;> simp [h, giveUp]

theorem keeps_accept (hR : State.IsReading R) (kind : TokenKind) : Keeps R (accept kind) := by
  refine keeps_of_answer (fun s ↦ ?_) fun s ↦ ?_ <;> rw [accept_run] <;> split
  · exact hR.advance s
  · exact hR.refl s
  · exact ⟨true, rfl⟩
  · exact ⟨false, rfl⟩

theorem keeps_expect (hR : State.IsReading R) (kind : TokenKind) : Keeps R (expect kind) := by
  refine keeps_of_answer (fun s ↦ ?_) fun s ↦ ?_ <;> rw [expect_run] <;> split
  · exact hR.advance s
  · exact hR.report s _ rfl
  · exact ⟨true, rfl⟩
  · exact ⟨false, rfl⟩

theorem keeps_require (hR : State.IsReading R) (kind : TokenKind) : Keeps R (require kind) := by
  refine ⟨fun s ↦ ?_, fun s hnone ↦ ?_⟩
  · rw [require_run]
    split
    · exact hR.advance s
    · exact hR.report s _ rfl
  · rw [require_run] at hnone ⊢
    split at hnone
    · cases hnone
    · next hkind =>
      rw [if_neg hkind]
      exact hR.refuse s _ _

/-- What a parser does with what is seen of the state it starts at. -/
theorem moves_view_iff {g : State → α} : Moves (view g >>= f) s ↔ Moves (f (g s)) s := Iff.rfl

theorem moves_advance (hR : State.IsReading R) {f : Unit → Parser β} (hkind : s.kind ≠ .endOfFile)
    (hf : Keeps R (f ())) : Moves (advance >>= f) s :=
  (hR.remaining_le (hf.steps s.advance)).trans_lt (State.remaining_advance_lt hkind)

theorem attempt_bind_run (f : Option α → Parser β) :
    (attempt p >>= f) s = f (p s).1 (p s).2 := rfl

theorem Moves.takes {Q : α → Prop} (h : Moves p s) : Takes Q p s := fun _ _ _ ↦ h

theorem takes_pure {a : α} {Q : α → Prop} (h : ¬Q a) : Takes Q (pure a : Parser α) s := by
  intro b hb hQ
  cases hb
  exact absurd hQ h

theorem takes_giveUp {Q : α → Prop} : Takes Q (giveUp : Parser α) s := by
  intro a ha
  cases ha

theorem takes_view {g : State → α} (h : Takes Q (f (g s)) s) : Takes Q (view g >>= f) s := h

theorem Takes.bind_left (hR : State.IsReading R) (hp : Takes (fun _ ↦ True) p s)
    (hf : ∀ a, Keeps R (f a)) : Takes Q (p >>= f) s := by
  intro b hb _
  rw [bind_run] at hb ⊢
  cases hrun : p s with
  | mk result s' =>
    rw [hrun] at hb
    cases result with
    | none => cases hb
    | some a =>
      have hfirst := hp a (by rw [hrun]) trivial
      rw [hrun] at hfirst
      exact (hR.remaining_le ((hf a).steps s')).trans_lt hfirst

theorem Takes.bind_right (hR : State.IsReading R) (hp : Keeps R p) (hf : ∀ a s', Takes Q (f a) s') :
    Takes Q (p >>= f) s := by
  intro b hb hQ
  rw [bind_run] at hb ⊢
  have hfirst := hp.steps s
  cases hrun : p s with
  | mk result s' =>
    rw [hrun] at hb hfirst
    cases result with
    | none => cases hb
    | some a => exact (hf a s' b hb hQ).trans_le (hR.remaining_le hfirst)

theorem takes_advance (hR : State.IsReading R) {f : Unit → Parser β} (hkind : s.kind ≠ .endOfFile)
    (hf : Keeps R (f ())) : Takes Q (advance >>= f) s := (moves_advance hR hkind hf).takes

theorem takes_accept (hR : State.IsReading R) {f : Bool → Parser β} {kind : TokenKind}
    (hkind : kind ≠ .endOfFile) (htrue : Keeps R (f true)) (hfalse : Takes Q (f false) s) :
    Takes Q (accept kind >>= f) s := by
  intro b hb hQ
  rw [bind_run] at hb ⊢
  unfold accept at hb ⊢
  by_cases hs : s.kind = kind
  · rw [if_pos hs]
    exact (hR.remaining_le (htrue.steps s.advance)).trans_lt
      (State.remaining_advance_lt (hs ▸ hkind))
  · rw [if_neg hs] at hb ⊢
    exact hfalse b hb hQ

theorem takes_require {kind : TokenKind} (hkind : kind ≠ .endOfFile) :
    Takes (fun _ ↦ True) (require kind) s := by
  intro a ha _
  unfold require at ha ⊢
  rw [bind_run] at ha ⊢
  unfold expect at ha ⊢
  by_cases hs : s.kind = kind
  · rw [if_pos hs]
    exact State.remaining_advance_lt (hs ▸ hkind)
  · rw [if_neg hs] at ha
    cases ha

/-! ### Loops -/

/-- A round that takes no token is excused by a member that has been lost in it. -/
structure IsExcused (R : State.Reading) (depth : Nat) (s t : State) : Prop where
  loses : s.LosesMember depth
  fails : R.fails s (member (typeExpr depth) s).2
  steps : R.steps (member (typeExpr depth) s).2 t

/-- A loop without progress is a stall, which only a lost member excuses. -/
theorem keeps_loop (hR : State.IsReading R) {round : α → Parser (Step α β)}
    (hround : ∀ a, Keeps R (round a))
    (hprogress : ∀ a s, Takes Step.IsAgain (round a) s ∨
      ∃ depth, IsExcused R depth s (round a s).2) (a : α) :
    Keeps R (loop round a) := by
  have hboth : ∀ a s, R.steps s (loop round a s).2 ∧
      ((loop round a s).1 = none → R.fails s (loop round a s).2) := by
    intro a s
    fun_induction loop round a s with
    | case1 a s s' hrun =>
      have hsteps := (hround a).steps s
      have hfails := (hround a).fails s
      rw [hrun] at hsteps hfails
      exact ⟨hsteps, fun _ ↦ hfails rfl⟩
    | case2 a s s' b hrun =>
      have hsteps := (hround a).steps s
      rw [hrun] at hsteps
      exact ⟨hsteps, fun hnone ↦ by cases hnone⟩
    | case3 a s a' s' hrun hlt ih =>
      have hsteps := (hround a).steps s
      rw [hrun] at hsteps
      exact ⟨hR.trans hsteps ih.1, fun hnone ↦ hR.trans_fails hsteps (ih.2 hnone)⟩
    | case4 a s a' s' hrun hlt =>
      have hsteps := (hround a).steps s
      have hexcuse := hprogress a s
      rw [hrun] at hsteps hexcuse
      rcases hexcuse with htakes | ⟨depth, hexcused⟩
      · have hmoved := htakes (.again a') (by rw [hrun]) trivial
        rw [hrun] at hmoved
        exact absurd hmoved hlt
      · have hstall := hR.stall hexcused.loses hexcused.fails hexcused.steps hsteps
        exact ⟨hstall.1, fun _ ↦ hstall.2⟩
  exact ⟨fun s ↦ (hboth a s).1, fun s ↦ (hboth a s).2⟩

theorem IsProgressive.keeps_loop (hR : State.IsReading R) {round : α → Parser (Step α β)}
    (hprogress : IsProgressive round) (hround : ∀ a, Keeps R (round a)) (a : α) :
    Keeps R (loop round a) :=
  Parser.keeps_loop hR hround (fun a s ↦ Or.inl (hprogress a s)) a

/-- Another round follows one behind which the condition still holds. -/
theorem whileRound_again {goOn : State → Bool} {round : α → Parser α} {a a' : α} {s' : State}
    (h : whileRound goOn round a s = (some (.again a'), s')) :
    goOn s = true ∧ round a s = (some a', s') := by
  rw [whileRound_run] at h
  split at h
  · next hgoOn =>
    refine ⟨hgoOn, ?_⟩
    split at h
    · next b t hrun =>
      split at h
      · cases h
        exact hrun
      · cases h
    · cases h
  · cases h

/-- The last round is one behind which the condition does not hold. -/
theorem whileRound_done {goOn : State → Bool} {round : α → Parser α} {a b : α} {s' : State}
    (h : whileRound goOn round a s = (some (.done b), s')) :
    goOn s' = false ∧ ((b = a ∧ s' = s) ∨ round a s = (some b, s')) := by
  rw [whileRound_run] at h
  split at h
  · split at h
    · next b t hrun =>
      split at h
      · cases h
      · next hgoOn =>
        cases h
        exact ⟨Bool.eq_false_iff.2 hgoOn, Or.inr hrun⟩
    · cases h
  · next hgoOn =>
    cases h
    exact ⟨Bool.eq_false_iff.2 hgoOn, Or.inl ⟨rfl, rfl⟩⟩

theorem whileRound_snd {goOn : State → Bool} {round : α → Parser α} {a : α} (h : goOn s = true) :
    (whileRound goOn round a s).2 = (round a s).2 := by
  rw [whileRound_run, if_pos h]
  split
  · next hrun => rw [hrun]
  · next hrun => rw [hrun]

theorem keeps_whileRound (hR : State.IsReading R) {goOn : State → Bool} {round : α → Parser α}
    (hround : ∀ a, Keeps R (round a)) (a : α) : Keeps R (whileRound goOn round a) := by
  refine (keeps_view hR goOn).bind hR fun again ↦ ?_
  split
  · refine (hround a).bind hR fun a' ↦ ?_
    refine (keeps_view hR goOn).bind hR fun again' ↦ ?_
    split
    · exact keeps_pure hR _
    · exact keeps_pure hR _
  · exact keeps_pure hR _

/-- The rounds of a loop with a condition are those at states where it holds. -/
theorem keeps_loopWhile (hR : State.IsReading R) {goOn : State → Bool} {round : α → Parser α}
    (hround : ∀ a, Keeps R (round a))
    (hprogress : ∀ a s, goOn s = true → Takes (fun _ ↦ True) (round a) s ∨
      ∃ depth, IsExcused R depth s (round a s).2) (a : α) :
    Keeps R (loopWhile goOn round a) := by
  rw [loopWhile]
  refine keeps_loop hR (keeps_whileRound hR hround) (fun a s ↦ ?_) a
  cases hgoOn : goOn s with
  | false =>
    refine Or.inl (takes_view ?_)
    rw [hgoOn]
    exact takes_pure (fun h ↦ h)
  | true =>
    refine (hprogress a s hgoOn).imp (fun htakes ↦ takes_view ?_) fun hexcused ↦ ?_
    · rw [hgoOn]
      refine htakes.bind_left hR fun a' ↦ ?_
      refine (keeps_view hR goOn).bind hR fun again' ↦ ?_
      split
      · exact keeps_pure hR _
      · exact keeps_pure hR _
    · rw [whileRound_snd hgoOn]
      exact hexcused

/-- What the first round of a loop has taken is not given back. -/
theorem remaining_loop_le {round : α → Parser (Step α β)} (hR : State.IsReading R)
    (hround : ∀ a, Keeps R (round a)) (hprogress : IsProgressive round) (a : α) (s : State) :
    (loop round a s).2.remaining ≤ (round a s).2.remaining := by
  rw [loop]
  split
  · next s' hrun => rw [hrun]
  · next s' b hrun => rw [hrun]
  · next a' s' hrun =>
    rw [hrun]
    split
    · exact hR.remaining_le ((hprogress.keeps_loop hR hround a').steps s')
    · exact Nat.le_refl _

/-! ### Items -/

section Items

variable {isSeparator : TokenKind → Prop} [DecidablePred isSeparator] {recovery : Parser Unit}
  {items : List α}

theorem itemRound_run :
    itemRound isSeparator p recovery items s =
      if isSeparator s.kind then (some items, s.advance)
      else
        match p s with
        | (some a, s') => (some (items ++ [a]), s')
        | (none, s') => ((recovery s').1.map fun _ ↦ items, (recovery s').2) := by
  change (if isSeparator s.kind then do advance; return items else _ : Parser (List α)) s = _
  split
  · rfl
  · rw [attempt_bind_run]
    cases hrun : p s with
    | mk result s' =>
      cases result with
      | some a => rfl
      | none =>
        dsimp only
        rw [bind_run]
        cases hrecovery : recovery s' with
        | mk result t => cases result <;> rfl

theorem keeps_itemRound (hR : State.IsReading R) (hp : Keeps R p) (hrecovery : Keeps R recovery)
    (items : List α) : Keeps R (itemRound isSeparator p recovery items) := by
  refine (keeps_view hR _).bind hR fun kind ↦ ?_
  split
  · exact (keeps_advance hR).bind hR fun _ ↦ keeps_pure hR _
  · refine hp.attempt.bind hR fun found ↦ ?_
    split
    · exact keeps_pure hR _
    · exact hrecovery.bind hR fun _ ↦ keeps_pure hR _

/-- An item is passed over without a token being taken: nothing of it was read, and passing over it
took nothing either. -/
structure IsStuck (p : Parser α) (recovery : Parser Unit) (s t : State) : Prop where
  unread : (p s).1 = none
  scanner : (p s).2.scanner = s.scanner
  stuck : ¬Moves recovery (p s).2
  recovered : t = (recovery (p s).2).2

/-- A round of items takes a token, unless it is stuck. -/
theorem moves_itemRound (hR : State.IsReading R) (hp : Keeps R p)
    (htakes : Takes (fun _ ↦ True) p s) (hrecovery : Keeps R recovery) (hkind : s.kind ≠ .endOfFile)
    (items : List α) :
    Moves (itemRound isSeparator p recovery items) s ∨
      IsStuck p recovery s (itemRound isSeparator p recovery items s).2 := by
  unfold Moves
  rw [itemRound_run]
  split
  · exact Or.inl (State.remaining_advance_lt hkind)
  · have hsteps := hp.steps s
    cases hrun : p s with
    | mk result s' =>
      rw [hrun] at hsteps
      cases result with
      | some a =>
        have hmoved := htakes a (by rw [hrun]) trivial
        rw [hrun] at hmoved
        exact Or.inl hmoved
      | none =>
        have hrecovered := hR.remaining_le (hrecovery.steps s')
        by_cases hlt : s'.remaining < s.remaining
        · exact Or.inl (hrecovered.trans_lt hlt)
        · have hscanner := hR.scanner_eq hsteps hkind hlt
          have hremaining : s'.remaining = s.remaining := congrArg Scanner.remaining hscanner
          by_cases hmoves : Moves recovery s'
          · exact Or.inl (hmoves.trans_eq hremaining)
          · refine Or.inr ⟨?_, ?_, ?_, ?_⟩ <;> rw [hrun]
            · exact hscanner
            · exact hmoves

end Items

end Combinators
end Parser
end TypeSurface
