import TypeSurface.Proofs.Syntax.Parser.Accountability
import TypeSurface.Proofs.Syntax.Parser.Directives
import TypeSurface.Proofs.Syntax.Placement

/-!
# Spans

Wherever a reader goes in a source, what it has read ends in front of its token, and what it reports
is a token.  So the statements that it finds run one behind the other, and so do the members of each
interface inside it.
-/

namespace TypeSurface

def StatementBody.members : StatementBody → List PlacedMember
  | interface _ _ members => members
  | _ => []

/-- Whether a statement stands where it says, with its name and its members inside it. -/
structure Statement.IsPlaced (source : String) (st : Statement) : Prop where
  span : st.span.LiesIn source
  nonempty : st.span.start < st.span.stop
  nameSpan : st.nameSpan.LiesIn source
  start_le : st.span.start ≤ st.nameSpan.start
  le_stop : st.nameSpan.stop ≤ st.span.stop
  name : Text.slice? st.nameSpan.start st.nameSpan.stop source.toList = some st.name.toList
  members : Span.RunIn source st.span.start st.span.stop (st.body.members.map (·.span))

/-- Whether all that a file is said to hold stands where it is said to. -/
structure SourceFile.IsPlaced (source : String) (f : SourceFile) : Prop where
  directives : ∀ d ∈ f.directives, d.span.LiesIn source
  statements : ∀ st ∈ f.statements, st.IsPlaced source
  order : f.statements.Pairwise fun a b ↦ a.span.stop ≤ b.span.start
  problems : ∀ d ∈ f.problems, d.span.LiesIn source
  sorted : f.problems.Pairwise (·.start ≤ ·.start)
  count : f.problems.length ≤ maxProblems

namespace Parser

variable {source : String} {s t u : State}

namespace State

/-- Whether a reader stands in a source: what it has read ends in front of its token, and all defects
have their places. -/
structure StandsIn (source : String) (s : State) : Prop where
  scanner : s.scanner.StandsIn source
  lastEnd : String.Pos.Raw.IsValid source ⟨s.lastEnd⟩
  lastEnd_le : s.lastEnd ≤ s.token.span.start
  problems : ∀ d ∈ s.problems, d.span.LiesIn source

/-- Whether a reader has moved on in a source.  If it has left a token behind, what it has read reaches
behind that token. -/
structure MovesIn (source : String) (s t : State) : Prop where
  standsIn : t.StandsIn source
  lastEnd_le : s.lastEnd ≤ t.lastEnd
  moved : t.scanner = s.scanner ∨ s.token.span.stop ≤ t.lastEnd

theorem MovesIn.refl (hs : s.StandsIn source) : s.MovesIn source s :=
  ⟨hs, Nat.le_refl _, Or.inl rfl⟩

theorem MovesIn.trans (h : s.MovesIn source t) (h' : t.MovesIn source u) : s.MovesIn source u := by
  refine ⟨h'.standsIn, h.lastEnd_le.trans h'.lastEnd_le, ?_⟩
  rcases h.moved with hsame | hmoved
  · have htoken : t.token = s.token := congrArg Scanner.token hsame
    exact h'.moved.imp (·.trans hsame) fun hmoved ↦ htoken ▸ hmoved
  · exact Or.inr (hmoved.trans h'.lastEnd_le)

theorem MovesIn.start_le (hs : s.StandsIn source) (h : s.MovesIn source t) :
    s.token.span.start ≤ t.token.span.start := by
  rcases h.moved with hsame | hmoved
  · have htoken : t.token = s.token := congrArg Scanner.token hsame
    exact htoken ▸ Nat.le_refl _
  · exact hs.scanner.token.le.trans (hmoved.trans h.standsIn.lastEnd_le)

theorem StandsIn.advance (hs : s.StandsIn source) : s.MovesIn source s.advance := by
  obtain ⟨n, hn⟩ := scanUntil_eq_iterate (·.kind ≠ .directive) s.scanner
  have hscanner : s.advance.scanner = Scanner.scan^[n + 1] s.scanner := hn
  refine ⟨⟨?_, hs.scanner.token.stop, ?_, hs.problems⟩, ?_, Or.inr (Nat.le_refl _)⟩
  · rw [hscanner]
    exact hs.scanner.iterate_scan (n + 1)
  · change s.scanner.token.span.stop ≤ s.advance.scanner.token.span.start
    rw [hscanner]
    exact s.scanner.stop_le_start_iterate n
  · exact hs.lastEnd_le.trans hs.scanner.token.le

theorem StandsIn.commit (hs : s.StandsIn source) : s.commit.StandsIn source where
  scanner := hs.scanner.scan
  lastEnd := hs.lastEnd
  lastEnd_le := hs.lastEnd_le.trans (hs.scanner.token.le.trans s.scanner.stop_le_start_scan)
  problems := hs.problems

/-- The name of a predicate lies in front of its `is`. -/
theorem StandsIn.commit_advance (hs : s.StandsIn source) : s.MovesIn source s.commit.advance := by
  have hadvance := hs.commit.advance
  refine ⟨hadvance.standsIn, hadvance.lastEnd_le, Or.inr ?_⟩
  exact s.scanner.stop_le_start_scan.trans s.scanner.start_le_stop_scan

theorem StandsIn.pass (hs : s.StandsIn source) :
    s.MovesIn source { s.commit with lastEnd := s.token.span.stop } where
  standsIn := {
    scanner := hs.scanner.scan
    lastEnd := hs.scanner.token.stop
    lastEnd_le := s.scanner.stop_le_start_scan
    problems := hs.problems }
  lastEnd_le := hs.lastEnd_le.trans hs.scanner.token.le
  moved := Or.inr (Nat.le_refl _)

theorem report_lastEnd (s : State) (rule : Rule) (args : List String) (span : Span) :
    (s.report rule args span).lastEnd = s.lastEnd := by
  obtain ⟨_, _, h⟩ := s.exists_report_eq rule args span
  rw [h]

theorem span_of_mem_report {rule : Rule} {args : List String} {span : Span} {d : Diagnostic}
    (hspan : span.start ≤ span.stop) (hd : d ∈ (s.report rule args span).problems) :
    d ∈ s.problems ∨ d.span = span := by
  unfold State.report at hd
  split at hd
  · exact Or.inl hd
  · split at hd
    · exact Or.inl hd
    · split at hd
      all_goals
        refine (List.mem_append.1 hd).imp_right fun hd ↦ ?_
        rw [List.mem_singleton.1 hd]
        exact Diagnostic.span_atSpan _ _ _ hspan

theorem StandsIn.report (hs : s.StandsIn source) (rule : Rule) (args : List String) :
    s.MovesIn source (s.report rule args s.token.span) := by
  have hscanner := s.report_scanner rule args s.token.span
  have htoken : (s.report rule args s.token.span).token = s.token := congrArg Scanner.token hscanner
  have hlastEnd := s.report_lastEnd rule args s.token.span
  refine ⟨⟨?_, ?_, ?_, fun d hd ↦ ?_⟩, hlastEnd.ge, Or.inl hscanner⟩
  · rw [hscanner]
    exact hs.scanner
  · rw [hlastEnd]
    exact hs.lastEnd
  · rw [hlastEnd, htoken]
    exact hs.lastEnd_le
  · rcases span_of_mem_report hs.scanner.token.le hd with hd | hd
    · exact hs.problems d hd
    · exact hd ▸ hs.scanner.token

theorem standsIn_ofSource (file source : String) : (ofSource file source).StandsIn source where
  scanner := (Scanner.standsIn_ofSource file source).scan
  lastEnd := (Scanner.standsIn_ofSource file source).token.start
  lastEnd_le := Nat.zero_le _
  problems := nofun

/-- Reading that stays in a source. -/
def staysIn (source : String) : Reading where
  steps s t := (∃ n, t.scanner = Scanner.scan^[n] s.scanner) ∧
    (s.StandsIn source → s.MovesIn source t)
  fails _ _ := True

theorem isReading_staysIn (source : String) : IsReading (staysIn source) where
  refl s := ⟨⟨0, rfl⟩, .refl⟩
  trans := fun ⟨⟨m, hm⟩, h⟩ ⟨⟨n, hn⟩, h'⟩ ↦
    ⟨⟨n + m, by rw [hn, hm, ← Function.iterate_add_apply]⟩,
      fun hs ↦ (h hs).trans (h' (h hs).standsIn)⟩
  trans_fails _ _ := trivial
  reaches h := h.1
  advance s := by
    obtain ⟨n, hn⟩ := scanUntil_eq_iterate (·.kind ≠ .directive) s.scanner
    exact ⟨⟨n + 1, hn⟩, StandsIn.advance⟩
  commit s := by
    obtain ⟨n, hn⟩ := scanUntil_eq_iterate (·.kind ≠ .directive) s.scanner.scan
    exact ⟨⟨n + 2, hn⟩, StandsIn.commit_advance⟩
  pass s := ⟨⟨1, rfl⟩, StandsIn.pass⟩
  report s rule args _ := ⟨⟨0, report_scanner rule args _⟩, fun hs ↦ hs.report rule args⟩
  refuse _ _ _ := trivial
  abandon s rule args _ := by
    refine ⟨⟨⟨0, report_scanner rule args _⟩, fun hs ↦ ?_⟩, trivial⟩
    obtain ⟨⟨hscanner, hlastEnd, hle, hproblems⟩, hlastEnd', hmoved⟩ := hs.report rule args
    exact ⟨⟨hscanner, hlastEnd, hle, hproblems⟩, hlastEnd', hmoved⟩
  stall _ _ _ h := by
    refine ⟨⟨h.1, fun hs ↦ ?_⟩, trivial⟩
    obtain ⟨⟨hscanner, hlastEnd, hle, hproblems⟩, hlastEnd', hmoved⟩ := h.2 hs
    exact ⟨⟨hscanner, hlastEnd, hle, hproblems⟩, hlastEnd', hmoved⟩

end State

theorem Keeps.movesIn {α : Type} {p : Parser α} {a : Option α} (h : Keeps (State.staysIn source) p)
    (hs : s.StandsIn source) (hrun : p s = (a, t)) : s.MovesIn source t := by
  have hsteps := (h.steps s).2 hs
  rwa [hrun] at hsteps

/-! ### Items -/

section Items

variable {α : Type} {isSeparator : TokenKind → Prop} [DecidablePred isSeparator] {item : Parser α}
  {recovery : Parser Unit} {R : State.Reading} {items items' : List α}

/-- What reading keeps and each item that is read keeps, a round of items keeps. -/
theorem invariant_itemRound (Inv : List α → State → Prop) (hR : State.IsReading R) (hp : Keeps R item)
    (hrecovery : Keeps R recovery) (hsteps : ∀ {items s t}, Inv items s → R.steps s t → Inv items t)
    (hitem : ∀ {items s a t}, Inv items s → item s = (some a, t) → Inv (items ++ [a]) t)
    (hs : Inv items s) (hrun : itemRound isSeparator item recovery items s = (some items', t)) :
    Inv items' t := by
  rw [itemRound_run] at hrun
  split at hrun
  · cases hrun
    exact hsteps hs (hR.advance s)
  · split at hrun
    · next a u hu =>
      cases hrun
      exact hitem hs hu
    · next u hu =>
      have hlost := hp.steps s
      rw [hu] at hlost
      obtain ⟨hanswer, rfl⟩ := Prod.mk.inj hrun
      obtain ⟨_, -, rfl⟩ := Option.map_eq_some_iff.1 hanswer
      exact hsteps hs (hR.trans hlost (hrecovery.steps u))

theorem invariant_items {goOn : State → Bool} (Inv : List α → State → Prop)
    (hR : State.IsReading R) (hp : Keeps R item) (hrecovery : Keeps R recovery)
    (hsteps : ∀ {items s t}, Inv items s → R.steps s t → Inv items t)
    (hitem : ∀ {items s a t}, Inv items s → item s = (some a, t) → Inv (items ++ [a]) t)
    (hs : Inv items s)
    (hrun : loopWhile goOn (itemRound isSeparator item recovery) items s = (some items', t)) :
    Inv items' t := by
  have hround : ∀ {items s items' t}, Inv items s →
      itemRound isSeparator item recovery items s = (some items', t) → Inv items' t :=
    fun hs hrun ↦ invariant_itemRound Inv hR hp hrecovery hsteps hitem hs hrun
  rw [loopWhile] at hrun
  fun_induction loop (whileRound goOn (itemRound isSeparator item recovery)) items s with
  | case1 items s s' hlast => cases hrun
  | case2 items s b s' hlast =>
    cases hrun
    rcases (whileRound_done hlast).2 with ⟨rfl, rfl⟩ | hread
    · exact hs
    · exact hround hs hread
  | case3 items s a' s' hnext hlt ih => exact ih (hround hs (whileRound_again hnext).2) hrun
  | case4 items s a' s' hnext hlt => cases hrun

end Items

/-! ### Members -/

variable {depth : Nat}

theorem span_of_member {type : Parser TypeExpr} {m : PlacedMember} (h : member type s = (some m, t)) :
    m.span = t.spanFrom s.token.span.start := by
  obtain ⟨start, s', hstart, h⟩ := exists_of_bind_run h
  cases hstart
  obtain ⟨form, u, -, h⟩ := exists_of_bind_run h
  obtain ⟨span, u', hspan, h⟩ := exists_of_bind_run h
  cases hspan
  obtain ⟨token, u', htoken, h⟩ := exists_of_bind_run h
  cases htoken
  dsimp only at h
  split at h
  · cases h
    rfl
  · cases h
    change u.spanFrom _ = (u.report _ _ _).spanFrom _
    unfold State.spanFrom
    rw [State.report_lastEnd]

/-- A member reaches from its first token to the last one that has been read. -/
theorem movesIn_member {m : PlacedMember} (hs : s.StandsIn source)
    (h : member (typeExpr depth) s = (some m, t)) :
    s.MovesIn source t ∧ m.span = ⟨s.token.span.start, t.lastEnd⟩ ∧ m.span.LiesIn source := by
  have hR := State.isReading_staysIn source
  have htype := keeps_typeExpr hR depth
  have hmoves := (keeps_member hR htype).movesIn hs h
  have hle : s.token.span.start ≤ t.lastEnd := by
    have hlt := takes_member hR htype s m (by rw [h]) trivial
    rw [h] at hlt
    rcases hmoves.moved with hsame | hmoved
    · have hremaining : t.remaining = s.remaining := congrArg Scanner.remaining hsame
      exact absurd hremaining hlt.ne
    · exact hs.scanner.token.le.trans hmoved
  have hspan : m.span = ⟨s.token.span.start, t.lastEnd⟩ := by
    rw [span_of_member h, State.spanFrom, max_eq_left hle]
  exact ⟨hmoves, hspan, hspan ▸ ⟨hs.scanner.token.start, hmoves.standsIn.lastEnd, hle⟩⟩

/-- Whether a reader that stands in a source has found items one behind the other there. -/
structure HasRead {α : Type} (source : String) (start : Nat) (span : α → Span) (items : List α)
    (s : State) : Prop where
  standsIn : s.StandsIn source
  start_le : start ≤ s.lastEnd
  runIn : Span.RunIn source start s.lastEnd (items.map span)

section HasRead

variable {α : Type} {start : Nat} {span : α → Span} {items : List α} {a : α}

theorem hasRead_nil (hs : s.StandsIn source) (hstart : start ≤ s.lastEnd) :
    HasRead source start span [] s := ⟨hs, hstart, .nil⟩

theorem HasRead.steps (h : HasRead source start span items s)
    (hsteps : (State.staysIn source).steps s t) : HasRead source start span items t := by
  have hmoves := hsteps.2 h.standsIn
  exact ⟨hmoves.standsIn, h.start_le.trans hmoves.lastEnd_le,
    h.runIn.widen (Nat.le_refl _) hmoves.lastEnd_le⟩

theorem HasRead.concat (h : HasRead source start span items s) (hmoves : s.MovesIn source t)
    (hspan : span a = ⟨s.token.span.start, t.lastEnd⟩) (hlies : (span a).LiesIn source) :
    HasRead source start span (items ++ [a]) t := by
  refine ⟨hmoves.standsIn, h.start_le.trans hmoves.lastEnd_le, ?_⟩
  have hrun := h.runIn.concat hlies (hspan ▸ h.start_le.trans h.standsIn.lastEnd_le)
    (hspan ▸ h.standsIn.lastEnd_le)
  rw [List.map_append, List.map_singleton]
  rwa [hspan] at hrun ⊢

end HasRead

/-- The members of a block run between its braces. -/
theorem runIn_memberBlock {ms : List PlacedMember} (hs : s.StandsIn source)
    (h : memberBlock (typeExpr depth) s = (some ms, t)) :
    Span.RunIn source s.token.span.start t.lastEnd (ms.map (·.span)) := by
  have hR := State.isReading_staysIn source
  have htype := keeps_typeExpr hR depth
  rw [memberBlock] at h
  obtain ⟨_, s', hopen, h⟩ := exists_of_bind_run h
  obtain ⟨ms', u, hloop, h⟩ := exists_of_bind_run h
  obtain ⟨found, t', hclose, h⟩ := exists_of_bind_run h
  cases h
  rw [require_run] at hopen
  split at hopen
  · cases hopen
    have hstart : HasRead source s.token.span.start PlacedMember.span [] s.advance :=
      hasRead_nil hs.advance.standsIn hs.scanner.token.le
    have hread := invariant_items (HasRead source s.token.span.start PlacedMember.span) hR
      (keeps_member hR htype) (keeps_recoverToMember hR) HasRead.steps
      (fun {ms s m t} hs hm ↦ ?_) hstart hloop
    · have hend := (keeps_expect hR .closeBrace).movesIn hread.standsIn hclose
      exact hread.runIn.widen (Nat.le_refl _) hend.lastEnd_le
    · obtain ⟨hmoves, hspan, hlies⟩ := movesIn_member hs.standsIn hm
      exact hs.concat hmoves hspan hlies
  · cases hopen

/-! ### Statements -/

/-- The members of an interface run between its name and the end of it. -/
theorem runIn_bodyOf? {isDeclared : Bool} {word : String} {body : Parser StatementBody}
    {b : StatementBody} (hbody : bodyOf? isDeclared word = some body) (hs : s.StandsIn source)
    (h : body s = (some b, t)) :
    Span.RunIn source s.token.span.start t.lastEnd (b.members.map (·.span)) := by
  have hR := State.isReading_staysIn source
  -- Only an interface has members.
  have hother : b.members = [] → Span.RunIn source s.token.span.start t.lastEnd
      (b.members.map (·.span)) := fun hnil ↦ by
    rw [hnil]
    exact .nil
  obtain rfl | rfl | rfl | ⟨kind, rfl⟩ := eq_of_bodyOf? hbody
  · obtain ⟨typeParams, s₁, hparams, h⟩ := exists_of_bind_run h
    obtain ⟨heritage, s₂, hheritage, h⟩ := exists_of_bind_run h
    obtain ⟨ms, u, hmembers, h⟩ := exists_of_bind_run h
    cases h
    have hfirst := (keeps_typeParams hR (keeps_outerType hR)).movesIn hs hparams
    have hsecond := (keeps_heritage hR).movesIn hfirst.standsIn hheritage
    have hle := (hfirst.trans hsecond).start_le hs
    exact (runIn_memberBlock hsecond.standsIn hmembers).widen hle (Nat.le_refl _)
  · obtain ⟨_, _, -, h⟩ := exists_of_bind_run h
    obtain ⟨_, _, -, h⟩ := exists_of_bind_run h
    obtain ⟨_, _, -, h⟩ := exists_of_bind_run h
    obtain ⟨_, _, -, h⟩ := exists_of_bind_run h
    cases h
    exact hother rfl
  · obtain ⟨_, _, -, h⟩ := exists_of_bind_run h
    obtain ⟨_, _, -, h⟩ := exists_of_bind_run h
    cases h
    exact hother rfl
  · obtain ⟨_, _, -, h⟩ := exists_of_bind_run h
    obtain ⟨_, _, -, h⟩ := exists_of_bind_run h
    cases h
    exact hother rfl

/-- A statement reaches from where it starts to the last token that has been read. -/
theorem isPlaced_declaration {start : Nat} {isDeclared : Bool} {st : Statement}
    (hs : s.StandsIn source) (hstart : String.Pos.Raw.IsValid source ⟨start⟩)
    (hle : start ≤ s.token.span.start) (h : declaration start isDeclared s = (some st, t)) :
    st.IsPlaced source ∧ st.span = ⟨start, t.lastEnd⟩ := by
  have hR := State.isReading_staysIn source
  obtain ⟨word, s', hword, h⟩ := exists_of_bind_run h
  cases hword
  cases hbody : bodyOf? isDeclared s.value with
  | some body =>
    rw [hbody] at h
    obtain ⟨_, s₁, hadvance, h⟩ := exists_of_bind_run h
    cases hadvance
    obtain ⟨name, s₂, hname, h⟩ := exists_of_bind_run h
    obtain ⟨hkind, rfl, rfl⟩ := eq_of_identifier hname
    obtain ⟨b, u, hb, h⟩ := exists_of_bind_run h
    obtain ⟨span, u', hspan, h⟩ := exists_of_bind_run h
    cases hspan
    have hfirst := hs.advance
    have hsecond := hfirst.standsIn.advance
    have hthird := (keeps_bodyOf? hR hbody).movesIn hsecond.standsIn hb
    obtain ⟨hnonempty, hslice⟩ := hfirst.standsIn.scanner.word hkind
    have hstart' : start ≤ s.advance.token.span.start := hle.trans (hfirst.start_le hs)
    have hstop : s.advance.token.span.stop ≤ u.lastEnd := hthird.lastEnd_le
    have hlt : start < u.lastEnd := hstart'.trans_lt (hnonempty.trans_le hstop)
    have hspan : u.spanFrom start = ⟨start, u.lastEnd⟩ := by
      rw [State.spanFrom, max_eq_left hlt.le]
    cases h
    dsimp only
    rw [hspan]
    have hname := hfirst.standsIn.scanner.token
    refine ⟨⟨⟨hstart, hthird.standsIn.lastEnd, hlt.le⟩, hlt, hname, hstart', hstop, hslice, ?_⟩, rfl⟩
    exact (runIn_bodyOf? hbody hsecond.standsIn hb).widen
      (hstart'.trans (hsecond.start_le hfirst.standsIn)) (Nat.le_refl _)
  | none =>
    rw [hbody] at h
    obtain ⟨_, _, -, h⟩ := exists_of_bind_run h
    cases h

theorem isPlaced_statement {st : Statement} (hs : s.StandsIn source)
    (h : statement s = (some st, t)) :
    st.IsPlaced source ∧ st.span = ⟨s.token.span.start, t.lastEnd⟩ := by
  have hstart := hs.scanner.token.start
  unfold statement at h
  obtain ⟨first, s', hfirst, h⟩ := exists_of_bind_run h
  cases hfirst
  split at h
  · dsimp only at h
    split at h
    · obtain ⟨_, s', hadvance, h⟩ := exists_of_bind_run h
      cases hadvance
      exact isPlaced_declaration hs.advance.standsIn hstart (hs.advance.start_le hs) h
    · exact isPlaced_declaration hs hstart (Nat.le_refl _) h
  · obtain ⟨_, _, -, h⟩ := exists_of_bind_run h
    cases h

/-- The statements of a file run from its start to its end. -/
theorem isPlaced_statements {ss : List Statement} (hs : s.StandsIn source)
    (h : statements s = (some ss, t)) :
    (∀ st ∈ ss, st.IsPlaced source) ∧ ss.Pairwise fun a b ↦ a.span.stop ≤ b.span.start := by
  have hR := State.isReading_staysIn source
  rw [statements] at h
  have hread := invariant_items
    (fun (ss : List Statement) s ↦ (∀ st ∈ ss, st.IsPlaced source) ∧
      HasRead source 0 Statement.span ss s)
    hR (keeps_statement hR) (keeps_recoverToStatement hR)
    (fun hs hsteps ↦ ⟨hs.1, hs.2.steps hsteps⟩) (fun {ss s st t} hs hst ↦ ?_)
    ⟨List.forall_mem_nil _, hasRead_nil hs (Nat.zero_le _)⟩ h
  · exact ⟨hread.1, List.pairwise_map.1 hread.2.runIn.order⟩
  · obtain ⟨hplaced, hspan⟩ := isPlaced_statement hs.2.standsIn hst
    have hmoves := (keeps_statement hR).movesIn hs.2.standsIn hst
    refine ⟨fun st' hst' ↦ ?_, hs.2.concat hmoves hspan hplaced.span⟩
    rcases List.mem_append.1 hst' with hst' | hst'
    · exact hs.1 st' hst'
    · exact List.mem_singleton.1 hst' ▸ hplaced

end Parser

/-! ### Files -/

theorem Token.span_of_directive? {token : Token} {d : Directive} (h : d ∈ token.directive?) :
    d.span = token.span := by
  unfold directive? at h
  split at h
  · unfold Directive.ofText? at h
    obtain ⟨_, -, rfl⟩ := Option.map_eq_some_iff.1 h
    rfl
  · cases h

theorem Scanner.StandsIn.directives {source : String} {s : Scanner} (h : s.StandsIn source) :
    ∀ d ∈ s.directives, d.span.LiesIn source := by
  fun_induction Scanner.directives s with
  | case1 s hkind ih =>
    intro d hd
    rcases List.mem_append.1 hd with hd | hd
    · rw [Token.span_of_directive? (Option.mem_toList.1 hd)]
      exact h.token
    · exact ih h.scan d hd
  | case2 s hkind => exact List.forall_mem_nil _

namespace Parser

/-- All that is read of a source stands where it is said to: directives, statements, names, members
and defects lie between two characters of it, statements run one behind the other, with the text of
their names and with their members inside, and no more defects are reported than the limit, in order. -/
theorem spans_are_sound (file source : String) : (SourceFile.parse file source).IsPlaced source := by
  have hR := State.isReading_staysIn source
  have hs := State.standsIn_ofSource file source
  obtain ⟨ds, s', ss, t, hdirectives, hstatements, hfile, -⟩ := exists_file (.ofSource file source)
  have hparse : SourceFile.parse file source = ⟨file, ds, ss, t.allProblems⟩ := by
    unfold SourceFile.parse
    rw [hfile]
    rfl
  have hs' := (keeps_directives hR).movesIn hs hdirectives
  have ht := (keeps_statements hR).movesIn hs'.standsIn hstatements
  obtain ⟨hplaced, horder⟩ := isPlaced_statements hs'.standsIn hstatements
  have hds : ds = (State.ofSource file source).scanner.directives := by
    have hanswer := directives_run (.ofSource file source)
    rw [hdirectives] at hanswer
    exact Option.some.inj hanswer
  rw [hparse]
  exact {
    directives := hds ▸ hs.scanner.directives
    statements := hplaced
    order := horder
    problems := fun d hd ↦ by
      have hmem := List.mem_mergeSort.1 (List.mem_of_mem_take hd)
      rcases List.mem_append.1 hmem with hd | hd
      · exact (ht.standsIn.scanner.problems d hd).1
      · exact ht.standsIn.problems d hd
    sorted := by
      refine List.Pairwise.sublist (List.take_sublist _ _) ?_
      refine (List.pairwise_mergeSort (fun a b c ↦ ?_) (fun a b ↦ ?_) _).imp fun {a b} h ↦ ?_
      · simpa using Nat.le_trans
      · simpa using Nat.le_total a.start b.start
      · simpa using h
    count := List.length_take_le _ _ }

end Parser
end TypeSurface
