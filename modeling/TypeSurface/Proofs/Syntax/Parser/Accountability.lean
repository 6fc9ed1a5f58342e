import Mathlib.Logic.Relation
import TypeSurface.Binding.File
import TypeSurface.Proofs.Syntax.Parser.Progress

/-!
# Nothing is dropped silently

Whoever gives up in the grammar leaves a defect behind, and so does whoever abandons a file.  Defects
are never taken back, so a file without errors has been read to its end, with no statement and no
member passed over.
-/

namespace TypeSurface

/-! ### Defects of tokens -/

theorem Lexeme.category_ofStringBody (quote : Char) (cs : List Char) :
    ∀ r ∈ (ofStringBody quote cs).problem, r.category = .error := by
  fun_induction ofStringBody quote cs with
  | case3 _ _ _ ih => exact ih
  | case6 _ _ _ _ _ _ _ ih => exact ih
  | _ => simp [Rule.category]

/-- The defect of a lexeme is an error. -/
theorem Lexeme.category_read (cs : List Char) : ∀ r ∈ (read cs).problem, r.category = .error := by
  unfold read
  split
  · simp
  · simp
  · simp
  · simp
  · next c cs _ _ _ =>
    split
    · exact category_ofStringBody c cs
    split
    · simp [ofText]
    split
    · simp [ofIdentifier, ofText]
    · unfold ofSymbol
      split
      · simp
      · simp [Rule.category]

namespace Scanner

def HasErrorsOnly (s : Scanner) : Prop := ∀ d ∈ s.problems, d.isError = true

theorem HasErrorsOnly.scan {s : Scanner} (h : s.HasErrorsOnly) : s.scan.HasErrorsOnly := by
  have htrivia : ∀ file stop trivia, ∀ d ∈ triviaProblems file stop trivia, d.isError = true := by
    intro file stop trivia d hd
    unfold triviaProblems at hd
    split at hd
    · exact List.mem_singleton.1 hd ▸ rfl
    · cases hd
  have hlexeme : ∀ file start cs, ∀ d ∈ lexemeProblems file start (Lexeme.read cs),
      d.isError = true := by
    intro file start cs d hd
    unfold lexemeProblems at hd
    split at hd
    · next rule hrule =>
      have hcategory := Lexeme.category_read cs rule hrule
      rw [List.mem_singleton.1 hd]
      simp [Diagnostic.isError, Diagnostic.ofRule, hcategory]
    · cases hd
  intro d hd
  simp only [Scanner.scan, List.mem_append] at hd
  rcases hd with hd | hd | hd
  · exact h d hd
  · exact htrivia _ _ _ d hd
  · exact hlexeme _ _ _ d hd

theorem HasErrorsOnly.iterate_scan {s : Scanner} (h : s.HasErrorsOnly) (n : Nat) :
    (Scanner.scan^[n] s).HasErrorsOnly := by
  induction n generalizing s with
  | zero => exact h
  | succ n ih => exact ih h.scan

end Scanner

namespace Parser

namespace State

/-! ### Steps of reading -/

/-- One step of reading. -/
inductive Goes : State → State → Prop where
  | advance (s : State) : Goes s s.advance
  | commit (s : State) (stop : Nat) : Goes s { s.commit with lastEnd := stop }
  | report (s : State) {rule : Rule} (args : List String) (span : Span)
      (hrule : rule.category = .error) : Goes s (s.report rule args span)
  | abandon (s : State) {rule : Rule} (args : List String) (span : Span)
      (hrule : rule.category = .error) : Goes s (s.report rule args span).abandon
  | stall (s : State) (place : Scanner) : Goes s (s.stall place)

/-- Some steps of reading lead from the one state to the other. -/
def Reaches : State → State → Prop := Relation.ReflTransGen Goes

/-- Whether there is a defect if the file has been abandoned. -/
def IsAccountable (s : State) : Prop := s.isAbandoned = true → s.problems ≠ []

section Report

variable {s : State} {rule : Rule} {args : List String} {span : Span}

/-- A report adds one defect, an error if the rule is for errors, or there was one already. -/
theorem report_problems (rule : Rule) (args : List String) (span : Span) :
    (s.report rule args span).problems = s.problems ∧ (s.isAbandoned = true ∨ s.problems ≠ []) ∨
      ∃ d, (s.report rule args span).problems = s.problems ++ [d] ∧
        (rule.category = .error → d.isError = true) := by
  unfold State.report
  split
  · next habandoned => exact Or.inl ⟨rfl, Or.inl habandoned⟩
  · split
    · next hlast =>
      refine Or.inl ⟨rfl, Or.inr fun hnil ↦ ?_⟩
      rw [hnil] at hlast
      cases hlast
    · split
      · exact Or.inr ⟨_, rfl, fun _ ↦ rfl⟩
      · exact Or.inr ⟨_, rfl, fun hrule ↦ by simp [Diagnostic.atSpan, Diagnostic.ofRule,
          Diagnostic.isError, hrule]⟩

theorem report_ne_nil (h : s.IsAccountable) : (s.report rule args span).problems ≠ [] := by
  rcases s.report_problems rule args span with ⟨hsame, habandoned | hne⟩ | ⟨d, hd, -⟩
  · rw [hsame]
    exact h habandoned
  · rw [hsame]
    exact hne
  · rw [hd]
    exact List.concat_ne_nil d s.problems

theorem problems_isPrefix_report : s.problems <+: (s.report rule args span).problems := by
  rcases s.report_problems rule args span with ⟨hsame, -⟩ | ⟨d, hd, -⟩
  · exact hsame ▸ List.prefix_rfl
  · exact ⟨[d], hd.symm⟩

end Report

namespace Goes

variable {s t : State}

theorem problems_isPrefix (h : s.Goes t) : s.problems <+: t.problems := by
  cases h with
  | report | abandon => exact problems_isPrefix_report
  | _ => exact List.prefix_rfl

theorem reaches_scanner (h : s.Goes t) : ∃ n, t.scanner = Scanner.scan^[n] s.scanner := by
  cases h with
  | advance =>
    obtain ⟨n, hn⟩ := scanUntil_eq_iterate (·.kind ≠ .directive) s.scanner
    exact ⟨n + 1, hn⟩
  | commit => exact ⟨1, rfl⟩
  | report | abandon => exact ⟨0, report_scanner _ _ _⟩
  | stall => exact ⟨0, rfl⟩

theorem not_stalled (h : s.Goes t) (ht : t.stalledAt = none) : s.stalledAt = none := by
  cases h with
  | report | abandon => exact (report_stalledAt _ _ _).symm.trans ht
  | stall => cases ht
  | _ => exact ht

theorem isAccountable (h : s.Goes t) (ht : t.stalledAt = none) (hs : s.IsAccountable) :
    t.IsAccountable := by
  cases h with
  | report | abandon => exact fun _ ↦ report_ne_nil hs
  | stall => cases ht
  | _ => exact hs

theorem isError (h : s.Goes t) (hs : ∀ d ∈ s.problems, d.isError = true) :
    ∀ d ∈ t.problems, d.isError = true := by
  cases h with
  | report args span hrule | abandon args span hrule =>
    intro d hd
    rcases s.report_problems _ args span with ⟨hsame, -⟩ | ⟨e, he, herror⟩
    · exact hs d (hsame ▸ hd)
    · rcases List.mem_append.1 (he ▸ hd) with hd | hd
      · exact hs d hd
      · exact List.mem_singleton.1 hd ▸ herror hrule
  | _ => exact hs

end Goes

namespace Reaches

variable {s t : State}

theorem problems_isPrefix (h : s.Reaches t) : s.problems <+: t.problems := by
  induction h with
  | refl => exact List.prefix_rfl
  | tail _ hstep ih => exact ih.trans hstep.problems_isPrefix

theorem reaches_scanner (h : s.Reaches t) : ∃ n, t.scanner = Scanner.scan^[n] s.scanner := by
  induction h with
  | refl => exact ⟨0, rfl⟩
  | tail _ hstep ih =>
    obtain ⟨m, hm⟩ := ih
    obtain ⟨n, hn⟩ := hstep.reaches_scanner
    exact ⟨n + m, by rw [hn, hm, ← Function.iterate_add_apply]⟩

theorem not_stalled (h : s.Reaches t) (ht : t.stalledAt = none) : s.stalledAt = none := by
  induction h with
  | refl => exact ht
  | tail _ hstep ih => exact ih (hstep.not_stalled ht)

theorem isAccountable (h : s.Reaches t) (ht : t.stalledAt = none) (hs : s.IsAccountable) :
    t.IsAccountable := by
  induction h with
  | refl => exact hs
  | tail _ hstep ih => exact hstep.isAccountable ht (ih (hstep.not_stalled ht))

theorem isError (h : s.Reaches t) (hs : ∀ d ∈ s.problems, d.isError = true) :
    ∀ d ∈ t.problems, d.isError = true := by
  induction h with
  | refl => exact hs
  | tail _ hstep ih => exact hstep.isError ih

/-- Defects are never taken back. -/
theorem ne_nil (h : s.Reaches t) (hs : s.problems ≠ []) : t.problems ≠ [] :=
  fun hnil ↦ hs (List.prefix_nil.1 (hnil ▸ h.problems_isPrefix))

end Reaches

/-- Reading that stays accountable, and leaves a defect behind where it gives up. -/
def accounts : Reading where
  steps s t := s.Reaches t ∧ (s.IsAccountable → t.IsAccountable)
  fails s t := s.IsAccountable → t.problems ≠ []

theorem isReading_accounts : IsReading accounts where
  refl s := ⟨.refl, id⟩
  trans h h' := ⟨h.1.trans h'.1, h'.2 ∘ h.2⟩
  trans_fails h h' := h' ∘ h.2
  reaches h := h.1.reaches_scanner
  advance s := ⟨.single (.advance s), id⟩
  commit s := ⟨.tail (.single (.commit s s.lastEnd)) (.advance s.commit), id⟩
  pass s := ⟨.single (.commit s s.token.span.stop), id⟩
  report s rule args hrule :=
    ⟨.single (.report s args _ hrule), fun hs _ ↦ report_ne_nil hs⟩
  refuse _ _ _ hs := report_ne_nil hs
  abandon s rule args hrule :=
    ⟨⟨.single (.abandon s args _ hrule), fun hs _ ↦ report_ne_nil hs⟩, report_ne_nil⟩
  stall {depth s t} _ hfails hsteps h := by
    have hne : s.IsAccountable → t.problems ≠ [] := fun hs ↦ hsteps.1.ne_nil (hfails hs)
    exact ⟨⟨h.1.tail (.stall t s.scanner), fun hs _ ↦ hne hs⟩, hne⟩

end State

open State

/-! ### Items one behind the other -/

section Items

variable {α : Type} (isSeparator : TokenKind → Prop) (item : Parser α)

/-- From the one state to the other there are these items, with separators between them and nothing
else. -/
inductive ItemsRead : State → List α → State → Prop where
  | done (s : State) : ItemsRead s [] s
  | separator {s t : State} {as : List α} (hkind : isSeparator s.kind)
      (h : ItemsRead s.advance as t) : ItemsRead s as t
  | item {s s' t : State} {a : α} {as : List α} (hkind : ¬isSeparator s.kind)
      (hitem : item s = (some a, s')) (h : ItemsRead s' as t) : ItemsRead s (a :: as) t

variable {isSeparator item} [DecidablePred isSeparator] {recovery : Parser Unit} {items : List α}
  {s : State}

/-- A round that leaves no defect has read an item or a separator. -/
theorem itemsRead_of_itemRound (hitem : Keeps accounts item) (hrecovery : Keeps accounts recovery)
    (hs : s.IsAccountable) {items' : List α} {s' : State}
    (hrun : itemRound isSeparator item recovery items s = (some items', s'))
    (hclean : s'.problems = []) :
    ∃ as, items' = items ++ as ∧
      ∀ bs t, ItemsRead isSeparator item s' bs t → ItemsRead isSeparator item s (as ++ bs) t := by
  rw [itemRound_run] at hrun
  split at hrun
  · next hkind =>
    cases hrun
    exact ⟨[], (List.append_nil items).symm, fun bs t h ↦ .separator hkind h⟩
  · next hkind =>
    split at hrun
    · next a u hu =>
      cases hrun
      exact ⟨[a], rfl, fun bs t h ↦ .item hkind hu h⟩
    · next u hu =>
      have hne : u.problems ≠ [] := by
        have hfails := hitem.fails s
        rw [hu] at hfails
        exact hfails rfl hs
      have hsame := congrArg Prod.snd hrun
      obtain rfl : (recovery u).2 = s' := hsame
      exact absurd hclean ((hrecovery.steps u).1.ne_nil hne)

theorem itemsRead_of_loop {goOn : State → Bool} (hitem : Keeps accounts item)
    (hrecovery : Keeps accounts recovery)
    (hmoves : ∀ items s, goOn s = true → Moves (itemRound isSeparator item recovery items) s ∨
      ∃ depth, IsExcused accounts depth s (itemRound isSeparator item recovery items s).2)
    (items : List α) (s : State) (hs : s.IsAccountable)
    (hclean : (loopWhile goOn (itemRound isSeparator item recovery) items s).2.problems = []) :
    ∃ as t, loopWhile goOn (itemRound isSeparator item recovery) items s =
        (some (items ++ as), t) ∧ ItemsRead isSeparator item s as t ∧ goOn t = false := by
  have hround : ∀ items, Keeps accounts (itemRound isSeparator item recovery items) :=
    keeps_itemRound isReading_accounts hitem hrecovery
  have hwhile : ∀ items, Keeps accounts (whileRound goOn (itemRound isSeparator item recovery) items) :=
    keeps_whileRound isReading_accounts hround
  rw [loopWhile] at hclean ⊢
  fun_induction loop (whileRound goOn (itemRound isSeparator item recovery)) items s with
  | case1 items s s' hrun =>
    have hfails := (hwhile items).fails s
    rw [hrun] at hfails
    exact absurd hclean (hfails rfl hs)
  | case2 items s items' s' hrun =>
    obtain ⟨hends, ⟨rfl, rfl⟩ | hread⟩ := whileRound_done hrun
    · exact ⟨[], s', by rw [List.append_nil], .done s', hends⟩
    · obtain ⟨as, rfl, htail⟩ := itemsRead_of_itemRound hitem hrecovery hs hread hclean
      refine ⟨as, s', rfl, ?_, hends⟩
      have hall := htail [] s' (.done s')
      rwa [List.append_nil] at hall
  | case3 items s items' s' hrun hlt ih =>
    have hsteps := (hwhile items).steps s
    rw [hrun] at hsteps
    have hloop := keeps_loopWhile isReading_accounts hround
      (fun items s hgoOn ↦ (hmoves items s hgoOn).imp_left Moves.takes) items'
    have hclean' : s'.problems = [] := by
      by_contra hne
      exact (hloop.steps s').1.ne_nil hne hclean
    obtain ⟨-, hread⟩ := whileRound_again hrun
    obtain ⟨as, rfl, htail⟩ := itemsRead_of_itemRound hitem hrecovery hs hread hclean'
    obtain ⟨bs, t, hrest, hitems, hends⟩ := ih (hsteps.2 hs) hclean
    exact ⟨as ++ bs, t, by rw [hrest, List.append_assoc], htail bs t hitems, hends⟩
  | case4 items s items' s' hrun hlt =>
    obtain ⟨hgoOn, hread⟩ := whileRound_again hrun
    have hend : (itemRound isSeparator item recovery items s).2 = s' := by rw [hread]
    rcases hmoves items s hgoOn with hmoved | ⟨depth, hexcused⟩
    · exact absurd (hend ▸ hmoved) hlt
    · rw [hend] at hexcused
      exact absurd hclean (hexcused.steps.1.ne_nil (hexcused.fails hs))

end Items

theorem exists_of_bind_run {α β : Type} {p : Parser α} {f : α → Parser β} {s t : State} {b : β}
    (h : (p >>= f) s = (some b, t)) : ∃ a s', p s = (some a, s') ∧ f a s' = (some b, t) := by
  rw [bind_run] at h
  split at h
  · next a s' hp => exact ⟨a, s', hp, h⟩
  · cases h

/-! ### Blocks and files -/

theorem itemsRead_of_block {depth : Nat} {s : State} (hs : s.IsAccountable)
    (hclean : (loopWhile isInBlock (blockRound (typeExpr depth)) [] s).2.problems = []) :
    ∃ ms t, loopWhile isInBlock (blockRound (typeExpr depth)) [] s = (some ms, t) ∧
      ItemsRead IsMemberSeparator (member (typeExpr depth)) s ms t ∧ isInBlock t = false := by
  have hR := isReading_accounts
  have htype := keeps_typeExpr hR depth
  refine itemsRead_of_loop (keeps_member hR htype) (keeps_recoverToMember hR) (fun ms s hs ↦ ?_) [] s
    hs hclean
  exact (moves_blockRound hR htype ms hs).imp_right fun h ↦ ⟨depth, h⟩

/-- A block that leaves no defect holds its members and nothing else. -/
theorem itemsRead_of_memberBlock {depth : Nat} {s t : State} {ms : List PlacedMember}
    (hs : s.IsAccountable) (hrun : memberBlock (typeExpr depth) s = (some ms, t))
    (hclean : t.problems = []) :
    s.kind = .openBrace ∧ ∃ u, ItemsRead IsMemberSeparator (member (typeExpr depth)) s.advance ms u ∧
      u.kind = .closeBrace ∧ t = u.advance := by
  rw [memberBlock] at hrun
  obtain ⟨_, s', hopen, hrun⟩ := exists_of_bind_run hrun
  obtain ⟨ms', u, hloop, hrun⟩ := exists_of_bind_run hrun
  obtain ⟨found, t', hclose, hrun⟩ := exists_of_bind_run hrun
  cases hrun
  rw [require_run] at hopen
  split at hopen
  · next hkind =>
    cases hopen
    have hR := isReading_accounts
    have hu : u.IsAccountable := by
      have hsteps := (keeps_blockLoop hR (keeps_typeExpr hR depth)).steps s.advance
      rw [hloop] at hsteps
      exact hsteps.2 hs
    rw [expect_run] at hclose
    split at hclose
    · next hbrace =>
      cases hclose
      have hs' : s.advance.IsAccountable := hs
      have hclean' :
          (loopWhile isInBlock (blockRound (typeExpr depth)) [] s.advance).2.problems = [] := by
        rw [hloop]
        exact hclean
      obtain ⟨ms', u', hrun, hitems, -⟩ := itemsRead_of_block hs' hclean'
      rw [hloop] at hrun
      cases hrun
      exact ⟨hkind, u, hitems, hbrace, rfl⟩
    · cases hclose
      exact absurd hclean (report_ne_nil hu)
  · cases hopen

/-- Behind the directives of a file that leaves no defect there are its statements and nothing
else. -/
theorem itemsRead_of_statements {s : State} (hs : s.IsAccountable)
    (hclean : (statements s).2.problems = []) :
    ∃ ss t, statements s = (some ss, t) ∧ ItemsRead (· = .semicolon) statement s ss t ∧
      isInFile t = false := by
  have hR := isReading_accounts
  rw [statements] at hclean ⊢
  refine itemsRead_of_loop (keeps_statement hR) (keeps_recoverToStatement hR) (fun ss s hs ↦ ?_) [] s
    hs hclean
  exact Or.inl (moves_fileRound hR ss hs)

/-- Whether the parser leaves a defect behind if it gives up. -/
def Reports {α : Type} (p : Parser α) (s : State) : Prop := (p s).1 = none → (p s).2.problems ≠ []

theorem Keeps.reports {α : Type} {p : Parser α} {s : State} (h : Keeps accounts p)
    (hs : s.IsAccountable) : Reports p s :=
  fun hnone ↦ h.fails s hnone hs

/-- Whether whatever goes wrong at a state leaves a defect behind. -/
structure State.ReportsAll (s : State) : Prop where
  statement : Reports statement s
  member : ∀ depth, Reports (member (typeExpr depth)) s
  propertyName : Reports propertyName s
  identifier : Reports identifier s
  memberSignature : ∀ depth, Reports (memberSignature (typeExpr depth)) s
  arrowSignature : ∀ depth, Reports (arrowSignature (typeExpr depth)) s
  typeReference : ∀ depth, Reports (typeReference (typeExpr depth)) s
  /-- Among others at the bracket of a tuple. -/
  primaryType : ∀ depth, Reports (primaryType (typeExpr depth)) s
  type : ∀ depth, Reports (typeExpr depth) s
  expect : ∀ kind, (expect kind s).1 = some false → (expect kind s).2.problems ≠ []
  abandoned : s.isAbandoned = true → s.problems ≠ []

theorem State.IsAccountable.reportsAll {s : State} (hs : s.IsAccountable) : s.ReportsAll := by
  have hR := isReading_accounts
  have htype := keeps_typeExpr hR
  exact {
    statement := (keeps_statement hR).reports hs
    member := fun depth ↦ (keeps_member hR (htype depth)).reports hs
    propertyName := (keeps_propertyName hR).reports hs
    identifier := (keeps_identifier hR).reports hs
    memberSignature := fun depth ↦ (keeps_memberSignature hR (htype depth)).reports hs
    arrowSignature := fun depth ↦ (keeps_arrowSignature hR (htype depth)).reports hs
    typeReference := fun depth ↦ (keeps_typeReference hR (htype depth)).reports hs
    primaryType := fun depth ↦ (keeps_primaryType hR (htype depth)).reports hs
    type := fun depth ↦ (htype depth).reports hs
    expect := fun kind hfalse ↦ by
      rw [expect_run] at hfalse ⊢
      split at hfalse
      · cases hfalse
      · next hkind =>
        rw [if_neg hkind]
        exact report_ne_nil hs
    abandoned := hs }

/-! ### Whole files -/

section File

variable (file source : String)

/-- Where the reading of a source ends. -/
def finalState : State := (Parser.file (.ofSource file source)).2

/-- The states on the way through a source. -/
def IsOnTheWay (s : State) : Prop :=
  (State.ofSource file source).Reaches s ∧ s.Reaches (finalState file source)

/-- Whether a source has been read from its directives to its end, and every block from brace to
brace, with nothing passed over. -/
structure IsReadThrough : Prop where
  statements : ∃ ds s, directives (.ofSource file source) = (some ds, s) ∧
    ItemsRead (· = .semicolon) statement s (SourceFile.parse file source).statements
      (finalState file source)
  ending : (finalState file source).kind = .endOfFile
  blocks : ∀ s depth ms t, IsOnTheWay file source s →
    memberBlock (typeExpr depth) s = (some ms, t) → t.Reaches (finalState file source) →
      s.kind = .openBrace ∧
        ∃ u, ItemsRead IsMemberSeparator (member (typeExpr depth)) s.advance ms u ∧
          u.kind = .closeBrace ∧ t = u.advance

end File

variable {file source : String}

theorem accounts_finalState :
    accounts.steps (.ofSource file source) (finalState file source) :=
  (keeps_file isReading_accounts).steps (.ofSource file source)

theorem isAccountable_ofSource : (State.ofSource file source).IsAccountable := nofun

theorem problems_parse :
    (SourceFile.parse file source).problems = (finalState file source).allProblems := rfl

theorem isError_allProblems : ∀ d ∈ (finalState file source).allProblems, d.isError = true := by
  have hreaches : (State.ofSource file source).Reaches (finalState file source) :=
    accounts_finalState.1
  intro d hd
  have hmem := List.mem_mergeSort.1 (List.mem_of_mem_take hd)
  rcases List.mem_append.1 hmem with hd | hd
  · obtain ⟨n, hn⟩ := hreaches.reaches_scanner
    have hstart : (Scanner.ofSource file source).HasErrorsOnly := List.forall_mem_nil _
    rw [hn] at hd
    exact hstart.scan.iterate_scan n d hd
  · exact hreaches.isError (List.forall_mem_nil _) d hd

/-- A file has no errors exactly if no defect is left where its reading ends. -/
theorem hasErrors_eq_false_iff :
    (SourceFile.parse file source).hasErrors = false ↔
      (finalState file source).scanner.problems = [] ∧ (finalState file source).problems = [] := by
  have hempty : (SourceFile.parse file source).hasErrors = false ↔
      (finalState file source).allProblems = [] := by
    unfold SourceFile.hasErrors
    rw [problems_parse, List.any_eq_false]
    constructor
    · intro hno
      refine List.eq_nil_iff_forall_not_mem.2 fun d hd ↦ hno d hd (isError_allProblems d hd)
    · intro hnil d hd
      rw [hnil] at hd
      cases hd
  have hsorted : ∀ ds : List Diagnostic, ds.mergeSort (·.start ≤ ·.start) = [] ↔ ds = [] :=
    fun ds ↦ by rw [← List.length_eq_zero_iff, List.length_mergeSort, List.length_eq_zero_iff]
  rw [hempty, State.allProblems, List.take_eq_nil_iff, hsorted, List.append_eq_nil_iff]
  simp [maxProblems]

theorem hasErrors_of_problems {s : State} (h : IsOnTheWay file source s) (hs : s.problems ≠ []) :
    (SourceFile.parse file source).hasErrors = true := by
  by_contra hno
  exact h.2.ne_nil hs (hasErrors_eq_false_iff.1 (Bool.eq_false_iff.2 hno)).2

theorem isAccountable_of_isOnTheWay (hstalls : SourceFile.stalls file source = false) {s : State}
    (h : IsOnTheWay file source s) : s.IsAccountable := by
  have hend : (finalState file source).stalledAt = none := by
    simpa [SourceFile.stalls, finalState] using hstalls
  exact h.1.isAccountable (h.2.not_stalled hend) isAccountable_ofSource

theorem isReadThrough_of_not_hasErrors (hstalls : SourceFile.stalls file source = false)
    (h : (SourceFile.parse file source).hasErrors = false) : IsReadThrough file source := by
  have hR := isReading_accounts
  have hclean : (finalState file source).problems = [] := (hasErrors_eq_false_iff.1 h).2
  obtain ⟨⟨ds, ss⟩, hfile⟩ : ∃ result, Parser.file (.ofSource file source) =
      (some result, finalState file source) := by
    cases hresult : (Parser.file (.ofSource file source)).1 with
    | none => exact absurd hclean ((keeps_file hR).fails _ hresult isAccountable_ofSource)
    | some result => exact ⟨result, Prod.ext hresult rfl⟩
  obtain ⟨_, s, hdirectives, hrun⟩ := exists_of_bind_run hfile
  obtain ⟨_, t, hstatements, hrun⟩ := exists_of_bind_run hrun
  cases hrun
  have hs : s.IsAccountable := by
    have hsteps := (keeps_directives hR).steps (.ofSource file source)
    rw [hdirectives] at hsteps
    exact hsteps.2 isAccountable_ofSource
  obtain ⟨ss', t, hread, hitems, hends⟩ := itemsRead_of_statements hs (by rw [hstatements]; exact hclean)
  rw [hstatements] at hread
  cases hread
  have hparsed : (SourceFile.parse file source).statements = ss := by
    unfold SourceFile.parse
    rw [hfile]
    rfl
  refine ⟨⟨ds, s, hdirectives, hparsed ▸ hitems⟩, ?_, ?_⟩
  · have hkept : (finalState file source).isAbandoned = false :=
      Bool.eq_false_iff.2 fun habandoned ↦
        accounts_finalState.2 isAccountable_ofSource habandoned hclean
    simpa [isInFile, hkept] using hends
  · intro u depth ms v hu hblock hv
    have hv' : v.problems = [] := by
      by_contra hne
      exact hv.ne_nil hne hclean
    exact itemsRead_of_memberBlock (isAccountable_of_isOnTheWay hstalls hu) hblock hv'

theorem hasErrors_of_parse {S : DeclarationSet} (h : DeclarationSet.parse file source = .ok S) :
    (SourceFile.parse file source).hasErrors = false := by
  unfold DeclarationSet.parse DeclarationSet.ofSourceFile at h
  dsimp only at h
  -- The header is only read for the context.
  split at h
  all_goals
    split at h
    · next hproblems =>
      simp only [List.isEmpty_iff, List.append_eq_nil_iff, List.filter_eq_nil_iff] at hproblems
      exact List.any_eq_false.2 hproblems.1.1.1
    · cases h

/-- If the reading of a source ends, then nothing has been dropped silently on the way: whatever
gave up has left a defect, every defect on the way makes the file one with errors, and a file without
errors, as a bound one is, has been read through. -/
theorem nothing_is_dropped_silently (file source : String)
    (hstalls : SourceFile.stalls file source = false) :
    (∀ s, IsOnTheWay file source s → s.ReportsAll) ∧
      (∀ s, IsOnTheWay file source s → s.problems ≠ [] →
        (SourceFile.parse file source).hasErrors = true) ∧
      ((SourceFile.parse file source).hasErrors = false → IsReadThrough file source) ∧
      ∀ S, DeclarationSet.parse file source = .ok S →
        (SourceFile.parse file source).hasErrors = false := by
  refine ⟨fun s hs ↦ ?_, fun s ↦ hasErrors_of_problems, isReadThrough_of_not_hasErrors hstalls,
    fun S ↦ hasErrors_of_parse⟩
  exact (isAccountable_of_isOnTheWay hstalls hs).reportsAll

/-- An interface with a method, and an alias behind it. -/
def boxSource : String := "interface Box \x7b at(i: int): Box \x7d type Boxes = Box[];"

theorem nothing_is_dropped_silently_box :
    SourceFile.stalls "box.d.ts" boxSource = false ∧
      (SourceFile.parse "box.d.ts" boxSource).hasErrors = false ∧
      (State.ofSource "box.d.ts" boxSource).ReportsAll ∧ IsReadThrough "box.d.ts" boxSource := by
  have hstalls : SourceFile.stalls "box.d.ts" boxSource = false := by decide +kernel
  have herrors : (SourceFile.parse "box.d.ts" boxSource).hasErrors = false := by decide +kernel
  obtain ⟨hreports, -, hread, -⟩ := nothing_is_dropped_silently "box.d.ts" boxSource hstalls
  exact ⟨hstalls, herrors, hreports _ ⟨.refl, accounts_finalState.1⟩, hread herrors⟩

end Parser
end TypeSurface
