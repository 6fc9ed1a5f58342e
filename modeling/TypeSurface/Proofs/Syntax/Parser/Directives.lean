import TypeSurface.Proofs.Syntax.Parser.Progress

/-!
# The head of a file

The directives of a file are those of the lines of three slashes that it starts with.  What they say
depends on the text alone, not on the name of the file.
-/

namespace TypeSurface

/-- The directive that a line of three slashes holds. -/
def Token.directive? (token : Token) : Option Directive :=
  if token.value.toList.head? = some '<' then Directive.ofText? token.value token.span else none

namespace Scanner

/-- The directives from the current token on, up to the first token of another kind. -/
def directives (s : Scanner) : List Directive :=
  if _h : s.token.kind = .directive then s.token.directive?.toList ++ s.scan.directives else []
termination_by s.remaining
decreasing_by
  apply remaining_scan_lt
  rw [_h]
  decide

theorem directives_of_kind {s : Scanner} (h : s.token.kind = .directive) :
    s.directives = s.token.directive?.toList ++ s.scan.directives := by
  rw [directives, dif_pos h]

theorem directives_of_kind_ne {s : Scanner} (h : s.token.kind ≠ .directive) :
    s.directives = [] := by
  rw [directives, dif_neg h]

theorem scan_congr {s u : Scanner} (hahead : s.ahead = u.ahead) (htoken : s.token = u.token) :
    s.scan.ahead = u.scan.ahead ∧ s.scan.token = u.scan.token := by
  unfold scan
  rw [hahead, htoken]
  exact ⟨rfl, rfl⟩

/-- Scanners at the same token of the same text find the same directives. -/
theorem directives_congr {s u : Scanner} (hahead : s.ahead = u.ahead) (htoken : s.token = u.token) :
    s.directives = u.directives := by
  fun_induction directives s generalizing u with
  | case1 s hkind ih =>
    obtain ⟨hahead', htoken'⟩ := scan_congr hahead htoken
    rw [htoken] at hkind
    rw [@directives_of_kind u hkind, ih hahead' htoken', htoken]
  | case2 s hkind =>
    rw [htoken] at hkind
    rw [directives_of_kind_ne hkind]

end Scanner

namespace Parser

/-- A round passes over a directive and keeps what it says. -/
theorem directiveRound_of_kind {s : State} (found : List Directive)
    (h : s.token.kind = .directive) :
    ∃ s', directiveRound found s = (some (.again (found ++ s.token.directive?.toList)), s') ∧
      s'.scanner = s.scanner.scan := by
  unfold directiveRound Token.directive?
  simp only [bind_run, view, h, if_true]
  split
  · cases Directive.ofText? s.token.value s.token.span with
    | some d => exact ⟨_, rfl, rfl⟩
    | none => exact ⟨_, rfl, congrArg Scanner.scan (State.report_scanner ..)⟩
  · exact ⟨_, rfl, rfl⟩

theorem directiveRound_of_kind_ne {s : State} (found : List Directive)
    (h : s.token.kind ≠ .directive) : directiveRound found s = (some (.done found), s) := by
  unfold directiveRound
  rw [bind_run]
  dsimp only [view]
  rw [if_neg h]
  rfl

/-- A file that starts with pieces has no directives, and is read from the first piece on. -/
theorem directives_of_lexes {source : String} {p : Piece} {ps : List Piece} (file : String)
    (h : Lexes source.toList (p :: ps)) :
    directives (.ofSource file source) = (some [], .ofSource file source) ∧
      (State.ofSource file source).At (p :: ps) := by
  obtain ⟨rest, hhead, htail⟩ := h
  obtain ⟨hmatches, hahead, hsame⟩ :=
    Scanner.scan_of_heads (s := Scanner.ofSource file source) hhead
  refine ⟨?_, ?_, hahead ▸ htail, rfl, hsame, rfl⟩
  · have hkind : (State.ofSource file source).token.kind ≠ .directive :=
      hmatches.kind ▸ hhead.kind
    rw [directives, loop, directiveRound_of_kind_ne [] hkind]
  · intro q hq
    cases hq
    exact hmatches

theorem loop_directiveRound (found : List Directive) (s : State) :
    (loop directiveRound found s).1 = some (found ++ s.scanner.directives) := by
  -- The loop has no recursion of its own to follow here, but its rounds come nearer to the end.
  induction hn : s.remaining using Nat.strong_induction_on generalizing found s with
  | _ n ih =>
    subst hn
    by_cases hkind : s.token.kind = .directive
    · obtain ⟨s', hround, hscanner⟩ := directiveRound_of_kind found hkind
      have hlt : s'.remaining < s.remaining := by
        have hends := State.kind_ne_endOfFile hkind (by decide)
        simpa only [State.remaining, hscanner] using Scanner.remaining_scan_lt hends
      rw [loop, hround]
      dsimp only
      rw [if_pos hlt, ih _ hlt _ _ rfl, hscanner, Scanner.directives_of_kind hkind,
        List.append_assoc]
      rfl
    · rw [loop, directiveRound_of_kind_ne found hkind, Scanner.directives_of_kind_ne hkind,
        List.append_nil]

theorem directives_run (s : State) : (directives s).1 = some s.scanner.directives := by
  rw [directives, loop_directiveRound, List.nil_append]

theorem file_run (s : State) :
    (file s).1 = none ∨ ∃ ss, (file s).1 = some (s.scanner.directives, ss) := by
  have hhead := directives_run s
  unfold file
  rw [bind_run]
  generalize directives s = run at hhead ⊢
  obtain ⟨found, s'⟩ := run
  cases hhead
  dsimp only
  rw [bind_run]
  generalize statements s' = run
  obtain ⟨ss, s''⟩ := run
  cases ss with
  | none => exact Or.inl rfl
  | some ss => exact Or.inr ⟨ss, rfl⟩

end Parser

namespace SourceFile

/-- Nothing is known of a file whose reading does not end, not even what its head says. -/
theorem directives_parse (file source : String) :
    (parse file source).directives = [] ∨
      (parse file source).directives = (Scanner.ofSource file source).scan.directives := by
  rcases Parser.file_run (.ofSource file source) with hnone | ⟨ss, hsome⟩
  · left
    simp [parse, hnone]
  · right
    simp only [parse, hsome, Option.getD_some]
    rfl

end SourceFile

namespace DeclarationSet

/-- A set that a file declares has the id of the header. -/
theorem header_of_ofSourceFile {f : SourceFile} {S : DeclarationSet} (h : ofSourceFile f = .ok S) :
    ∃ head, Binding.header f = .ok head ∧ S.id = head.id := by
  unfold ofSourceFile at h
  cases hheader : Binding.header f with
  | error d => simp [hheader, Binding.problemOf?] at h
  | ok head =>
    simp only [hheader] at h
    split at h
    · cases h
      exact ⟨head, rfl, rfl⟩
    · cases h

theorem directive_of_header {f : SourceFile} {head : Binding.Header}
    (h : Binding.header f = .ok head) :
    ∃ d, f.directive? "set" = some d ∧ d.attribute? "id" = some head.id := by
  unfold Binding.header at h
  split at h
  · cases h
  next d hd =>
    split at h
    · cases h
    next id hid =>
      refine ⟨d, hd, ?_⟩
      cases hmode : Binding.headerMode f d with
      | error e =>
        rw [hmode] at h
        cases h
      | ok mode =>
        rw [hmode] at h
        cases h
        exact (Option.filter_eq_some_iff.1 hid).1

/-- A set has the id that the first `set` directive at the head of its file gives. -/
theorem id_of_parse {file source : String} {S : DeclarationSet} (h : parse file source = .ok S) :
    ∃ d, (Scanner.ofSource file source).scan.directives.find? (·.name == "set") = some d ∧
      d.attribute? "id" = some S.id := by
  obtain ⟨head, hheader, hid⟩ := header_of_ofSourceFile h
  obtain ⟨d, hd, hattribute⟩ := directive_of_header hheader
  refine ⟨d, ?_, hid ▸ hattribute⟩
  unfold SourceFile.directive? at hd
  rcases SourceFile.directives_parse file source with hnil | hhead
  · simp [hnil] at hd
  · rwa [hhead] at hd

/-- Under which name a text is read does not change which set it declares. -/
theorem id_eq_of_parse {file file' source : String} {S S' : DeclarationSet}
    (h : parse file source = .ok S) (h' : parse file' source = .ok S') : S.id = S'.id := by
  obtain ⟨d, hd, hid⟩ := id_of_parse h
  obtain ⟨d', hd', hid'⟩ := id_of_parse h'
  have hsame := Scanner.directives_congr (s := (Scanner.ofSource file source).scan)
    (u := (Scanner.ofSource file' source).scan) rfl rfl
  rw [hsame, hd', Option.some.injEq] at hd
  rw [← Option.some.injEq, ← hid, ← hid', hd]

end DeclarationSet
end TypeSurface
