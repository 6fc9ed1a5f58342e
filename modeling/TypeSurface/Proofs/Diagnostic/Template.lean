import Mathlib.Data.List.Infix
import TypeSurface.Diagnostic.Basic

/-!
# What a message quotes

A message is a template with its arguments in the places of their marks.  The arguments are put in
one after the other, so that text which comes from one of them is searched for the marks of those
behind it.  The main statement says when the message is the template with the arguments in the
places of the marks that stand in the template, and nothing else changed.  The templates of the
rules have their marks apart, and there it is enough that no argument holds the mark of a later one.
-/

namespace TypeSurface

namespace Text

/-- How often a pattern stands in a text. -/
def occurrences (pattern : List Char) : List Char → Nat
  | [] => 0
  | c :: cs => (if pattern.isPrefixOf (c :: cs) then 1 else 0) + occurrences pattern cs

variable {pattern cs : List Char}

theorem occurrences_cons_of_isPrefix {c : Char} (h : pattern <+: c :: cs) :
    occurrences pattern (c :: cs) = occurrences pattern cs + 1 := by
  rw [occurrences, if_pos (List.isPrefixOf_iff_prefix.2 h), Nat.add_comm]

theorem occurrences_cons_of_not {c : Char} (h : ¬pattern <+: c :: cs) :
    occurrences pattern (c :: cs) = occurrences pattern cs := by
  rw [occurrences, if_neg (mt List.isPrefixOf_iff_prefix.1 h), Nat.zero_add]

theorem occurrences_le_cons (c : Char) (pattern cs : List Char) :
    occurrences pattern cs ≤ occurrences pattern (c :: cs) :=
  Nat.le_add_left _ _

theorem occurrences_le_append (pattern as bs : List Char) :
    occurrences pattern bs ≤ occurrences pattern (as ++ bs) := by
  induction as with
  | nil => exact Nat.le_refl _
  | cons a as ih => exact ih.trans (occurrences_le_cons a pattern (as ++ bs))

/-! ### Replacing every occurrence -/

theorem splitAt?_append (pattern rest : List Char) :
    splitAt? pattern (pattern ++ rest) = some ([], rest) := by
  have hdrop : dropPrefix? pattern (pattern ++ rest) = some rest := dropPrefix?_eq_some_iff.2 rfl
  cases hcs : pattern ++ rest with
  | nil => rw [splitAt?, ← hcs, hdrop, Option.map_some]
  | cons c cs => rw [splitAt?, ← hcs, hdrop]

theorem splitAt?_cons {c : Char} (h : ¬pattern <+: c :: cs) :
    splitAt? pattern (c :: cs) =
      (splitAt? pattern cs).map fun (before, rest) ↦ (c :: before, rest) := by
  have hdrop : dropPrefix? pattern (c :: cs) = none := by
    rw [Option.eq_none_iff_forall_ne_some]
    intro rest hrest
    exact h ⟨rest, (dropPrefix?_eq_some_iff.1 hrest).symm⟩
  rw [splitAt?, hdrop]

theorem replaceAll_eq (hne : pattern ≠ []) (replacement cs : List Char) :
    replaceAll pattern replacement cs =
      match splitAt? pattern cs with
      | none => cs
      | some (before, rest) => before ++ replacement ++ replaceAll pattern replacement rest := by
  rw [replaceAll]
  split
  · next h => rw [h]
  · next before rest h => rw [h, if_neg hne]

theorem replaceAll_nil (hne : pattern ≠ []) (replacement : List Char) :
    replaceAll pattern replacement [] = [] := by
  obtain ⟨c, pattern, rfl⟩ := List.exists_cons_of_ne_nil hne
  rw [replaceAll_eq hne]
  rfl

theorem replaceAll_append (hne : pattern ≠ []) (replacement rest : List Char) :
    replaceAll pattern replacement (pattern ++ rest) =
      replacement ++ replaceAll pattern replacement rest := by
  rw [replaceAll_eq hne, splitAt?_append]
  rfl

theorem replaceAll_cons {c : Char} (hne : pattern ≠ []) (h : ¬pattern <+: c :: cs)
    (replacement : List Char) :
    replaceAll pattern replacement (c :: cs) = c :: replaceAll pattern replacement cs := by
  rw [replaceAll_eq hne, replaceAll_eq hne replacement cs, splitAt?_cons h]
  cases splitAt? pattern cs <;> rfl

/-- Where no pattern starts, nothing is replaced. -/
theorem replaceAll_append_of_occurrences {as : List Char} (hne : pattern ≠ [])
    (h : occurrences pattern (as ++ cs) = occurrences pattern cs) (replacement : List Char) :
    replaceAll pattern replacement (as ++ cs) = as ++ replaceAll pattern replacement cs := by
  induction as with
  | nil => rfl
  | cons a as ih =>
    have hle := occurrences_le_append pattern as cs
    have hno : ¬pattern <+: a :: (as ++ cs) := fun hprefix ↦ by
      have := occurrences_cons_of_isPrefix hprefix
      rw [List.cons_append] at h
      omega
    rw [List.cons_append, occurrences_cons_of_not hno] at h
    rw [List.cons_append, replaceAll_cons hne hno, ih h, List.cons_append]

end Text

namespace Template

open Text

/-! ### Marks -/

/-- The characters of a mark behind its opening brace. -/
def markTail (i : Nat) : List Char := Nat.toDigits 10 i ++ ['\x7d']

theorem mark_eq (i : Nat) : mark i = '\x7b' :: markTail i := rfl

theorem mark_ne_nil (i : Nat) : mark i ≠ [] := List.cons_ne_nil _ _

/-- Behind the brace that opens a mark stand digits and a brace that closes it. -/
theorem cases_of_mem_markTail {i : Nat} {c : Char} (h : c ∈ markTail i) :
    c.isDigit = true ∨ c = '\x7d' := by
  rcases List.mem_append.1 h with h | h
  · exact .inl (Nat.isDigit_of_mem_toDigits (by decide) (by decide) h)
  · exact .inr (List.mem_singleton.1 h)

theorem ne_of_mem_markTail {i : Nat} {c : Char} (h : c ∈ markTail i) : c ≠ '\x7b' := by
  rintro rfl
  rcases cases_of_mem_markTail h with h | h
  · exact absurd h (by decide)
  · exact absurd h (by decide)

theorem toDigits_injective : Function.Injective (Nat.toDigits 10) := fun i j h ↦
  calc
    i = Nat.ofDigitChars 10 (Nat.toDigits 10 i) 0 := Nat.ofDigitChars_ten_toDigits.symm
    _ = Nat.ofDigitChars 10 (Nat.toDigits 10 j) 0 := by rw [h]
    _ = j := Nat.ofDigitChars_ten_toDigits

/-- No mark is the beginning of another one. -/
theorem eq_of_mark_isPrefix {i j : Nat} {rest : List Char} (h : mark i <+: mark j ++ rest) :
    i = j := by
  obtain ⟨rest', h⟩ := h
  have htails : Nat.toDigits 10 i ++ '\x7d' :: rest' = Nat.toDigits 10 j ++ '\x7d' :: rest := by
    simpa [mark] using h
  have hdigits : ∀ (n : Nat) (behind : List Char),
      (Nat.toDigits 10 n ++ '\x7d' :: behind).takeWhile Char.isDigit = Nat.toDigits 10 n := by
    intro n behind
    rw [List.takeWhile_append_of_pos fun c hc ↦
      Nat.isDigit_of_mem_toDigits (by decide) (by decide) hc]
    simp
  apply toDigits_injective
  rw [← hdigits i rest', htails, hdigits]

/-- A mark is found at its opening brace only. -/
theorem not_mark_isPrefix_cons {c : Char} (h : c ≠ '\x7b') (i : Nat) (cs : List Char) :
    ¬mark i <+: c :: cs := fun hprefix ↦ h (List.cons_prefix_cons.1 hprefix).1.symm

theorem occurrences_mark_append {as : List Char} (h : ∀ c ∈ as, c ≠ '\x7b') (i : Nat)
    (cs : List Char) : occurrences (mark i) (as ++ cs) = occurrences (mark i) cs := by
  induction as with
  | nil => rfl
  | cons a as ih =>
    rw [List.forall_mem_cons] at h
    rw [List.cons_append, occurrences_cons_of_not (not_mark_isPrefix_cons h.1 i _), ih h.2]

theorem occurrences_own_mark (i : Nat) (rest : List Char) :
    occurrences (mark i) (mark i ++ rest) = occurrences (mark i) rest + 1 := by
  have hprefix : mark i <+: '\x7b' :: (markTail i ++ rest) := List.prefix_append (mark i) rest
  have hcons : mark i ++ rest = '\x7b' :: (markTail i ++ rest) := rfl
  rw [hcons, occurrences_cons_of_isPrefix hprefix,
    occurrences_mark_append fun c ↦ ne_of_mem_markTail]

theorem occurrences_other_mark {i j : Nat} (h : i ≠ j) (rest : List Char) :
    occurrences (mark i) (mark j ++ rest) = occurrences (mark i) rest := by
  have hno : ¬mark i <+: mark j ++ rest := fun hprefix ↦ h (eq_of_mark_isPrefix hprefix)
  rw [mark_eq j, List.cons_append] at hno ⊢
  rw [occurrences_cons_of_not hno, occurrences_mark_append fun c ↦ ne_of_mem_markTail]

/-- A text from its front: marks of a kind, and characters that start none of them. -/
theorem induction_marks (isMarked : Nat → Prop) {motive : List Char → Prop} (nil : motive [])
    (mark : ∀ {i rest}, isMarked i → motive rest → motive (Template.mark i ++ rest))
    (char : ∀ {c cs}, (∀ i, isMarked i → ¬Template.mark i <+: c :: cs) → motive cs →
      motive (c :: cs))
    (cs : List Char) : motive cs := by
  induction hn : cs.length using Nat.strong_induction_on generalizing cs with
  | _ n ih =>
    cases cs with
    | nil => exact nil
    | cons c cs =>
      by_cases hmark : ∃ i, isMarked i ∧ Template.mark i <+: c :: cs
      · obtain ⟨i, hi, rest, hrest⟩ := hmark
        have hpos := List.length_pos_iff.2 (mark_ne_nil i)
        rw [← hrest, List.length_append] at hn
        exact hrest ▸ mark hi (ih _ (by omega) rest rfl)
      · exact char (fun i hi hprefix ↦ hmark ⟨i, hi, hprefix⟩) (ih _ (by simp [← hn]) cs rfl)

/-! ### Templates that are filled at once -/

/-- Whether a text is a template with the arguments in the places of their marks: where the mark of
an argument stands in the template stands the argument, and everything else is as it is there. -/
inductive Fills (args : List String) : List Char → List Char → Prop
  | nil : Fills args [] []
  | mark {i : Nat} {arg : String} {template text : List Char} (harg : args[i]? = some arg)
    (hrest : Fills args template text) :
    Fills args (mark i ++ template) (arg.toList ++ text)
  | char {c : Char} {template text : List Char}
    (hno : ∀ i < args.length, ¬Template.mark i <+: c :: template)
    (hrest : Fills args template text) : Fills args (c :: template) (c :: text)

namespace Fills

variable {args : List String} {arg : String} {template text rest as : List Char} {i : Nat}

theorem of_mark (harg : args[i]? = some arg) (h : Fills args (Template.mark i ++ rest) text) :
    ∃ behind, text = arg.toList ++ behind ∧ Fills args rest behind := by
  generalize hwhole : Template.mark i ++ rest = whole at h
  cases h with
  | nil => exact absurd (List.append_eq_nil_iff.1 hwhole).1 (mark_ne_nil i)
  | mark harg' hrest =>
    obtain rfl := eq_of_mark_isPrefix ⟨rest, hwhole⟩
    cases harg.symm.trans harg'
    rw [List.append_cancel_left_eq] at hwhole
    exact ⟨_, rfl, hwhole ▸ hrest⟩
  | char hno _ =>
    exact absurd ⟨rest, hwhole⟩ (hno i (List.getElem?_eq_some_iff.1 harg).1)

theorem of_cons {c : Char} (hno : ∀ i < args.length, ¬Template.mark i <+: c :: template)
    (h : Fills args (c :: template) text) :
    ∃ behind, text = c :: behind ∧ Fills args template behind := by
  generalize hwhole : c :: template = whole at h
  cases h with
  | nil => cases hwhole
  | mark harg _ =>
    rw [hwhole] at hno
    exact absurd (List.prefix_append _ _) (hno _ (List.getElem?_eq_some_iff.1 harg).1)
  | char _ hrest =>
    obtain ⟨rfl, rfl⟩ := List.cons.inj hwhole
    exact ⟨_, rfl, hrest⟩

/-- Where no mark can start, nothing is filled in. -/
theorem of_append (has : ∀ c ∈ as, c ≠ '\x7b') (h : Fills args (as ++ rest) text) :
    ∃ behind, text = as ++ behind ∧ Fills args rest behind := by
  induction as generalizing text with
  | nil => exact ⟨text, rfl, h⟩
  | cons a as ih =>
    rw [List.forall_mem_cons] at has
    obtain ⟨text, rfl, htext⟩ := h.of_cons fun i _ ↦ not_mark_isPrefix_cons has.1 i _
    obtain ⟨behind, rfl, hbehind⟩ := ih has.2 htext
    exact ⟨behind, rfl, hbehind⟩

theorem append (has : ∀ c ∈ as, c ≠ '\x7b') (h : Fills args rest text) :
    Fills args (as ++ rest) (as ++ text) := by
  induction as with
  | nil => exact h
  | cons a as ih =>
    rw [List.forall_mem_cons] at has
    exact .char (fun i _ ↦ not_mark_isPrefix_cons has.1 i _) (ih has.2)

theorem eq_nil (h : Fills args [] text) : text = [] := by
  generalize hwhole : [] = whole at h
  cases h with
  | nil => rfl
  | mark _ _ => exact absurd (List.append_eq_nil_iff.1 hwhole.symm).1 (mark_ne_nil _)
  | char _ _ => cases hwhole

theorem unique {text' : List Char} (h : Fills args template text)
    (h' : Fills args template text') : text = text' := by
  induction h generalizing text' with
  | nil => exact h'.eq_nil.symm
  | mark harg _ ih =>
    obtain ⟨behind, rfl, hbehind⟩ := h'.of_mark harg
    rw [ih hbehind]
  | char hno _ ih =>
    obtain ⟨behind, rfl, hbehind⟩ := h'.of_cons hno
    rw [ih hbehind]

end Fills

theorem exists_fills (args : List String) (template : List Char) :
    ∃ text, Fills args template text := by
  induction template using induction_marks (· < args.length) with
  | nil => exact ⟨[], .nil⟩
  | mark hi ih =>
    obtain ⟨text, htext⟩ := ih
    exact ⟨_, htext.mark (List.getElem?_eq_getElem hi)⟩
  | char hno ih =>
    obtain ⟨text, htext⟩ := ih
    exact ⟨_, htext.char hno⟩

theorem fills_nil (template : List Char) : Fills [] template template := by
  induction template with
  | nil => exact .nil
  | cons c template ih => exact ih.char nofun

/-! ### One argument more -/

section Step

variable {args : List String} {template text : List Char}

/-- A mark of the next argument is left in the text as it stands. -/
theorem Fills.next (h : Fills args template text) :
    Fills args (Template.mark args.length ++ template) (Template.mark args.length ++ text) :=
  .char (fun _ hi hprefix ↦ hi.ne (eq_of_mark_isPrefix hprefix))
    (h.append fun _ ↦ ne_of_mem_markTail)

theorem Fills.of_next (h : Fills args (Template.mark args.length ++ template) text) :
    ∃ behind, text = Template.mark args.length ++ behind ∧ Fills args template behind := by
  rw [mark_eq, List.cons_append] at h
  obtain ⟨text, rfl, htext⟩ := h.of_cons fun i hi hprefix ↦ hi.ne (eq_of_mark_isPrefix hprefix)
  obtain ⟨behind, rfl, hbehind⟩ := htext.of_append fun _ ↦ ne_of_mem_markTail
  exact ⟨behind, rfl, hbehind⟩

/-- A template in front of the next argument: marks that are filled, marks of this argument, and
characters that start neither. -/
theorem Fills.induction_marks {motive : ∀ template text, Fills args template text → Prop}
    (nil : motive [] [] .nil)
    (filled : ∀ {i arg template text} (harg : args[i]? = some arg) (h : Fills args template text),
      motive template text h → motive _ _ (h.mark harg))
    (next : ∀ {template text} (h : Fills args template text),
      motive template text h → motive _ _ h.next)
    (char : ∀ {c template text} (hno : ∀ i ≤ args.length, ¬Template.mark i <+: c :: template)
      (h : Fills args template text), motive template text h →
        motive _ _ (h.char fun i hi ↦ hno i hi.le))
    (h : Fills args template text) : motive template text h := by
  induction template using Template.induction_marks (· ≤ args.length) generalizing text with
  | nil =>
    obtain rfl := h.eq_nil
    exact nil
  | mark hi ih =>
    rcases hi.lt_or_eq with hlt | rfl
    · have harg := List.getElem?_eq_getElem hlt
      obtain ⟨behind, rfl, hbehind⟩ := h.of_mark harg
      exact filled harg hbehind (ih hbehind)
    · obtain ⟨behind, rfl, hbehind⟩ := h.of_next
      exact next hbehind (ih hbehind)
  | char hno ih =>
    obtain ⟨behind, rfl, hbehind⟩ := h.of_cons fun i hi ↦ hno i hi.le
    exact char hno hbehind (ih hbehind)

/-- The marks of the next argument that stand in the template are left in the text. -/
theorem Fills.occurrences_le (h : Fills args template text) :
    occurrences (Template.mark args.length) template ≤
      occurrences (Template.mark args.length) text := by
  induction h using Fills.induction_marks with
  | nil => exact le_rfl
  | filled harg _ ih =>
    rw [occurrences_other_mark (List.getElem?_eq_some_iff.1 harg).1.ne']
    exact ih.trans (occurrences_le_append _ _ _)
  | next _ ih =>
    rw [occurrences_own_mark, occurrences_own_mark]
    exact Nat.succ_le_succ ih
  | char hno _ ih =>
    rw [occurrences_cons_of_not (hno _ le_rfl)]
    exact ih.trans (occurrences_le_cons ..)

/-- The next argument is put in the places of its marks, if the text has no more of them than the
template. -/
theorem Fills.step (h : Fills args template text)
    (hocc : occurrences (Template.mark args.length) text =
      occurrences (Template.mark args.length) template) (arg : String) :
    Fills (args ++ [arg]) template
      (replaceAll (Template.mark args.length) arg.toList text) := by
  have hne := mark_ne_nil args.length
  induction h using Fills.induction_marks with
  | nil =>
    rw [replaceAll_nil hne]
    exact .nil
  | @filled i quoted template text harg hrest ih =>
    have hi := (List.getElem?_eq_some_iff.1 harg).1
    have hle := hrest.occurrences_le
    have hle' := occurrences_le_append (Template.mark args.length) quoted.toList text
    rw [occurrences_other_mark hi.ne'] at hocc
    -- The text behind has its share of marks, so that none starts in the quoted argument.
    have hquoted : occurrences (Template.mark args.length) (quoted.toList ++ text) =
        occurrences (Template.mark args.length) text := by omega
    rw [replaceAll_append_of_occurrences hne hquoted]
    refine .mark ?_ (ih (by omega))
    rwa [List.getElem?_append_left hi]
  | next _ ih =>
    rw [occurrences_own_mark, occurrences_own_mark] at hocc
    rw [replaceAll_append hne]
    exact .mark (by simp) (ih (Nat.succ.inj hocc))
  | @char c template text hno hrest ih =>
    have hle := hrest.occurrences_le
    rw [occurrences_cons_of_not (hno _ le_rfl)] at hocc
    have hno' : ¬Template.mark args.length <+: c :: text := fun hprefix ↦ by
      rw [occurrences_cons_of_isPrefix hprefix] at hocc
      omega
    rw [occurrences_cons_of_not hno'] at hocc
    rw [replaceAll_cons hne hno']
    refine .char (fun i hi ↦ hno i ?_) (ih hocc)
    rw [List.length_append, List.length_singleton] at hi
    exact Nat.le_of_lt_succ hi

/-- How much shorter a text gets when its marks are dropped. -/
theorem length_replaceAll_mark (i : Nat) (cs : List Char) :
    (replaceAll (mark i) [] cs).length + occurrences (mark i) cs * (mark i).length =
      cs.length := by
  have hne := mark_ne_nil i
  induction cs using induction_marks (· = i) with
  | nil => rw [replaceAll_nil hne, occurrences, Nat.zero_mul, Nat.add_zero]
  | @mark j rest hj ih =>
    subst hj
    rw [replaceAll_append hne, List.nil_append, occurrences_own_mark, List.length_append,
      Nat.succ_mul]
    omega
  | char hno ih =>
    have hno' := hno i rfl
    rw [replaceAll_cons hne hno', occurrences_cons_of_not hno', List.length_cons, List.length_cons]
    omega

/-- How much shorter a filled text gets when the next argument is empty. -/
theorem Fills.length_empty {text' : List Char} (h : Fills args template text)
    (h' : Fills (args ++ [""]) template text') :
    text'.length + occurrences (Template.mark args.length) template *
      (Template.mark args.length).length = text.length := by
  induction h using Fills.induction_marks generalizing text' with
  | nil =>
    rw [h'.eq_nil, occurrences, Nat.zero_mul]
    rfl
  | @filled i arg template text harg hrest ih =>
    have hi := (List.getElem?_eq_some_iff.1 harg).1
    obtain ⟨behind, rfl, hbehind⟩ := h'.of_mark ((List.getElem?_append_left hi).trans harg)
    have hlength := ih hbehind
    rw [occurrences_other_mark hi.ne', List.length_append, List.length_append]
    omega
  | @next template text hrest ih =>
    have harg : (args ++ [""])[args.length]? = some "" := by simp
    obtain ⟨behind, hwhole, hbehind⟩ := h'.of_mark harg
    have hempty : text' = behind := hwhole
    have hlength := ih hbehind
    rw [occurrences_own_mark, List.length_append, Nat.succ_mul, hempty]
    omega
  | @char c template text hno hrest ih =>
    have hno' : ∀ i < (args ++ [""]).length, ¬Template.mark i <+: c :: template := fun i hi ↦ by
      rw [List.length_append, List.length_singleton] at hi
      exact hno i (Nat.le_of_lt_succ hi)
    obtain ⟨behind, rfl, hbehind⟩ := h'.of_cons hno'
    have hlength := ih hbehind
    rw [occurrences_cons_of_not (hno _ le_rfl), List.length_cons, List.length_cons]
    omega

/-- The next argument is quoted as it is, whatever it is, just if the text holds no more of its
marks than the template. -/
theorem Fills.step_iff (h : Fills args template text) :
    (∀ arg : String, Fills (args ++ [arg]) template
        (replaceAll (Template.mark args.length) arg.toList text)) ↔
      occurrences (Template.mark args.length) text =
        occurrences (Template.mark args.length) template := by
  refine ⟨fun hquoted ↦ ?_, h.step⟩
  have hpos := List.length_pos_iff.2 (mark_ne_nil args.length)
  -- With an empty argument the length of the text tells how many marks have been replaced.
  have hempty := h.length_empty (hquoted "")
  have hdropped := length_replaceAll_mark args.length text
  have hnil : "".toList = [] := rfl
  rw [hnil] at hempty
  refine Nat.eq_of_mul_eq_mul_right hpos ?_
  omega

end Step

/-! ### All arguments -/

theorem fill_nil (template : String) : fill template [] = template := by
  rw [fill, fillFrom, String.ofList_toList]

theorem fillFrom_append (i : Nat) (text : List Char) (args more : List String) :
    fillFrom i text (args ++ more) = fillFrom (i + args.length) (fillFrom i text args) more := by
  induction args generalizing i text with
  | nil => rfl
  | cons arg args ih =>
    rw [List.cons_append, fillFrom, ih, fillFrom, List.length_cons, Nat.add_assoc,
      Nat.add_comm 1]

/-- Behind other arguments, an argument is put in the places of its marks in the text that they have
produced. -/
theorem fill_concat (template : String) (args : List String) (arg : String) :
    (fill template (args ++ [arg])).toList =
      replaceAll (mark args.length) arg.toList (fill template args).toList := by
  simp only [fill, String.toList_ofList, fillFrom_append, fillFrom, Nat.zero_add]

/-- The text that the arguments in front of argument `i` have produced holds as many of its marks as
the template. -/
def KeepsMark (template : String) (args : List String) (i : Nat) : Prop :=
  occurrences (mark i) (fill template (args.take i)).toList = occurrences (mark i) template.toList

instance (template : String) (args : List String) (i : Nat) :
    Decidable (KeepsMark template args i) :=
  inferInstanceAs (Decidable (_ = _))

section Run

variable {template : String} {args : List String}

theorem fills_fill_take {n : Nat} (h : ∀ i < n, KeepsMark template args i)
    (hn : n ≤ args.length) :
    Fills (args.take n) template.toList (fill template (args.take n)).toList := by
  induction n with
  | zero =>
    rw [List.take_zero, fill_nil]
    exact fills_nil template.toList
  | succ n ih =>
    have hlength : (args.take n).length = n := List.length_take_of_le (Nat.le_of_succ_le hn)
    have hfront := ih (fun i hi ↦ h i (Nat.lt_succ_of_lt hi)) (Nat.le_of_succ_le hn)
    have hkeeps := h n n.lt_succ_self
    have hstep := hfront.step (by rwa [hlength]) args[n]
    rwa [← fill_concat, List.take_append_getElem] at hstep

theorem fills_fill (h : ∀ i < args.length, KeepsMark template args i) :
    Fills args template.toList (fill template args).toList := by
  simpa using fills_fill_take h le_rfl

/-- There is one text that is a template with its arguments in the places of their marks.  It is the
message if no argument brings a mark of a later one into the text, and this is just what it takes
for each argument to be quoted whatever it is. -/
theorem fill_quotes_iff (template : String) (args : List String) :
    (∃! text, Fills args template.toList text) ∧
      ((∀ i < args.length, KeepsMark template args i) →
        Fills args template.toList (fill template args).toList) ∧
      ((∀ i < args.length, KeepsMark template args i) ↔
        ∀ i < args.length, ∀ arg : String, Fills (args.take i ++ [arg]) template.toList
          (fill template (args.take i ++ [arg])).toList) := by
  refine ⟨?_, fills_fill, fun hkeeps i hi arg ↦ ?_, fun hquoted i hi ↦ ?_⟩
  · obtain ⟨text, htext⟩ := exists_fills args template.toList
    exact ⟨text, htext, fun _ h ↦ h.unique htext⟩
  · have hlength : (args.take i).length = i := List.length_take_of_le hi.le
    rw [fill_concat]
    refine (fills_fill_take (fun j hj ↦ hkeeps j (hj.trans hi)) hi.le).step ?_ arg
    rw [hlength]
    exact hkeeps i hi
  · have hlength : (args.take i).length = i := List.length_take_of_le hi.le
    have hfront : Fills (args.take i) template.toList (fill template (args.take i)).toList := by
      cases i with
      | zero =>
        rw [List.take_zero, fill_nil]
        exact fills_nil template.toList
      | succ i =>
        rw [← List.take_append_getElem (Nat.lt_of_succ_lt hi)]
        exact hquoted i (Nat.lt_of_succ_lt hi) args[i]
    have hkeeps := hfront.step_iff.1 fun arg ↦ by
      rw [← fill_concat]
      exact hquoted i hi arg
    rwa [hlength] at hkeeps

theorem fill_quotes_iff_member :
    (∀ i < 2, KeepsMark "'\x7b0\x7d' of '\x7b1\x7d'" ["\x7b0\x7d", "Array"] i) ∧
      Fills ["\x7b0\x7d", "Array"] "'\x7b0\x7d' of '\x7b1\x7d'".toList
        (fill "'\x7b0\x7d' of '\x7b1\x7d'" ["\x7b0\x7d", "Array"]).toList := by
  have hkeeps : ∀ i < 2, KeepsMark "'\x7b0\x7d' of '\x7b1\x7d'" ["\x7b0\x7d", "Array"] i := by
    decide +kernel
  exact ⟨hkeeps, (fill_quotes_iff _ ["\x7b0\x7d", "Array"]).2.1 hkeeps⟩

/-- An argument that is the mark of the one behind it is not quoted. -/
theorem not_fill_quotes :
    fill "'\x7b0\x7d' of '\x7b1\x7d'" ["\x7b1\x7d", "Array"] = "'Array' of 'Array'" ∧
      ¬Fills ["\x7b1\x7d", "Array"] "'\x7b0\x7d' of '\x7b1\x7d'".toList
        (fill "'\x7b0\x7d' of '\x7b1\x7d'" ["\x7b1\x7d", "Array"]).toList := by
  have hfill : fill "'\x7b0\x7d' of '\x7b1\x7d'" ["\x7b1\x7d", "Array"] =
      "'Array' of 'Array'" := by
    decide +kernel
  refine ⟨hfill, fun h ↦ ?_⟩
  rw [hfill] at h
  obtain ⟨behind, hquote, h⟩ := Fills.of_cons (by decide +kernel) h
  obtain ⟨behind', rfl, h⟩ := Fills.of_mark (i := 0) rfl h
  have hsecond : "'Array' of 'Array'".toList[1]? = some '\x7b' := by
    rw [hquote]
    rfl
  exact absurd hsecond (by decide +kernel)

end Run

/-! ### Templates whose marks stand apart -/

/-- Whether a character can stand in a mark. -/
def inMark (c : Char) : Bool :=
  c.isDigit || c == '\x7b' || c == '\x7d'

/-- Whether every opening brace starts a mark, and nothing that could belong to one stands behind
the mark. -/
def isPlain : List Char → Bool
  | [] => true
  | c :: cs =>
    (c != '\x7b' || (List.range 10).any fun i ↦
      match dropPrefix? (mark i) (c :: cs) with
      | none => false
      | some rest => !rest.head?.any inMark) && isPlain cs

theorem exists_mark_of_isPlain {cs : List Char} (h : isPlain ('\x7b' :: cs) = true) :
    ∃ i rest, '\x7b' :: cs = mark i ++ rest ∧ ∀ c ∈ rest.head?, inMark c = false := by
  rw [isPlain, Bool.and_eq_true, bne_self_eq_false, Bool.false_or, List.any_eq_true] at h
  obtain ⟨⟨i, -, hi⟩, -⟩ := h
  split at hi
  · cases hi
  · next rest hrest =>
    refine ⟨i, rest, dropPrefix?_eq_some_iff.1 hrest, fun c hc ↦ ?_⟩
    rwa [Option.mem_def.1 hc, Option.any_some, Bool.not_eq_true'] at hi

theorem isPlain_of_cons {c : Char} {cs : List Char} (h : isPlain (c :: cs) = true) :
    isPlain cs = true := by
  rw [isPlain, Bool.and_eq_true] at h
  exact h.2

theorem isPlain_of_append {as cs : List Char} (h : isPlain (as ++ cs) = true) :
    isPlain cs = true := by
  induction as with
  | nil => exact h
  | cons a as ih => exact ih (isPlain_of_cons h)

theorem inMark_of_mem_markTail {i : Nat} {c : Char} (h : c ∈ markTail i) : inMark c = true := by
  rcases cases_of_mem_markTail h with h | rfl
  · simp [inMark, h]
  · rfl

/-- A mark that an argument does not hold is not completed by what stands behind the argument. -/
theorem occurrences_append_of_not_infix {as cs : List Char} {n : Nat} (has : ¬mark n <:+: as)
    (hcs : ∀ c ∈ cs.head?, inMark c = false) :
    occurrences (mark n) (as ++ cs) = occurrences (mark n) cs := by
  induction as with
  | nil => rfl
  | cons a as ih =>
    have hno : ¬mark n <+: a :: as ++ cs := by
      rintro ⟨behind, hwhole⟩
      rcases List.append_eq_append_iff.1 hwhole with ⟨more, hmore, -⟩ | ⟨tail, hmark, hcs'⟩
      · exact has ⟨[], more, by rw [List.nil_append, hmore]⟩
      · cases tail with
        | nil => exact has ⟨[], [], by simp [hmark]⟩
        | cons t tail =>
          have htail : markTail n = as ++ t :: tail := (List.cons.inj hmark).2
          have ht : inMark t = true := inMark_of_mem_markTail (i := n) (by simp [htail])
          rw [hcs t (by simp [hcs'])] at ht
          cases ht
    rw [List.cons_append] at hno ⊢
    rw [occurrences_cons_of_not hno]
    exact ih fun hholds ↦ has (hholds.trans (List.suffix_cons a as).isInfix)

section Plain

variable {args : List String} {template text : List Char}

theorem Fills.head_inMark (h : Fills args template text)
    (hhead : ∀ c ∈ template.head?, inMark c = false) : ∀ c ∈ text.head?, inMark c = false := by
  cases h with
  | nil => exact hhead
  | mark _ _ => exact absurd (hhead _ rfl) (by decide)
  | char _ _ => exact hhead

/-- Where the marks stand apart, a further mark comes into the text only as part of an argument. -/
theorem Fills.occurrences_eq (h : Fills args template text) (hplain : isPlain template = true)
    (hargs : ∀ arg ∈ args, ¬Template.mark args.length <:+: arg.toList) :
    occurrences (Template.mark args.length) text =
      occurrences (Template.mark args.length) template := by
  induction h using Fills.induction_marks with
  | nil => rfl
  | @filled i arg template text harg h ih =>
    have hi := (List.getElem?_eq_some_iff.1 harg).1
    have hbehind : ∀ c ∈ template.head?, inMark c = false := by
      obtain ⟨j, rest, hwhole, hrest⟩ := exists_mark_of_isPlain hplain
      have hwhole' : Template.mark i ++ template = Template.mark j ++ rest := hwhole
      obtain rfl := eq_of_mark_isPrefix ⟨template, hwhole'⟩
      rwa [List.append_cancel_left hwhole']
    rw [occurrences_other_mark hi.ne',
      occurrences_append_of_not_infix (hargs arg (List.mem_of_getElem? harg))
        (h.head_inMark hbehind)]
    exact ih (isPlain_of_append hplain)
  | next h ih =>
    rw [occurrences_own_mark, occurrences_own_mark, ih (isPlain_of_append hplain)]
  | @char c template text hno h ih =>
    have hno' : ¬Template.mark args.length <+: c :: text := fun hprefix ↦ by
      obtain rfl := (List.cons_prefix_cons.1 hprefix).1
      obtain ⟨j, rest, hwhole, -⟩ := exists_mark_of_isPlain hplain
      obtain rfl : template = markTail j ++ rest := (List.cons.inj hwhole).2
      obtain ⟨behind, rfl, -⟩ := h.of_append fun _ ↦ ne_of_mem_markTail
      have hj : args.length = j := eq_of_mark_isPrefix hprefix
      exact hno _ le_rfl ⟨rest, by rw [hwhole, hj]⟩
    rw [occurrences_cons_of_not hno', occurrences_cons_of_not (hno _ le_rfl)]
    exact ih (isPlain_of_cons hplain)

end Plain

theorem keepsMark_of_isPlain {template : String} {args : List String}
    (hplain : isPlain template.toList = true)
    (hargs : ∀ i j (hij : i < j) (hj : j < args.length), ¬mark j <:+: args[i].toList) :
    ∀ i < args.length, KeepsMark template args i := by
  intro i
  induction i using Nat.strong_induction_on with
  | _ i ih =>
    intro hi
    have hlength : (args.take i).length = i := List.length_take_of_le hi.le
    have hfront := fills_fill_take (fun j hj ↦ ih j hj (hj.trans hi)) hi.le
    have hocc := hfront.occurrences_eq hplain fun arg harg ↦ by
      obtain ⟨j, hj, rfl⟩ := List.mem_iff_getElem.1 harg
      rw [hlength] at hj ⊢
      rw [List.getElem_take]
      exact hargs j i hj hi
    rwa [hlength] at hocc

theorem isPlain_template (rule : Rule) : isPlain rule.template.toList = true := by
  cases rule <;> decide +kernel

end Template

/-- The message of a rule quotes its arguments, unless one of them holds the mark of a later one. -/
theorem Diagnostic.fills_message_ofRule (rule : Rule) {args : List String} (file : String)
    (start length : Nat)
    (hargs : ∀ i j (hij : i < j) (hj : j < args.length), ¬Template.mark j <:+: args[i].toList) :
    Template.Fills args rule.template.toList (ofRule rule args file start length).message.toList :=
  Template.fills_fill (Template.keepsMark_of_isPlain (Template.isPlain_template rule) hargs)

end TypeSurface
