import TypeSurface.Proofs.Relation.Monotone
import TypeSurface.Relation.Checker

/-!
# Checkers leave no trace

Each rule of a checker gives the answer of the rule of the relation and leaves the checker as it
was, as long as the questions about the types inside do.  A checker that is inside of some levels
therefore answers as the relation within the levels that are left, and is unchanged after any number
of questions.
-/

namespace TypeSurface
namespace Relation

namespace Inquiry

/-- From the checker `c` the answer is `b`, and the checker is then as it was. -/
def Answers (a : Inquiry) (c : Checker) (b : Bool) : Prop := a.run c = (b, c)

variable {c : Checker}

theorem answers_pure (b : Bool) : Answers (pure b) c b := rfl

/-- What is done after an answer is done by the checker as it was before. -/
theorem Answers.bind_run {a : Inquiry} {b : Bool} (h : Answers a c b) (f : Bool → Inquiry) :
    (a >>= f).run c = (f b).run c := by
  change (f (a.run c).1).run (a.run c).2 = (f b).run c
  rw [h]

theorem Answers.or {a a' : Inquiry} {b b' : Bool} (h : Answers a c b) (h' : Answers a' c b') :
    Answers (a <||> a') c (b || b') := by
  refine (h.bind_run _).trans ?_
  cases b with
  | true => rfl
  | false => exact h'

theorem Answers.and {a a' : Inquiry} {b b' : Bool} (h : Answers a c b) (h' : Answers a' c b') :
    Answers (a <&&> a') c (b && b') := by
  refine (h.bind_run _).trans ?_
  cases b with
  | true => exact h'
  | false => rfl

theorem answers_allM {α : Type} {f : α → Inquiry} {g : α → Bool} {l : List α}
    (h : ∀ x ∈ l, Answers (f x) c (g x)) : Answers (l.allM f) c (l.all g) := by
  induction l with
  | nil => rfl
  | cons x l ih =>
    rw [List.forall_mem_cons] at h
    refine (h.1.bind_run _).trans ?_
    rw [List.all_cons]
    cases g x with
    | true => exact ih h.2
    | false => rfl

theorem answers_anyM {α : Type} {f : α → Inquiry} {g : α → Bool} {l : List α}
    (h : ∀ x ∈ l, Answers (f x) c (g x)) : Answers (l.anyM f) c (l.any g) := by
  induction l with
  | nil => rfl
  | cons x l ih =>
    rw [List.forall_mem_cons] at h
    refine (h.1.bind_run _).trans ?_
    rw [List.any_cons]
    cases g x with
    | true => rfl
    | false => exact ih h.2

section Rules

variable {relates : TypeExpr → TypeExpr → Inquiry} {r : TypeExpr → TypeExpr → Bool}
  (hr : ∀ s t, Answers (relates s t) c (r s t))

include hr

theorem answers_resultRelates (s t : TypeExpr) :
    Answers (resultRelates relates s t) c (Relation.resultRelates r s t) :=
  (answers_pure _).or (hr s t)

theorem answers_paramsRelate (ps qs : List Param) :
    Answers (paramsRelate relates ps qs) c (Relation.paramsRelate r ps qs) := by
  apply answers_allM
  intro ⟨w, i⟩ _
  dsimp only
  cases paramAt? ps i with
  | none => exact answers_pure true
  | some o => exact (hr _ _).or (hr _ _)

theorem answers_signatureCovers (o w : Signature) :
    Answers (signatureCovers relates o w) c (Relation.signatureCovers r o w) := by
  unfold signatureCovers Relation.signatureCovers
  dsimp only
  rw [Bool.and_assoc]
  exact (answers_pure _).and ((answers_pure _).and
    ((answers_paramsRelate hr _ _).and (answers_resultRelates hr _ _)))

theorem answers_overloadsCover (os ws : List Signature) :
    Answers (overloadsCover relates os ws) c (Relation.overloadsCover r os ws) :=
  answers_allM fun w _ ↦ answers_anyM fun o _ ↦ answers_signatureCovers hr o w

theorem answers_functionRelates (s t : Signature) :
    Answers (functionRelates relates s t) c (Relation.functionRelates r s t) := by
  unfold functionRelates Relation.functionRelates
  rw [Bool.and_assoc, Bool.and_assoc]
  exact (answers_pure _).and ((answers_pure _).and
    ((answers_paramsRelate hr _ _).and (answers_resultRelates hr _ _)))

theorem answers_formRelates (m n : MemberForm) :
    Answers (formRelates relates m n) c (Relation.formRelates r m n) := by
  cases m <;> cases n
  case property.property => exact hr _ _
  case index.index => exact hr _ _
  case method.method => exact answers_signatureCovers hr _ _
  case call.call => exact answers_signatureCovers hr _ _
  case construct.construct => exact answers_signatureCovers hr _ _
  all_goals exact answers_pure false

theorem answers_objectRelates (ms ns : List MemberForm) :
    Answers (objectRelates relates ms ns) c (Relation.objectRelates r ms ns) := by
  apply answers_allM
  intro wanted _
  cases ms.find? fun offered ↦ formKey offered == formKey wanted with
  | none => exact answers_pure _
  | some offered => exact answers_formRelates hr offered wanted

theorem answers_elementRelates (d e : TupleElement) :
    Answers (elementRelates relates d e) c (Relation.elementRelates r d e) :=
  (answers_pure _).and (hr _ _)

theorem answers_otherRelates (s t : TypeExpr) :
    Answers (otherRelates relates s t) c (Relation.otherRelates r s t) := by
  cases s <;> cases t
  case reference.reference => exact (answers_pure _).and (answers_allM fun _ _ ↦ hr _ _)
  case function.function => exact answers_functionRelates hr _ _
  case construct.construct => exact answers_functionRelates hr _ _
  case object.object => exact answers_objectRelates hr _ _
  case predicate.predicate => exact (answers_pure _).and (hr _ _)
  all_goals exact answers_pure false

theorem answers_shapeRelates (s t : Shape) :
    Answers (shapeRelates relates s t) c (Relation.shapeRelates r s t) := by
  cases s <;> cases t
  case array.array => exact hr _ _
  case array.readonlyArray => exact hr _ _
  case readonlyArray.readonlyArray => exact hr _ _
  case tuple.array => exact answers_allM fun _ _ ↦ hr _ _
  case tuple.readonlyArray => exact answers_allM fun _ _ ↦ hr _ _
  case tuple.tuple =>
    exact (answers_pure _).and (answers_allM fun _ _ ↦ answers_elementRelates hr _ _)
  case other.other => exact answers_otherRelates hr _ _
  all_goals exact answers_pure false

theorem answers_relateParts? (s t : TypeExpr) :
    (relateParts? relates s t = none ∧ Relation.relateParts? r s t = none) ∨
      ∃ a b, relateParts? relates s t = some a ∧ Relation.relateParts? r s t = some b ∧
        Answers a c b := by
  have hsource (u : TypeExpr) : Answers (relates u t) c (r u t) := hr u t
  have htarget (u : TypeExpr) : Answers (relates s u) c (r s u) := hr s u
  unfold Relation.relateParts?
  split
  · exact .inr ⟨_, _, rfl, rfl, answers_allM fun u _ ↦ hsource u⟩
  · next hs =>
    rw [relateParts?.eq_2 _ _ _ hs]
    exact .inr ⟨_, _, rfl, rfl, answers_allM fun u _ ↦ htarget u⟩
  · next hs =>
    rw [relateParts?.eq_3 _ _ _ hs]
    exact .inr ⟨_, _, rfl, rfl, answers_anyM fun u _ ↦ htarget u⟩
  · next ht ht' =>
    rw [relateParts?.eq_4 _ _ _ ht ht']
    exact .inr ⟨_, _, rfl, rfl, answers_anyM fun u _ ↦ hsource u⟩
  · next hs hs' ht ht' => exact .inl ⟨relateParts?.eq_5 _ _ _ hs hs' ht ht', rfl⟩

theorem answers_structureRelates (s t : TypeExpr) :
    Answers (structureRelates relates s t) c (Relation.structureRelates r s t) := by
  rcases answers_relateParts? hr s t with ⟨hnone, hnone'⟩ | ⟨a, b, hsome, hsome', hab⟩
  · rw [structureRelates, hnone, structureRelates_of_no_parts hnone']
    apply (answers_pure _).or
    by_cases hobject : t.isKeyword .object = true
    · simp only [hobject, if_true]
      exact answers_pure _
    · simp only [hobject]
      cases relatePrimitives? s t with
      | none => exact answers_shapeRelates hr _ _
      | some answer => exact answers_pure answer
  · rw [structureRelates, hsome, structureRelates_of_parts hsome']
    exact (answers_pure _).or hab

theorem answers_levelRelates (s t : TypeExpr) :
    Answers (levelRelates relates s t) c (Relation.levelRelates r c.types s t) := by
  unfold Answers levelRelates Relation.levelRelates
  rw [StateT.run_bind]
  simp only [StateT.run_get, pure_bind]
  cases expandAlias? c.types s with
  | some body => exact hr body t
  | none =>
    cases expandAlias? c.types t with
    | some body => exact hr s body
    | none => exact answers_structureRelates hr s t

end Rules

theorem assignableWithin_succ_run (rounds : Nat) (c : Checker) (s t : TypeExpr) :
    (assignableWithin (rounds + 1) s t).run c =
      if s = t then (true, c)
      else if c.isAtLimit then (false, c)
      else
        let answered := (levelRelates (assignableWithin rounds) s t).run c.enter
        (answered.1, answered.2.leave) := by
  rw [assignableWithin]
  by_cases hst : s = t
  · rw [if_pos hst, if_pos hst]
    rfl
  · rw [if_neg hst, if_neg hst]
    change StateT.run (if c.isAtLimit = true then pure false else _) c = _
    by_cases hlimit : c.isAtLimit = true
    · rw [if_pos hlimit, if_pos hlimit]
      rfl
    · rw [if_neg hlimit, if_neg hlimit]
      rfl

/-- A checker answers within the levels that are left to it, and counts back what it has entered. -/
theorem answers_assignableWithin {rounds : Nat} {c : Checker}
    (hrounds : maxRelationDepth ≤ c.depth + rounds) (s t : TypeExpr) :
    Answers (assignableWithin rounds s t) c
      (Relation.assignableWithin c.types (maxRelationDepth - c.depth) s t) := by
  induction rounds generalizing c s t with
  | zero =>
    have hleft : maxRelationDepth - c.depth = 0 := Nat.sub_eq_zero_of_le hrounds
    rw [hleft]
    exact answers_pure _
  | succ rounds ih =>
    unfold Answers
    rw [assignableWithin_succ_run]
    by_cases hst : s = t
    · rw [if_pos hst, hst, assignableWithin_self]
    rw [if_neg hst]
    by_cases hlimit : maxRelationDepth ≤ c.depth
    · have hleft : maxRelationDepth - c.depth = 0 := Nat.sub_eq_zero_of_le hlimit
      rw [if_pos (show c.isAtLimit = true from decide_eq_true hlimit), hleft,
        Relation.assignableWithin, decide_eq_false hst]
    · obtain ⟨left, hleft⟩ : ∃ left, maxRelationDepth - c.depth = left + 1 :=
        ⟨maxRelationDepth - c.depth - 1, by omega⟩
      have hinside (s t : TypeExpr) : Answers (assignableWithin rounds s t) c.enter
          (Relation.assignableWithin c.types left s t) := by
        have hentered : maxRelationDepth - c.enter.depth = left := by
          rw [Checker.depth_enter]
          omega
        rw [← hentered]
        exact ih (by rw [Checker.depth_enter]; omega) s t
      have hlevel := answers_levelRelates hinside s t
      unfold Answers at hlevel
      rw [if_neg (by simpa [Checker.isAtLimit] using hlimit), hlevel, hleft,
        Relation.assignableWithin, decide_eq_false hst, Bool.false_or]
      rfl

end Inquiry

/-- The relation that a checker decides: so many levels are left to it. -/
def Checker.relates (c : Checker) : TypeExpr → TypeExpr → Bool :=
  assignableWithin c.types (maxRelationDepth - c.depth)

def Question.answer (r : TypeExpr → TypeExpr → Bool) : Question → Bool
  | .isAssignable source target => r source target
  | .signatureCovers offered wanted => Relation.signatureCovers r offered wanted
  | .overloadsCover offered wanted => Relation.overloadsCover r offered wanted

theorem Question.answer_mono {r r' : TypeExpr → TypeExpr → Bool}
    (hr : ∀ s t, r s t = true → r' s t = true) {q : Question} (h : q.answer r = true) :
    q.answer r' = true := by
  cases q with
  | isAssignable source target => exact hr source target h
  | signatureCovers offered wanted => exact signatureCovers_mono hr h
  | overloadsCover offered wanted => exact overloadsCover_mono hr h

namespace Checker

theorem answers_ask (c : Checker) (q : Question) :
    Inquiry.Answers (ask q) c (q.answer c.relates) := by
  have hrelates := fun s t ↦ Inquiry.answers_assignableWithin (c := c) (Nat.le_add_left _ _) s t
  cases q with
  | isAssignable source target => exact hrelates source target
  | signatureCovers offered wanted => exact Inquiry.answers_signatureCovers hrelates offered wanted
  | overloadsCover offered wanted => exact Inquiry.answers_overloadsCover hrelates offered wanted

theorem run_ask (c : Checker) (q : Question) : (ask q).run c = (q.answer c.relates, c) :=
  c.answers_ask q

/-- A run of questions, each of them put to the checker that the one before has left. -/
theorem run_mapM_ask (c : Checker) (qs : List Question) :
    (qs.mapM ask).run c = (qs.map fun q ↦ q.answer c.relates, c) := by
  induction qs with
  | nil => rfl
  | cons q qs ih =>
    rw [List.mapM_cons]
    change ((qs.mapM ask >>= fun rest ↦ pure (((ask q).run c).1 :: rest)) :
      StateM Checker (List Bool)).run ((ask q).run c).2 = _
    rw [run_ask]
    change (_ :: ((qs.mapM ask).run c).1, ((qs.mapM ask).run c).2) = _
    rw [ih, List.map_cons]

/-- An answer `true` is kept by every checker that is inside of fewer levels, each question leaves
the checker as it was, each of many questions is answered as if it were the first, and a checker
that is inside of no level decides assignability. -/
theorem ask_keeps_answers_and_depth {types : OrderedMap String TypeEntry} {d d' : Nat}
    (hdepth : d ≤ d') :
    (∀ q, ((ask q).run ⟨types, d'⟩).1 = true → ((ask q).run ⟨types, d⟩).1 = true) ∧
      (∀ q, ((ask q).run ⟨types, d⟩).2 = ⟨types, d⟩) ∧
      (∀ qs : List Question, (qs.mapM ask).run ⟨types, d⟩ =
        (qs.map fun q ↦ ((ask q).run ⟨types, d⟩).1, ⟨types, d⟩)) ∧
      ∀ q, ((ask q).run ⟨types, 0⟩).1 = q.answer (isAssignable types) := by
  simp only [run_ask, run_mapM_ask]
  refine ⟨fun q ↦ Question.answer_mono fun s t ↦ ?_, fun _ ↦ trivial, fun _ ↦ trivial, fun _ ↦ rfl⟩
  exact assignableWithin_mono (Nat.sub_le_sub_left hdepth maxRelationDepth)

/-- The alias `Loop` of `Loop | string`. -/
def loopingAlias : OrderedMap String TypeEntry :=
  OrderedMap.empty.insert "Loop"
    (.typeAlias ⟨"Loop", [], .union [.named "Loop", .keyword .string], default⟩)

/-- With three levels left, `never[]` is found to go to `Loop[]`, so it is with more of them. -/
theorem ask_keeps_answers_and_depth_loop :
    61 ≤ maxRelationDepth ∧ 3 ≤ 61 ∧
      ((ask (.isAssignable (.array (.keyword .never)) (.array (.named "Loop")))).run
        ⟨loopingAlias, 61⟩).1 = true ∧
      ((ask (.isAssignable (.array (.keyword .never)) (.array (.named "Loop")))).run
        ⟨loopingAlias, 3⟩).1 = true := by
  have hfound : ((ask (.isAssignable (.array (.keyword .never)) (.array (.named "Loop")))).run
      ⟨loopingAlias, 61⟩).1 = true := by
    rw [run_ask]
    decide +kernel
  exact ⟨by decide, by decide, hfound, (ask_keeps_answers_and_depth (by decide)).1 _ hfound⟩

end Checker
end Relation
end TypeSurface
