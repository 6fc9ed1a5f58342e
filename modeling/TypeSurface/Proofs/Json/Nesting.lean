import Mathlib.Data.List.Chain
import TypeSurface.Json.Nesting

/-!
# Tokens of a value

In a value every token is whole, a number is followed by a comma or by the end of what it stands in,
and no comma stands in front of a closing bracket.
-/

namespace TypeSurface
namespace Json

namespace Token

/-- Whether an array or object starts with the token. -/
def opens (t : Token) : Bool := t == openArray || t == openObject

/-- Whether an array or object ends with the token. -/
def closes (t : Token) : Bool := t == closeArray || t == closeObject

theorem closes_iff {t : Token} : t.closes = true ↔ t = closeArray ∨ t = closeObject := by
  simp [closes]

theorem closes_eq_false_of_startsValue {t : Token} (h : t.startsValue = true) : t.closes = false := by
  cases t <;> first | rfl | cases h

/-- Whether two tokens may stand side by side in a value, as far as numbers and commas go. -/
structure Meets (t u : Token) : Prop where
  ofNumber : ∀ n, t = number n → u = comma ∨ u.closes = true
  ofComma : t = comma → u.closes = false

end Token

namespace Nesting

variable {limit : Limit} {stack stack' : List Frame} {next next' : Expectation} {t u : Token}
  {p : Progress}

/-- What a step does, by what is expected and what comes. -/
inductive Steps (isRead : Bool) (stack : List Frame) : Expectation → Token → Progress → Prop
  | value {next : Expectation} {t : Token} {p : Progress} (hnext : next = .value ∨ next = .firstItem)
    (hfault : t.fault? isRead = none) (ht : t.startsValue = true)
    (hp : t.opens = true ∨ p = afterValue stack) : Steps isRead stack next t p
  | name {next : Expectation} {pieces : List Piece} (hnext : next = .name ∨ next = .firstName)
    (hfault : (Token.string pieces).fault? isRead = none) :
    Steps isRead stack next (.string pieces) (.more stack .colon)
  | colon : Steps isRead stack .colon .colon (.more stack .value)
  | close {next : Expectation} {t : Token} (above : List Frame)
    (hnext : next = .firstItem ∨ next = .firstName ∨ next = .separator) (ht : t.closes = true) :
    Steps isRead stack next t (afterValue above)
  | comma {following : Expectation} (hfollowing : following = .value ∨ following = .name) :
    Steps isRead stack .separator .comma (.more stack following)

theorem of_stepValue (hnext : next = .value ∨ next = .firstItem)
    (h : stepValue limit stack t = .ok p) : Steps limit.isSome stack next t p := by
  unfold stepValue at h
  split at h
  · cases h
  · next hfault => exact .value hnext hfault rfl (Or.inl rfl)
  · next hfault => exact .value hnext hfault rfl (Or.inl rfl)
  · next _ _ hfault =>
    split at h
    · next ht =>
      cases h
      exact .value hnext hfault ht (Or.inr rfl)
    · cases h

theorem of_stepName (hnext : next = .name ∨ next = .firstName)
    (h : stepName limit stack t = .ok p) : Steps limit.isSome stack next t p := by
  unfold stepName at h
  split at h
  · split at h
    · cases h
    · next hfault =>
      cases h
      exact .name hnext hfault
  · next pieces fault =>
    split at h
    · cases h
    · next hfault =>
      simp only [Token.fault?] at hfault
      split at hfault <;> cases hfault
  · cases h

theorem of_step (h : step limit stack next t = .ok p) : Steps limit.isSome stack next t p := by
  unfold step at h
  split at h
  · exact of_stepValue (Or.inl rfl) h
  · split at h
    · next ht =>
      cases h
      exact .close _ (Or.inl rfl) (ht ▸ rfl)
    · exact of_stepValue (Or.inr rfl) h
  · split at h
    · next ht =>
      cases h
      exact .close _ (Or.inr (Or.inl rfl)) (ht ▸ rfl)
    · exact of_stepName (Or.inr rfl) h
  · exact of_stepName (Or.inl rfl) h
  · split at h
    · next ht =>
      cases h
      exact ht ▸ .colon
    · cases h
  · unfold stepSeparator at h
    split at h
    · cases h
      exact .comma (Or.inl rfl)
    · cases h
      exact .comma (Or.inr rfl)
    · cases h
      exact .close _ (Or.inr (Or.inr rfl)) rfl
    · cases h
      exact .close _ (Or.inr (Or.inr rfl)) rfl
    · cases h

theorem Steps.fault? {isRead : Bool} (h : Steps isRead stack next t p) : t.fault? isRead = none := by
  cases h with
  | value _ hfault => exact hfault
  | name _ hfault => exact hfault
  | colon => rfl
  | close _ _ ht => rcases Token.closes_iff.1 ht with rfl | rfl <;> rfl
  | comma => rfl

theorem eq_separator_of_afterValue (h : Progress.more stack' next' = afterValue stack) :
    next' = .separator := by
  cases stack with
  | nil => cases h
  | cons frame stack =>
    cases h
    rfl

/-- Two steps one after the other take two tokens that may meet. -/
theorem Steps.meets {isRead : Bool} (h : Steps isRead stack next t (.more stack' next'))
    (hu : Steps isRead stack' next' u p) : t.Meets u := by
  constructor
  · rintro n rfl
    obtain rfl : next' = .separator := by
      generalize hp' : Progress.more stack' next' = p' at h
      cases h with
      | value _ _ _ hp =>
        exact eq_separator_of_afterValue (hp'.trans (hp.resolve_left (by simp [Token.opens])))
      | close _ _ ht => cases ht
    cases hu with
    | value hnext => simp at hnext
    | name hnext => simp at hnext
    | close _ _ ht => exact Or.inr ht
    | comma => exact Or.inl rfl
  · rintro rfl
    have hnext : next' = .value ∨ next' = .name := by
      generalize hp : Progress.more stack' next' = p' at h
      cases h with
      | value _ _ ht => cases ht
      | close _ _ ht => cases ht
      | comma hfollowing =>
        cases hp
        exact hfollowing
    cases hu with
    | value _ _ ht => exact Token.closes_eq_false_of_startsValue ht
    | name => rfl
    | colon => rfl
    | close _ hclose => rcases hnext with rfl | rfl <;> simp at hclose
    | comma => rfl

theorem meets_of_pass {ts : List Token} (h : pass limit stack next ts = .ok []) :
    ts.IsChain Token.Meets ∧ ∀ t ∈ ts, t.fault? limit.isSome = none := by
  induction ts generalizing stack next with
  | nil => cases h
  | cons t ts ih =>
    simp only [pass] at h
    split at h
    · cases h
    · next hstep =>
      cases h
      exact ⟨List.isChain_singleton t, by simpa using (of_step hstep).fault?⟩
    · next stack' next' hstep =>
      obtain ⟨hchain, hfaults⟩ := ih h
      refine ⟨?_, List.forall_mem_cons.2 ⟨(of_step hstep).fault?, hfaults⟩⟩
      cases ts with
      | nil => exact List.isChain_singleton t
      | cons u us =>
        refine List.isChain_cons_cons.2 ⟨?_, hchain⟩
        simp only [pass] at h
        cases hnext : step limit stack' next' u with
        | error fault =>
          rw [hnext] at h
          cases h
        | ok p => exact (of_step hstep).meets (of_step hnext)

end Nesting

/-- The tokens of a value are whole and stand side by side as they may. -/
theorem meets_of_isValue {ts : List Token} (h : isValue ts = true) :
    ts.IsChain Token.Meets ∧ ∀ t ∈ ts, t.fault? false = none := by
  unfold isValue at h
  split at h
  · next hpass => exact Nesting.meets_of_pass hpass
  · cases h

end Json
end TypeSurface
