import Mathlib.Data.List.Zip
import TypeSurface.Proofs.Relation.Matching

/-!
# Type parameters under other names

Two types are alike if they are equal but for the names of the type parameters that signatures
inside them declare: where one says the name of a type parameter, the other says the name that the
same type parameter has there.  A scope tells which names go together.
-/

namespace TypeSurface

def MemberForm.signatures : MemberForm → List Signature
  | .method _ _ signature | .call signature | .construct signature => [signature]
  | .property .. | .index .. => []

namespace TypeExpr

/-- The signatures that a type is directly made of. -/
def signatures : TypeExpr → List Signature
  | .function signature | .construct signature => [signature]
  | .object members => members.flatMap MemberForm.signatures
  | _ => []

end TypeExpr

namespace Relation

/-- The names of the type parameters on either side, those declared innermost first. -/
abbrev Scope := List (String × String)

namespace Scope

/-- Two names mean the same type parameter, or are the same name and mean none. -/
def Links : Scope → String → String → Prop
  | [], a, b => a = b
  | (p, q) :: scope, a, b => a = p ∧ b = q ∨ a ≠ p ∧ b ≠ q ∧ Links scope a b

def enter (scope : Scope) (s t : Signature) : Scope :=
  (namesFor s t.typeParams).reverse ++ scope

/-- All type parameters have the same names on both sides. -/
def IsPlain (scope : Scope) : Prop := ∀ p ∈ scope, p.1 = p.2

variable {scope : Scope} {a b : String}

theorem IsPlain.links_iff (h : scope.IsPlain) : scope.Links a b ↔ a = b := by
  induction scope with
  | nil => exact Iff.rfl
  | cons p scope ih =>
    obtain ⟨heq, hrest⟩ := List.forall_mem_cons.1 h
    obtain ⟨p, q⟩ := p
    cases heq
    rw [Links, ih hrest]
    constructor
    · rintro (⟨rfl, rfl⟩ | ⟨-, -, rfl⟩) <;> rfl
    · rintro rfl
      by_cases hp : a = p
      · exact .inl ⟨hp, hp⟩
      · exact .inr ⟨hp, hp, rfl⟩

theorem links_swap (h : scope.Links a b) : Links (scope.map Prod.swap) b a := by
  induction scope with
  | nil => exact h.symm
  | cons p scope ih =>
    rcases h with ⟨ha, hb⟩ | ⟨ha, hb, h⟩
    · exact .inl ⟨hb, ha⟩
    · exact .inr ⟨hb, ha, ih h⟩

theorem enter_swap (scope : Scope) (s t : Signature) :
    (scope.enter s t).map Prod.swap = enter (scope.map Prod.swap) t s := by
  simp only [enter, namesFor, List.map_append, List.map_reverse, List.map_map]
  rw [← List.zip_swap, List.map_map]
  rfl

end Scope

/-- What the parts of two types are compared by inside a scope; a signature opens a scope of its
own. -/
def inScope (A : Scope → TypeExpr → TypeExpr → Prop) (scope : Scope) : Correspondence where
  names := scope.Links
  types := A scope
  functions s t := SignatureMatches (A (scope.enter s t)) s t
  methods s t := SignatureMatches (A (scope.enter s t)) s t

/-- The types are alike in a scope, and are nested less than a number of times.  `P` is asked of the
two types and of all types inside them that correspond. -/
def AlikeWithin (P : Scope → TypeExpr → TypeExpr → Prop) : Nat → Scope → TypeExpr → TypeExpr → Prop
  | 0, _, _, _ => False
  | n + 1, scope, s, t => P scope s t ∧ (inScope (AlikeWithin P n) scope).Matches s t

def Alike (P : Scope → TypeExpr → TypeExpr → Prop) (scope : Scope) (s t : TypeExpr) : Prop :=
  ∃ n, AlikeWithin P n scope s t

/-- Signatures that are equal but for the names of their type parameters and of those inside; the
bounds and defaults of type parameters may be any. -/
def AlikeSignatures (P : Scope → TypeExpr → TypeExpr → Prop) (s t : Signature) : Prop :=
  ∃ n, SignatureMatches (AlikeWithin P n (Scope.enter [] s t)) s t

section Alike

variable {P P' : Scope → TypeExpr → TypeExpr → Prop} {n : Nat} {scope : Scope} {s t : TypeExpr}

theorem AlikeWithin.imp (hP : ∀ scope s t, P scope s t → P' scope s t)
    (h : AlikeWithin P n scope s t) : AlikeWithin P' n scope s t := by
  induction n generalizing scope s t with
  | zero => exact h.elim
  | succ n ih =>
    exact ⟨hP _ _ _ h.1, h.2.imp (fun _ _ ↦ id) (fun _ _ _ ↦ ih)
      (fun _ _ _ _ hab ↦ hab.imp fun _ _ _ ↦ ih) fun _ _ _ hab ↦ hab.imp fun _ _ _ ↦ ih⟩

theorem AlikeWithin.swap (hP : ∀ scope s t, P scope s t → P' (scope.map Prod.swap) t s)
    (h : AlikeWithin P n scope s t) : AlikeWithin P' n (scope.map Prod.swap) t s := by
  induction n generalizing scope s t with
  | zero => exact h.elim
  | succ n ih =>
    have hsignature (a b : Signature)
        (hab : SignatureMatches (AlikeWithin P n (scope.enter a b)) a b) :
        SignatureMatches (AlikeWithin P' n (Scope.enter (scope.map Prod.swap) b a)) b a := by
      rw [← Scope.enter_swap]
      exact hab.swap fun _ _ ↦ ih
    exact ⟨hP _ _ _ h.1, h.2.swap (fun _ _ ↦ Scope.links_swap) (fun _ _ ↦ ih) hsignature hsignature⟩

theorem AlikeWithin.height_eq {step : TypeExpr → Nat} (h : AlikeWithin P n scope s t)
    (hstep : ∀ (c : Correspondence) s t, c.Matches s t → step s = step t) :
    s.height step = t.height step := by
  induction n generalizing scope s t with
  | zero => exact h.elim
  | succ n ih =>
    exact height_eq_of_forall₂ (hstep _ s t h.2) (h.2.compared (fun _ _ ↦ ih)
      (fun _ _ hab ↦ hab.imp fun _ _ _ ↦ ih) fun _ _ hab ↦ hab.imp fun _ _ _ ↦ ih)

end Alike

end Relation
end TypeSurface
