import TypeSurface.Declaration.Basic

/-!
# Aliases

A plain name that is an alias without type parameters stands for the body of the alias.  The index
type is an alias of `number` but is never taken for it.
-/

namespace TypeSurface
namespace Relation

/-- One step from a plain name to the body of its alias. -/
def expandAlias? (types : OrderedMap String TypeEntry) : TypeExpr → Option TypeExpr
  | .reference name [] =>
    if name = Index.typeName then none
    else
      match types.get? name with
      | some (.typeAlias a) =>
        if a.typeParams.isEmpty && a.type != .named name then some a.type else none
      | _ => none
  | _ => none

theorem expandAlias?_eq_some_iff {types : OrderedMap String TypeEntry} {t body : TypeExpr} :
    expandAlias? types t = some body ↔
      ∃ name a, t = .named name ∧ name ≠ Index.typeName ∧
        types.get? name = some (.typeAlias a) ∧ a.typeParams = [] ∧ a.type ≠ t ∧
        a.type = body := by
  constructor
  · intro h
    unfold expandAlias? at h
    split at h
    · next name =>
      split at h
      · cases h
      next other =>
        split at h
        · next a found =>
          split at h
          · next plain =>
            simp only [Bool.and_eq_true, List.isEmpty_iff, bne_iff_ne, ne_eq] at plain
            exact ⟨name, a, rfl, other, found, plain.1, plain.2, Option.some.inj h⟩
          · cases h
        · cases h
    · cases h
  · rintro ⟨name, a, rfl, other, found, noParams, proper, rfl⟩
    simp [expandAlias?, TypeExpr.named, other, found, noParams]
    exact proper

@[simp] theorem expandAlias?_index (types : OrderedMap String TypeEntry) :
    expandAlias? types Index.type = none := by
  simp [expandAlias?, Index.type, TypeExpr.named]

@[simp] theorem expandAlias?_empty (t : TypeExpr) : expandAlias? .empty t = none := by
  unfold expandAlias?
  split <;> simp [OrderedMap.get?, OrderedMap.empty]

end Relation
end TypeSurface
