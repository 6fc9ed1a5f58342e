import TypeSurface.Merge.Interface
import TypeSurface.Proofs.Declaration.Forms

/-!
# Merging two members

The ways in which two members of one key go together, and the member that they make.
-/

namespace TypeSurface
namespace Merge

/-- Why two members go together under a policy, and what they make. -/
inductive MakesMember (types : OrderedMap String TypeEntry) (base extension : Member) :
    Policy → Member → Prop
  | same {policy : Policy} (hshape : base.hasSameShape extension = true) :
      MakesMember types base extension policy extension
  | property {policy : Policy} {b e : TypeExpr} (hbase : base.body = .property b)
      (hextension : extension.body = .property e)
      (hoptional : extension.isOptional = true → base.isOptional = true)
      (hreadonly : base.isReadonly = true → extension.isReadonly = true)
      (hassignable : Relation.isAssignable types e b = true) :
      MakesMember types base extension policy extension
  | index {policy : Policy} {bkey ekey : String} {bkeyType ekeyType b e : TypeExpr}
      (hbase : base.body = .index bkey bkeyType b)
      (hextension : extension.body = .index ekey ekeyType e)
      (hoptional : extension.isOptional = true → base.isOptional = true)
      (hreadonly : base.isReadonly = true → extension.isReadonly = true)
      (hassignable : Relation.isAssignable types e b = true) :
      MakesMember types base extension policy extension
  | covered {k : Overloading} {b e : List Signature} (hbase : base.body = k.body b)
      (hextension : extension.body = k.body e)
      (hoptional : extension.isOptional = true → base.isOptional = true)
      (hcovers : Relation.overloadsCover (Relation.isAssignable types) e b = true) :
      MakesMember types base extension .replace extension
  | gathered {k : Overloading} {b e : List Signature} (hbase : base.body = k.body b)
      (hextension : extension.body = k.body e)
      (hoptional : extension.isOptional = true → base.isOptional = true) :
      MakesMember types base extension .gather { base with body := k.body (appendNew b e) }

section Members

variable {types : OrderedMap String TypeEntry} {policy : Policy} {base extension m : Member}

theorem valueMember?_eq_some {b e : TypeExpr}
    (h : valueMember? types base extension b e = some m) :
    m = extension ∧ (base.isReadonly = true → extension.isReadonly = true) ∧
      Relation.isAssignable types e b = true := by
  unfold valueMember? at h
  split at h
  · cases h
  next hreadonly =>
    split at h
    · next hassignable =>
      refine ⟨(Option.some.inj h).symm, fun hb ↦ ?_, hassignable⟩
      simpa [hb] using hreadonly
    · cases h

theorem makesMember_of_overloadedMember? {k : Overloading} {b e : List Signature}
    (hbase : base.body = k.body b) (hextension : extension.body = k.body e)
    (hoptional : extension.isOptional = true → base.isOptional = true)
    (h : overloadedMember? types policy base extension k.body b e = some m) :
    MakesMember types base extension policy m := by
  cases policy with
  | gather =>
    obtain rfl := Option.some.inj h
    exact .gathered hbase hextension hoptional
  | replace =>
    obtain ⟨overloads, hoverloads, rfl⟩ := Option.map_eq_some_iff.1 h
    unfold overloads? at hoverloads
    by_cases hcovers : Relation.overloadsCover (Relation.isAssignable types) e b = true
    · exact .covered hbase hextension hoptional hcovers
    · simp [hcovers] at hoverloads

theorem makesMember_of_member? (h : member? types policy base extension = some m) :
    MakesMember types base extension policy m := by
  unfold member? at h
  split at h
  · next hshape =>
    obtain rfl := Option.some.inj h
    exact .same hshape
  split at h
  · cases h
  next hguard =>
    have hoptional : extension.isOptional = true → base.isOptional = true := by
      intro he
      by_contra hb
      simp [he, hb] at hguard
    split at h
    · next b e hb he =>
      obtain ⟨rfl, hreadonly, hassignable⟩ := valueMember?_eq_some h
      exact .property hb he hoptional hreadonly hassignable
    · next b e hb he =>
      obtain ⟨rfl, hreadonly, hassignable⟩ := valueMember?_eq_some h
      exact .index hb he hoptional hreadonly hassignable
    · next b e hb he => exact makesMember_of_overloadedMember? (k := .method) hb he hoptional h
    · next b e hb he => exact makesMember_of_overloadedMember? (k := .call) hb he hoptional h
    · next b e hb he => exact makesMember_of_overloadedMember? (k := .construct) hb he hoptional h
    · cases h

/-- Across sets, the member that two members make is that of the extension. -/
theorem MakesMember.eq_extension (h : MakesMember types base extension .replace m) :
    m = extension := by
  cases h <;> rfl

/-- Two members make the second one, or the first one with more overloads. -/
theorem MakesMember.eq_extension_or_gathered (h : MakesMember types base extension policy m) :
    m = extension ∨ ∃ k b e, base.body = Overloading.body k b ∧
      extension.body = k.body e ∧ m = { base with body := k.body (appendNew b e) } := by
  cases h with
  | gathered hbase hextension _ => exact Or.inr ⟨_, _, _, hbase, hextension, rfl⟩
  | _ => exact Or.inl rfl

end Members

end Merge
end TypeSurface
