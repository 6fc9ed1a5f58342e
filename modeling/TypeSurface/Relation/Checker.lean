import TypeSurface.Relation.Assignable

/-!
# Checkers

A checker answers questions about types under a table of aliases and counts the levels that it is
inside of.  At the limit it only finds equal types related.  One checker answers many questions, so
each question has to leave the count as it was.

The rules are those of the relation, read in the order in which a checker asks them: what is inside
a type is asked only as long as the answer is open.
-/

namespace TypeSurface
namespace Relation

structure Checker where
  types : OrderedMap String TypeEntry
  depth : Nat := 0

namespace Checker

def isAtLimit (c : Checker) : Bool := maxRelationDepth ≤ c.depth

def enter (c : Checker) : Checker := { c with depth := c.depth + 1 }

def leave (c : Checker) : Checker := { c with depth := c.depth - 1 }

@[simp] theorem depth_enter (c : Checker) : c.enter.depth = c.depth + 1 := rfl

end Checker

/-- Something that a checker does to answer yes or no. -/
abbrev Inquiry := StateM Checker Bool

namespace Inquiry

section Rules

variable (relates : TypeExpr → TypeExpr → Inquiry)

def resultRelates (source target : TypeExpr) : Inquiry :=
  pure (target.isKeyword .void) <||> relates source target

def paramsRelate (offered wanted : List Param) : Inquiry :=
  wanted.zipIdx.allM fun (w, i) ↦
    match paramAt? offered i with
    | none => pure true
    | some o =>
      let offeredType := argumentType o.isRest o.type
      let wantedType := argumentType w.isRest w.type
      relates wantedType offeredType <||> relates offeredType wantedType

def signatureCovers (offered wanted : Signature) : Inquiry :=
  pure (offered.typeParams.length == wanted.typeParams.length) <&&>
    let renamed :=
      if haveSameNames offered.typeParams wanted.typeParams then offered
      else renameTypeParams offered wanted.typeParams
    pure (arityCovers renamed wanted) <&&>
      paramsRelate relates renamed.valueParams wanted.valueParams <&&>
      resultRelates relates renamed.result wanted.result

def overloadsCover (offered wanted : List Signature) : Inquiry :=
  wanted.allM fun w ↦ offered.anyM fun o ↦ signatureCovers relates o w

def functionRelates (source target : Signature) : Inquiry :=
  pure (source.typeParams.length == target.typeParams.length) <&&>
    pure (source.minArity ≤ target.valueParams.length || target.maxArity.isNone) <&&>
    paramsRelate relates source.valueParams target.valueParams <&&>
    resultRelates relates source.result target.result

def formRelates (source target : MemberForm) : Inquiry :=
  match source, target with
  | .property _ _ _ s, .property _ _ _ t => relates s t
  | .index _ _ _ s, .index _ _ _ t => relates s t
  | .method _ _ s, .method _ _ t => signatureCovers relates s t
  | .call s, .call t => signatureCovers relates s t
  | .construct s, .construct t => signatureCovers relates s t
  | _, _ => pure false

def objectRelates (source target : List MemberForm) : Inquiry :=
  target.allM fun wanted ↦
    match source.find? fun offered ↦ formKey offered == formKey wanted with
    | none => pure (isOptionalForm wanted)
    | some offered => formRelates relates offered wanted

def elementRelates (s t : TupleElement) : Inquiry :=
  pure (s.isRest == t.isRest && (t.isOptional || !s.isOptional)) <&&> relates s.type t.type

def otherRelates (source target : TypeExpr) : Inquiry :=
  match source, target with
  | .reference m as, .reference n bs =>
    pure (m == n && as.length == bs.length) <&&> (as.zip bs).allM fun (a, b) ↦ relates a b
  | .function s, .function t => functionRelates relates s t
  | .construct s, .construct t => functionRelates relates s t
  | .object s, .object t => objectRelates relates s t
  | .predicate p s, .predicate q t => pure (p == q) <&&> relates s t
  | _, _ => pure false

def shapeRelates (source target : Shape) : Inquiry :=
  match source, target with
  | .array s, .array t | .array s, .readonlyArray t | .readonlyArray s, .readonlyArray t =>
    relates s t
  | .tuple es, .array t | .tuple es, .readonlyArray t =>
    es.allM fun e ↦ relates (argumentType e.isRest e.type) t
  | .tuple es, .tuple fs =>
    pure (es.length == fs.length) <&&> (es.zip fs).allM fun (e, f) ↦ elementRelates relates e f
  | .other s, .other t => otherRelates relates s t
  | _, _ => pure false

def relateParts? (source target : TypeExpr) : Option Inquiry :=
  match source, target with
  | .union members, _ => some (members.allM (relates · target))
  | _, .intersection members => some (members.allM (relates source ·))
  | _, .union members => some (members.anyM (relates source ·))
  | .intersection members, _ => some (members.anyM (relates · target))
  | _, _ => none

def structureRelates (source target : TypeExpr) : Inquiry :=
  pure (isFree source target) <||>
    match relateParts? relates source target with
    | some inquiry => inquiry
    | none =>
      if target.isKeyword .object then pure (isObjectLike source)
      else
        match relatePrimitives? source target with
        | some answer => pure answer
        | none => shapeRelates relates (shapeOf source) (shapeOf target)

def levelRelates (source target : TypeExpr) : Inquiry := do
  let types := (← get).types
  match expandAlias? types source, expandAlias? types target with
  | some body, _ => relates body target
  | none, some body => relates source body
  | none, none => structureRelates relates source target

end Rules

/-- One level after the other, at most `rounds` of them.  A checker is at its limit before
`maxRelationDepth` rounds are used up. -/
def assignableWithin : Nat → TypeExpr → TypeExpr → Inquiry
  | 0, source, target => return source = target
  | rounds + 1, source, target => do
    if source = target then return true
    if (← get).isAtLimit then return false
    modify Checker.enter
    let answer ← levelRelates (assignableWithin rounds) source target
    modify Checker.leave
    return answer

end Inquiry

/-- What a checker can be asked. -/
inductive Question where
  | isAssignable (source target : TypeExpr)
  | signatureCovers (offered wanted : Signature)
  | overloadsCover (offered wanted : List Signature)

/-- The answer of a checker to a question, and the checker after it. -/
def Checker.ask : Question → Inquiry
  | .isAssignable source target => Inquiry.assignableWithin maxRelationDepth source target
  | .signatureCovers offered wanted =>
    Inquiry.signatureCovers (Inquiry.assignableWithin maxRelationDepth) offered wanted
  | .overloadsCover offered wanted =>
    Inquiry.overloadsCover (Inquiry.assignableWithin maxRelationDepth) offered wanted

end Relation
end TypeSurface
