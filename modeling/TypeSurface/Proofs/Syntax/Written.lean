import TypeSurface.Proofs.Syntax.Name
import TypeSurface.Proofs.Syntax.Nodes
import TypeSurface.Syntax.TypeExpr.Text

/-!
# What can be written

The conditions on a type under which its text is read as the type again.  All but the depth concern
one node of the type at a time.  A type is *written* if its names and numbers are such as a reader
finds in a text, and *plain* if its text is not taken for another type.
-/

namespace TypeSurface

/-! ### Written types -/

/-- The text of a number, perhaps with a sign. -/
def Lexeme.isSignedNumeral : List Char → Bool
  | '-' :: cs => isNumeral cs
  | cs => isNumeral cs

def TypeExpr.isPredicate : TypeExpr → Bool
  | .predicate _ _ => true
  | _ => false

def TypeExpr.isReference : TypeExpr → Bool
  | .reference _ _ => true
  | _ => false

/-- Whether a reader that meets the name takes it for one: its first word is no literal, and a keyword
only with a dot behind it. -/
def Text.isTypeName (name : String) : Bool :=
  match segments name with
  | [] => false
  | w :: words => w != "true" && w != "false" && (!words.isEmpty || (Keyword.ofText? w).isNone)

/-- Whether a type may stand wherever one may: it is no predicate, and its name is taken for one. -/
def TypeExpr.isProper : TypeExpr → Bool
  | .predicate _ _ => false
  | .reference name _ => Text.isTypeName name
  | _ => true

def Literal.isWritten : Literal → Bool
  | .number text => Lexeme.isSignedNumeral text.toList
  | .string _ | .boolean _ => true

def PropertyName.isWritten : PropertyName → Bool
  | .identifier name => Lexeme.isWord name.toList
  | .numeric name => Lexeme.isNumeral name.toList
  | .computed name => Text.isDotted name
  | .string _ => true

def TypeParam.isWritten (p : TypeParam) : Bool :=
  Lexeme.isWord p.name.toList && p.types.all TypeExpr.isProper

def Param.isWritten (p : Param) : Bool :=
  Lexeme.isWord p.name.toList && p.type.isProper

/-- Only the result of a signature may be a predicate. -/
def Signature.isWritten (s : Signature) : Bool :=
  s.typeParams.all TypeParam.isWritten && s.params.all Param.isWritten &&
    (s.result.isPredicate || s.result.isProper)

def MemberForm.isWritten : MemberForm → Bool
  | .property name _ _ type => name.isWritten && type.isProper
  | .method name _ signature => name.isWritten && signature.isWritten
  | .index _ keyName keyType type =>
    Lexeme.isWord keyName.toList && keyType.isProper && type.isProper
  | .call signature | .construct signature => signature.isWritten

def TypeExpr.isWrittenNode : TypeExpr → Bool
  | .keyword _ => true
  | .reference name args => Text.isDotted name && args.all isProper
  | .literal value => value.isWritten
  | .tuple elements => elements.all (·.type.isProper)
  | .union members | .intersection members =>
    2 ≤ members.length && members.all isProper
  | .function signature | .construct signature => signature.isWritten
  | .object members => members.all MemberForm.isWritten
  | .array t | .keyOf t | .readonly t => t.isProper
  | .predicate parameter type => Lexeme.isWord parameter.toList && type.isProper

/-! ### Plain types -/

/-- The words that mean something else than a name at the front of a type. -/
def reservedWords : List String :=
  Keyword.all.map Keyword.text ++ ["true", "false", "keyof", "readonly", "new", "is"]

def isPlainText (text : String) : Bool := text.toList.all Lexeme.isPlainChar

def PropertyName.isPlain : PropertyName → Bool
  | .string name => isPlainText name
  | .identifier _ | .numeric _ | .computed _ => true

def MemberForm.isPlain : MemberForm → Bool
  | .property name _ _ _ | .method name _ _ => name.isPlain
  | .index .. | .call _ | .construct _ => true

namespace TypeExpr

/-- What an array type is an array of, at any depth. -/
def root : TypeExpr → TypeExpr
  | .array element => element.root
  | t => t

def isTextOrNumber : TypeExpr → Bool
  | .literal (.string _) | .literal (.number _) => true
  | _ => false

def isObject : TypeExpr → Bool
  | .object _ => true
  | _ => false

def isUnion : TypeExpr → Bool
  | .union _ => true
  | _ => false

def isIntersection : TypeExpr → Bool
  | .intersection _ => true
  | _ => false

def isPlainNode : TypeExpr → Bool
  | .reference name _ => (Text.segments name).all fun word ↦ !reservedWords.contains word
  | .literal (.string text) => isPlainText text
  | .union members => members.all (!·.isUnion)
  | .intersection members => members.all (!·.isIntersection)
  | .keyOf operand => !operand.root.isTextOrNumber
  | .readonly operand => !operand.root.isTextOrNumber && !operand.root.isObject
  | .object members => members.all MemberForm.isPlain
  | _ => true

end TypeExpr

/-! ### Methods that are written as construct signatures -/

/-- A method that has no mark and the bare name `new`. -/
def MemberForm.isBareNew : MemberForm → Bool
  | .method (.identifier name) isOptional _ => name == "new" && !isOptional
  | _ => false

def TypeExpr.holdsBareNew : TypeExpr → Bool
  | .object members => members.any MemberForm.isBareNew
  | _ => false

/-! ### Depth -/

/-- The greatest of some numbers. -/
def greatest (ns : List Nat) : Nat := ns.foldr max 0

theorem greatest_le_iff {ns : List Nat} {n : Nat} : greatest ns ≤ n ↔ ∀ m ∈ ns, m ≤ n := by
  induction ns with
  | nil => simp [greatest]
  | cons m ms ih =>
    rw [greatest, List.foldr_cons, Nat.max_le, List.forall_mem_cons]
    exact and_congr_right fun _ ↦ ih

mutual

/-- How deep the text of a type nests types in brackets, parentheses and signatures. -/
def TypeExpr.depth : TypeExpr → Nat
  | .keyword _ | .literal _ => 0
  | .reference _ args => greatest (args.map fun t ↦ t.depth + 1)
  | .array t => t.depth + if t.isLoosePostfixOperand then 1 else 0
  | .tuple elements => greatest (elements.map TupleElement.depth)
  | .union members => greatest (members.map fun t ↦ t.depth + if t.isLooseUnionMember then 1 else 0)
  | .intersection members =>
    greatest (members.map fun t ↦ t.depth + if t.isLooseIntersectionMember then 1 else 0)
  | .function signature | .construct signature => signature.depth
  | .object members => greatest (members.map MemberForm.depth)
  | .keyOf t | .readonly t => t.depth + if t.isLoosePrefixOperand then 1 else 0
  | .predicate _ t => t.depth
termination_by t => sizeOf t

def TypeParam.depth : TypeParam → Nat
  | ⟨_, bound, default⟩ =>
    max (match bound with | none => 0 | some t => t.depth + 1)
      (match default with | none => 0 | some t => t.depth + 1)
termination_by p => sizeOf p

def Param.depth : Param → Nat
  | ⟨_, type, _, _⟩ => type.depth + 1
termination_by p => sizeOf p

def Signature.depth : Signature → Nat
  | ⟨typeParams, params, result⟩ =>
    max (greatest (typeParams.map TypeParam.depth))
      (max (greatest (params.map Param.depth)) (result.depth + 1))
termination_by s => sizeOf s

def TupleElement.depth : TupleElement → Nat
  | ⟨type, isOptional, _⟩ =>
    type.depth + 1 + if isOptional && type.isLoosePostfixOperand then 1 else 0
termination_by e => sizeOf e

def MemberForm.depth : MemberForm → Nat
  | .property _ _ _ type => type.depth + 1
  | .method _ _ signature => signature.depth
  | .index _ _ keyType type => max (keyType.depth + 1) (type.depth + 1)
  | .call signature => signature.depth
  | .construct signature => signature.depth
termination_by m => sizeOf m

end

theorem TypeParam.depth_lt {p : TypeParam} {t : TypeExpr} (ht : t ∈ p.types) :
    t.depth < p.depth := by
  obtain ⟨name, bound, default⟩ := p
  simp only [TypeParam.types, List.mem_append, Option.mem_toList] at ht
  rw [TypeParam.depth.eq_def]
  rcases ht with rfl | rfl
  · simp only
    omega
  · simp only
    omega

theorem Signature.depth_lt {s : Signature} {t : TypeExpr} (ht : t ∈ s.types) :
    t.depth < s.depth := by
  obtain ⟨typeParams, params, result⟩ := s
  have hparams := greatest_le_iff.1 (Nat.le_refl (greatest (typeParams.map TypeParam.depth)))
  have hargs := greatest_le_iff.1 (Nat.le_refl (greatest (params.map Param.depth)))
  simp only [Signature.types, List.mem_append, List.mem_flatMap, List.mem_map,
    List.mem_singleton] at ht
  rw [Signature.depth]
  rcases ht with (⟨p, hp, ht⟩ | ⟨p, hp, rfl⟩) | rfl
  · have hlt := TypeParam.depth_lt ht
    have hle := hparams _ (List.mem_map_of_mem hp)
    omega
  · have hle := hargs _ (List.mem_map_of_mem hp)
    have hlt : p.type.depth < p.depth := by
      cases p
      rw [Param.depth]
      exact Nat.lt_succ_self _
    omega
  · omega

theorem MemberForm.depth_lt {m : MemberForm} {t : TypeExpr} (ht : t ∈ m.types) :
    t.depth < m.depth := by
  cases m with
  | property name isReadonly isOptional type =>
    cases List.mem_singleton.1 ht
    rw [MemberForm.depth]
    exact Nat.lt_succ_self _
  | method name isOptional signature =>
    rw [MemberForm.depth]
    exact Signature.depth_lt ht
  | index isReadonly keyName keyType type =>
    simp only [MemberForm.types, List.mem_cons, List.not_mem_nil, or_false] at ht
    rw [MemberForm.depth]
    rcases ht with rfl | rfl <;> omega
  | call signature =>
    rw [MemberForm.depth]
    exact Signature.depth_lt ht
  | construct signature =>
    rw [MemberForm.depth]
    exact Signature.depth_lt ht

end TypeSurface
