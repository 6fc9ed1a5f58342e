import TypeSurface.Text.Slice

/-!
# Rules

A rule is one kind of defect that a declaration file, a set of files or a configuration can have.
It has a stable code, a category and a message template; a template names its arguments by the
marks `{0}`, `{1}`, and so on.  Codes fall into families.
-/

namespace TypeSurface

inductive Category where
  | warning
  | error
  | suggestion
  | message
deriving DecidableEq, Repr

/-- The broad cause that a code belongs to. -/
inductive Family where
  | syntactic
  | configuration
  | ambiguousMode
  | incompatibleMerge
  | incompleteMode
  | capabilityViolation
  | indexInconsistency
  | note
deriving DecidableEq, Repr

namespace Family

def all : List Family :=
  [.syntactic, .configuration, .ambiguousMode, .incompatibleMerge, .incompleteMode,
    .capabilityViolation, .indexInconsistency, .note]

theorem mem_all (f : Family) : f ∈ all := by
  cases f <;> simp [all]

def ofCode (code : Nat) : Family :=
  if 1000 ≤ code ∧ code ≤ 1999 then .syntactic
  else if code = 5001 then .ambiguousMode
  else if 5002 ≤ code ∧ code ≤ 5009 then .configuration
  else if 5010 ≤ code ∧ code ≤ 5019 then .incompatibleMerge
  else if 5020 ≤ code ∧ code ≤ 5029 then .incompleteMode
  else if 5030 ≤ code ∧ code ≤ 5039 then .capabilityViolation
  else if code = 5040 then .indexInconsistency
  else .note

end Family

inductive Rule where
  | expectedToken
  | unexpectedToken
  | unterminatedStringLiteral
  | unterminatedComment
  | invalidCharacter
  | typeExpected
  | declarationExpected
  | malformedDirective
  | missingSetHeader
  | typeNestingTooDeep
  | unknownMode
  | tooManyErrors
  | ambiguousMode
  | missingModeSet
  | modeMismatch
  | missingBaseSet
  | duplicateBaseSet
  | unknownDeclarationSet
  | duplicateSetId
  | incompatibleMember
  | conflictingTypeAlias
  | conflictingValue
  | declarationKindConflict
  | typeParameterMismatch
  | missingRequiredMember
  | missingRequiredGlobal
  | capabilityViolation
  | capabilityReachable
  | indexTypeInconsistency
  | deprecatedDeclarationSet
deriving DecidableEq, Repr

namespace Rule

def all : List Rule := [
  .expectedToken, .unexpectedToken, .unterminatedStringLiteral, .unterminatedComment,
  .invalidCharacter, .typeExpected, .declarationExpected, .malformedDirective, .missingSetHeader,
  .typeNestingTooDeep, .unknownMode, .tooManyErrors, .ambiguousMode, .missingModeSet, .modeMismatch,
  .missingBaseSet, .duplicateBaseSet, .unknownDeclarationSet, .duplicateSetId, .incompatibleMember,
  .conflictingTypeAlias, .conflictingValue, .declarationKindConflict, .typeParameterMismatch,
  .missingRequiredMember, .missingRequiredGlobal, .capabilityViolation, .capabilityReachable,
  .indexTypeInconsistency, .deprecatedDeclarationSet]

theorem mem_all (r : Rule) : r ∈ all := by
  cases r <;> simp [all]

def code : Rule → Nat
  | .expectedToken => 1001
  | .unexpectedToken => 1002
  | .unterminatedStringLiteral => 1003
  | .unterminatedComment => 1004
  | .invalidCharacter => 1005
  | .typeExpected => 1006
  | .declarationExpected => 1007
  | .malformedDirective => 1008
  | .missingSetHeader => 1009
  | .typeNestingTooDeep => 1010
  | .unknownMode => 1011
  | .tooManyErrors => 1012
  | .ambiguousMode => 5001
  | .missingModeSet => 5002
  | .modeMismatch => 5003
  | .missingBaseSet => 5004
  | .duplicateBaseSet => 5005
  | .unknownDeclarationSet => 5006
  | .duplicateSetId => 5007
  | .incompatibleMember => 5010
  | .conflictingTypeAlias => 5011
  | .conflictingValue => 5012
  | .declarationKindConflict => 5013
  | .typeParameterMismatch => 5014
  | .missingRequiredMember => 5020
  | .missingRequiredGlobal => 5021
  | .capabilityViolation => 5030
  | .capabilityReachable => 5031
  | .indexTypeInconsistency => 5040
  | .deprecatedDeclarationSet => 5041

def category : Rule → Category
  | .deprecatedDeclarationSet => .warning
  | _ => .error

def template : Rule → String
  | .expectedToken => "'\x7b0\x7d' expected."
  | .unexpectedToken => "Unexpected token '\x7b0\x7d'."
  | .unterminatedStringLiteral => "Unterminated string literal."
  | .unterminatedComment => "'*/' expected."
  | .invalidCharacter => "Invalid character."
  | .typeExpected => "Type expected."
  | .declarationExpected => "Declaration expected."
  | .malformedDirective => "Malformed directive '\x7b0\x7d'."
  | .missingSetHeader => "File '\x7b0\x7d' has no '/// <set id=\"...\" />' header."
  | .typeNestingTooDeep => "Type nesting exceeds the maximum depth of \x7b0\x7d."
  | .unknownMode => "Unknown mode '\x7b0\x7d'. Expected one of: \x7b1\x7d."
  | .tooManyErrors => "Too many errors in '\x7b0\x7d'; the rest of the file was skipped."
  | .ambiguousMode =>
    "Ambiguous mode: declaration sets \x7b0\x7d are mode-specific and cannot be active together."
  | .missingModeSet => "No declaration set is installed for mode '\x7b0\x7d'."
  | .modeMismatch =>
    "Mode '\x7b0\x7d' is configured but declaration set '\x7b1\x7d' realizes mode '\x7b2\x7d'."
  | .missingBaseSet => "No base declaration set is installed."
  | .duplicateBaseSet => "Only one base declaration set may be active, found \x7b0\x7d."
  | .unknownDeclarationSet => "Unknown declaration set '\x7b0\x7d'."
  | .duplicateSetId =>
    "Declaration set '\x7b0\x7d' is provided by both '\x7b1\x7d' and '\x7b2\x7d'."
  | .incompatibleMember =>
    "Member '\x7b0\x7d' of '\x7b1\x7d' is declared as '\x7b2\x7d' in '\x7b3\x7d' and as " ++
      "incompatible '\x7b4\x7d' in '\x7b5\x7d'."
  | .conflictingTypeAlias =>
    "Type alias '\x7b0\x7d' is declared as '\x7b1\x7d' in '\x7b2\x7d' and as '\x7b3\x7d' in " ++
      "'\x7b4\x7d'."
  | .conflictingValue =>
    "Global '\x7b0\x7d' is declared with type '\x7b1\x7d' in '\x7b2\x7d' and '\x7b3\x7d' in " ++
      "'\x7b4\x7d'."
  | .declarationKindConflict =>
    "'\x7b0\x7d' is declared as \x7b1\x7d in '\x7b2\x7d' and as \x7b3\x7d in '\x7b4\x7d'."
  | .typeParameterMismatch =>
    "All declarations of '\x7b0\x7d' must have identical type parameters: \x7b1\x7d in " ++
      "'\x7b2\x7d', \x7b3\x7d in '\x7b4\x7d'."
  | .missingRequiredMember =>
    "Mode '\x7b0\x7d' requires member '\x7b1\x7d' on '\x7b2\x7d', but the merged surface " ++
      "does not declare it."
  | .missingRequiredGlobal =>
    "Mode '\x7b0\x7d' requires global '\x7b1\x7d', but the merged surface does not declare it."
  | .capabilityViolation =>
    "Capability violation: '\x7b0\x7d' is excluded from mode '\x7b1\x7d' but is declared by " ++
      "'\x7b2\x7d'."
  | .capabilityReachable =>
    "Capability violation: '\x7b0\x7d' is excluded from mode '\x7b1\x7d' but is reachable " ++
      "through '\x7b2\x7d'."
  | .indexTypeInconsistency =>
    "'\x7b0\x7d' of '\x7b1\x7d' denotes an index, length or position and must use " ++
      "'\x7b2\x7d', found '\x7b3\x7d'."
  | .deprecatedDeclarationSet => "Declaration set '\x7b0\x7d' is deprecated."

def ofCode? (n : Nat) : Option Rule :=
  all.find? (·.code == n)

@[simp] theorem ofCode?_code (r : Rule) : ofCode? r.code = some r := by
  cases r <;> rfl

end Rule
end TypeSurface
