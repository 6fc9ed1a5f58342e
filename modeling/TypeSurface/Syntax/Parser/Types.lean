import TypeSurface.Syntax.Parser.Basic
import TypeSurface.Syntax.SourceFile

/-!
# Grammar of types and members

The rules take the parser of a nested type as an argument.  `Parser.typeExpr` ties the knot: a type
that may hold `n + 1` levels consists of types that may hold `n`, and a type that may hold none is
reported and ends the reading of the file.
-/

namespace TypeSurface
namespace Parser

/-- A word that is applied to the type behind it. -/
inductive Operator where
  | keyOf
  | readonly
deriving DecidableEq

def Operator.apply : Operator → TypeExpr → TypeExpr
  | keyOf, t => .keyOf t
  | readonly, t => .readonly t

namespace State

def startsSignature (kind : TokenKind) : Bool := kind = .openParen || kind = .lessThan

def isNextIn (s : State) (kinds : List TokenKind) : Bool := kinds.contains s.next.kind

/-- `new` in front of a signature. -/
def isConstruct (s : State) : Bool := s.isWord "new" && startsSignature s.next.kind

/-- The operator that the current word is, if what follows can be its operand. -/
def operator? (s : State) : Option Operator :=
  if s.isWord "keyof" && s.isNextIn [.identifier, .openParen, .openBrace, .openBracket] then
    some .keyOf
  else if s.isWord "readonly" && s.isNextIn [.identifier, .openBracket, .openParen] then
    some .readonly
  else none

/-- Whether an open parenthesis starts the parameters of a function type. -/
def isFunctionStart (s : State) : Bool :=
  s.kind = .openParen &&
    let first := s.scanner.scan
    match first.token.kind with
    | .closeParen | .ellipsis => true
    | .identifier =>
      let second := first.scan
      match second.token.kind with
      | .colon | .comma | .question | .equals => true
      | .closeParen => second.scan.token.kind = .arrow
      | _ => false
    | _ => false

/-- `[name:` is the start of an index signature, any other bracket that of a computed name. -/
def isIndexStart (s : State) : Bool :=
  s.kind = .openBracket &&
    let first := s.scanner.scan
    first.token.kind = .identifier && first.scan.token.kind = .colon

/-- `name:` and `name?:` give a tuple element its name. -/
def isElementName (s : State) : Bool :=
  s.kind = .identifier &&
    let first := s.scanner.scan
    match first.token.kind with
    | .colon => true
    | .question => first.scan.token.kind = .colon
    | _ => false

/-- `readonly` in front of the name of a member. -/
def isReadonlyModifier (s : State) : Bool :=
  s.isWord "readonly" && s.isNextIn [.identifier, .stringLiteral, .numericLiteral, .openBracket]

/-- `name is` on one line. -/
def isPredicate (s : State) : Bool :=
  s.kind = .identifier && s.next.isWord "is" && !s.next.afterLineBreak

/-- How a message names a token that cannot stand where it does. -/
def tokenText (s : State) : String :=
  match s.kind with
  | .identifier | .numericLiteral => s.value
  | .stringLiteral => "\"" ++ s.value ++ "\""
  | kind => kind.text

end State

section Rules

variable (type : Parser TypeExpr)

/-- The type behind `:`, and `any` without one. -/
def annotatedType : Parser TypeExpr := do
  if ← accept .colon then type else return .keyword .any

def typeParam : Parser TypeParam := do
  let (name, _) ← identifier
  let bound ← if ← view (·.isWord "extends") then advance; attempt type else pure none
  let default ← if ← accept .equals then attempt type else pure none
  return ⟨name, bound, default⟩

/-- A round of a list of type parameters.  A list that goes wrong ends there; what was read of it
stays. -/
def typeParamRound (params : List TypeParam) :
    Parser (Step (List TypeParam) (List TypeParam)) := do
  if (← view State.kind) = .greaterThan then return .done params
  match ← attempt (typeParam type) with
  | none => return .done params
  | some p =>
    if ← accept .comma then return .again (params ++ [p])
    return .done (params ++ [p])

def typeParams : Parser (List TypeParam) := do
  if ← accept .lessThan then
    let params ← loop (typeParamRound type) []
    let _ ← expect .greaterThan
    return params
  else return []

def param : Parser Param := do
  let isRest ← accept .ellipsis
  let (name, _) ← identifier
  let isOptional ← accept .question
  return ⟨name, ← annotatedType type, isOptional, isRest⟩

def resultType : Parser TypeExpr := do
  if ← view State.isPredicate then
    let parameter ← view State.value
    commit
    advance
    return .predicate parameter (← type)
  else type

/-- The result of a member or of a declared function, which may be missing. -/
def memberResult : Parser TypeExpr := do
  if ← accept .colon then resultType type else return .keyword .any

/-- The result of a function type. -/
def arrowResult : Parser TypeExpr := do
  require .arrow
  resultType type

def signature (result : Parser TypeExpr) : Parser Signature := do
  let typeParams ← typeParams type
  require .openParen
  let params ← commaList .closeParen (param type)
  require .closeParen
  return ⟨typeParams, params, ← result⟩

def memberSignature : Parser Signature := signature type (memberResult type)

def arrowSignature : Parser Signature := signature type (arrowResult type)

def propertyName : Parser PropertyName := do
  match ← view State.token with
  | ⟨.identifier, _, name, _⟩ => advance; return .identifier name
  | ⟨.stringLiteral, _, name, _⟩ => advance; return .string name
  | ⟨.numericLiteral, _, name, _⟩ => advance; return .numeric name
  | ⟨.openBracket, _, _, _⟩ =>
    advance
    let name ← dottedName
    require .closeBracket
    return .computed name
  | _ =>
    reportHere .unexpectedToken [← view State.tokenText]
    giveUp

def indexMember (isReadonly : Bool) : Parser MemberForm := do
  advance
  let (keyName, _) ← identifier
  let _ ← expect .colon
  let keyType ← type
  require .closeBracket
  require .colon
  return .index isReadonly keyName keyType (← type)

/-- What follows the name of a property or a method. -/
def namedTail (isReadonly : Bool) (name : PropertyName) : Parser MemberForm := do
  let isOptional ← accept .question
  if !isReadonly && State.startsSignature (← view State.kind) then
    return .method name isOptional (← memberSignature type)
  else return .property name isReadonly isOptional (← annotatedType type)

def namedMember (isReadonly : Bool) : Parser MemberForm := do
  namedTail type isReadonly (← propertyName)

/-- An index signature, or a member with a name. -/
def plainMember (isReadonly : Bool) : Parser MemberForm := do
  if ← view State.isIndexStart then indexMember type isReadonly else namedMember type isReadonly

def memberForm : Parser MemberForm := do
  if State.startsSignature (← view State.kind) then return .call (← memberSignature type)
  else if ← view State.isConstruct then
    advance
    return .construct (← memberSignature type)
  else
    let isReadonly ← view State.isReadonlyModifier
    if isReadonly then advance
    plainMember type isReadonly

/-- A member, behind which the line or the block ends or a separator stands. -/
def member : Parser PlacedMember := do
  let start ← view (·.token.span.start)
  let form ← memberForm type
  let span ← view (·.spanFrom start)
  let token ← view State.token
  unless [.semicolon, .comma, .closeBrace, .endOfFile].contains token.kind ||
      token.afterLineBreak do
    reportExpected ";"
  return ⟨form, span⟩

/-- A round of passing over the rest of a member, this many brackets deep. -/
def memberRecoveryRound (depth : Nat) : Parser (Step Nat Unit) := do
  let token ← view State.token
  match token.kind with
  | .endOfFile => return .done ()
  | .openBrace | .openParen | .openBracket => advance; return .again (depth + 1)
  | .closeParen | .closeBracket => advance; return .again (depth - 1)
  | .closeBrace =>
    if depth = 0 then return .done ()
    advance
    return .again (depth - 1)
  | kind =>
    if depth = 0 && (kind = .semicolon || kind = .comma) then
      advance
      return .done ()
    else if depth = 0 && token.afterLineBreak then return .done ()
    else
      advance
      return .again depth

/-- Passes over the rest of a member that could not be read: behind the next separator outside
brackets, or up to the end of the block or the next line. -/
def recoverToMember : Parser Unit := loop memberRecoveryRound 0

def isInBlock (s : State) : Bool :=
  !(s.kind = .closeBrace || s.kind = .endOfFile) && !s.isAbandoned

/-- What may stand between the members of a block. -/
def IsMemberSeparator (kind : TokenKind) : Prop := kind = .semicolon ∨ kind = .comma

instance : DecidablePred IsMemberSeparator := fun _ ↦ inferInstanceAs (Decidable (_ ∨ _))

/-- A round of a block: a separator or a member. -/
def blockRound : List PlacedMember → Parser (List PlacedMember) :=
  itemRound IsMemberSeparator (member type) recoverToMember

def memberBlock : Parser (List PlacedMember) := do
  require .openBrace
  let members ← loopWhile isInBlock (blockRound type) []
  let _ ← expect .closeBrace
  return members

def typeReference : Parser TypeExpr := do
  let name ← dottedName
  let token ← view State.token
  if token.kind = .lessThan && !token.afterLineBreak then
    advance
    let args ← commaList .greaterThan type
    require .greaterThan
    return .reference name args
  else return .named name

def tupleElement : Parser TupleElement := do
  let isRest ← accept .ellipsis
  let isNamedOptional ←
    if ← view State.isElementName then
      advance
      let isOptional ← accept .question
      let _ ← expect .colon
      pure isOptional
    else pure false
  let t ← type
  let isOptional ← if isNamedOptional then pure true else accept .question
  return ⟨t, isOptional, isRest⟩

/-- A type that is one word: a keyword, unless it is the first segment of a dotted name, a Boolean
literal, or a name. -/
def wordType : Parser TypeExpr := do
  let word ← view State.value
  match Keyword.ofText? word with
  | some keyword =>
    if (← view (·.next.kind)) = .dot then typeReference type
    else
      advance
      return .keyword keyword
  | none =>
    if word = "true" || word = "false" then
      advance
      return .literal (.boolean (word = "true"))
    else typeReference type

def primaryType : Parser TypeExpr := do
  match ← view State.token with
  | ⟨.identifier, _, _, _⟩ => wordType type
  | ⟨.stringLiteral, _, value, _⟩ => advance; return .literal (.string value)
  | ⟨.numericLiteral, _, text, _⟩ => advance; return .literal (.number text)
  | ⟨.openParen, _, _, _⟩ =>
    advance
    let inner ← type
    let _ ← expect .closeParen
    return inner
  | ⟨.openBrace, _, _, _⟩ => return .object ((← memberBlock type).map (·.form))
  | ⟨.openBracket, _, _, _⟩ =>
    advance
    let elements ← commaList .closeBracket (tupleElement type)
    require .closeBracket
    return .tuple elements
  | ⟨.minus, _, _, _⟩ =>
    if (← view (·.next.kind)) = .numericLiteral then
      advance
      let text ← view State.value
      advance
      return .literal (.number ("-" ++ text))
    else
      reportHere .typeExpected []
      giveUp
  | _ =>
    reportHere .typeExpected []
    giveUp

/-- A round of the brackets behind a type. -/
def bracketRound (t : TypeExpr) : Parser (Step TypeExpr TypeExpr) := do
  let token ← view State.token
  if token.kind = .openBracket && !token.afterLineBreak &&
      (← view (·.next.kind)) = .closeBracket then
    advance
    advance
    return .again (.array t)
  else return .done t

/-- A type and the `[]` behind it on its line. -/
def postfixType : Parser TypeExpr := do
  let element ← primaryType type
  loop bracketRound element

/-- A round of the operators in front of a type. -/
def operatorRound (operators : List Operator) : Parser (Step (List Operator) (List Operator)) := do
  match ← view State.operator? with
  | some op =>
    advance
    return .again (op :: operators)
  | none => return .done operators

/-- The operand behind operators that have been read. -/
def operand (operators : List Operator) : Parser TypeExpr := do
  let operand ← postfixType type
  return operators.foldl (fun t op ↦ op.apply t) operand

def operatorType : Parser TypeExpr := do
  let operators ← loop operatorRound []
  operand type operators

/-- A first type, or what `combine` makes of it and of those that `separator` introduces. -/
def combined (separator : TokenKind) (combine : List TypeExpr → TypeExpr)
    (first item : Parser TypeExpr) : Parser TypeExpr := do
  let t ← first
  if (← view State.kind) = separator then return combine (← introduced separator item t)
  else return t

def intersectionType : Parser TypeExpr := do
  let _ ← accept .ampersand
  combined .ampersand .intersection (operatorType type) (operatorType type)

/-- Whether a function type starts here. -/
def atFunctionType : Parser Bool :=
  view fun s ↦ s.kind = .lessThan || s.isFunctionStart

/-- A member of a union behind the first. -/
def unionMember : Parser TypeExpr := do
  if ← atFunctionType then return .function (← arrowSignature type) else intersectionType type

def unionType : Parser TypeExpr := do
  let _ ← accept .bar
  combined .bar .union (intersectionType type) (unionMember type)

def typeBody : Parser TypeExpr := do
  if ← atFunctionType then return .function (← arrowSignature type)
  else if ← view State.isConstruct then
    advance
    return .construct (← arrowSignature type)
  else unionType type

end Rules

/-- A type of at most `depth` levels. -/
def typeExpr : (depth : Nat) → Parser TypeExpr
  | 0 => do
    reportHere .typeNestingTooDeep [toString maxTypeNesting]
    update State.abandon
    giveUp
  | depth + 1 => typeBody (typeExpr depth)

end Parser
end TypeSurface
