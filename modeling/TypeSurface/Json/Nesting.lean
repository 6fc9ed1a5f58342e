import TypeSurface.Json.Token

/-!
# Nested values

A value of any depth is passed over with a stack of the arrays and objects that are open.  It may be
passed over unread, where its quotations need no text and its numbers no range; or it is read, and
then not too many arrays and objects may be open.
-/

namespace TypeSurface
namespace Json

inductive Frame where
  | array
  | object
deriving DecidableEq, Repr

/-- What may come next inside the open arrays and objects. -/
inductive Expectation where
  | value
  | firstItem
  | firstName
  | name
  | colon
  | separator
deriving DecidableEq, Repr

inductive Progress where
  | done
  | more (stack : List Frame) (next : Expectation)
deriving DecidableEq, Repr

/-- The fault of a token, which may show only when it is read. -/
def Token.fault? (isRead : Bool) : Token → Option Fault
  | string pieces =>
    match isRead, Quotation.text none pieces with
    | true, .error fault => some fault
    | _, _ => none
  | brokenString pieces fault =>
    match isRead, Quotation.text (some fault) pieces with
    | true, .error first => some first
    | _, _ => some fault
  | number n => if isRead && !n.isInRange then some .malformed else none
  | brokenNumber hasEnded => some (if isRead && hasEnded then .unexpectedEnd else .malformed)
  | brokenWord fault => some fault
  | stray => some .malformed
  | _ => none

/-- Whether a value starts with the token. -/
def Token.startsValue : Token → Bool
  | closeArray | closeObject | comma | colon => false
  | _ => true

/-- What is reported of a token where a value of another type is wanted. -/
def Token.mismatch (t : Token) : Fault :=
  (t.fault? true).getD (if t.startsValue then .mismatch else .malformed)

namespace Nesting

def afterValue : List Frame → Progress
  | [] => .done
  | frame :: stack => .more (frame :: stack) .separator

/-- The number of arrays and objects that may be open, if the value is read. -/
abbrev Limit := Option Nat

def enter (limit : Limit) (stack : List Frame) (frame : Frame) (next : Expectation) :
    Except Fault Progress :=
  if limit.any (· ≤ stack.length) then .error .malformed else .ok (.more (frame :: stack) next)

def stepValue (limit : Limit) (stack : List Frame) (t : Token) : Except Fault Progress :=
  match t.fault? limit.isSome, t with
  | some fault, _ => .error fault
  | none, .openArray => enter limit stack .array .firstItem
  | none, .openObject => enter limit stack .object .firstName
  | none, t => if t.startsValue then .ok (afterValue stack) else .error .malformed

def stepName (limit : Limit) (stack : List Frame) (t : Token) : Except Fault Progress :=
  match t with
  | .string _ | .brokenString .. =>
    match t.fault? limit.isSome with
    | some fault => .error fault
    | none => .ok (.more stack .colon)
  | _ => .error .malformed

def stepSeparator : List Frame → Token → Except Fault Progress
  | .array :: stack, .comma => .ok (.more (.array :: stack) .value)
  | .object :: stack, .comma => .ok (.more (.object :: stack) .name)
  | .array :: stack, .closeArray => .ok (afterValue stack)
  | .object :: stack, .closeObject => .ok (afterValue stack)
  | _, _ => .error .malformed

def step (limit : Limit) (stack : List Frame) (next : Expectation) (t : Token) :
    Except Fault Progress :=
  match next with
  | .value => stepValue limit stack t
  | .firstItem =>
    if t = .closeArray then .ok (afterValue stack.tail) else stepValue limit stack t
  | .firstName =>
    if t = .closeObject then .ok (afterValue stack.tail) else stepName limit stack t
  | .name => stepName limit stack t
  | .colon => if t = .colon then .ok (.more stack .value) else .error .malformed
  | .separator => stepSeparator stack t

/-- The tokens behind the value that the open arrays and objects belong to. -/
def pass (limit : Limit) (stack : List Frame) (next : Expectation) :
    List Token → Except Fault (List Token)
  | [] => .error .unexpectedEnd
  | t :: ts =>
    match step limit stack next t with
    | .error fault => .error fault
    | .ok .done => .ok ts
    | .ok (.more stack next) => pass limit stack next ts

theorem length_lt_of_pass {limit : Limit} {stack : List Frame} {next : Expectation}
    {ts rest : List Token} (h : pass limit stack next ts = .ok rest) :
    rest.length < ts.length := by
  induction ts generalizing stack next with
  | nil => simp [pass] at h
  | cons t ts ih =>
    simp only [pass] at h
    split at h
    · cases h
    · cases h
      simp
    · exact Nat.lt_succ_of_lt (ih h)

/-- The tokens behind a value. -/
def passValue (limit : Limit) (ts : List Token) : Except Fault (List Token) :=
  pass limit [] .value ts

end Nesting

/-- Whether the tokens are those of one value. -/
def isValue (ts : List Token) : Bool :=
  match Nesting.passValue none ts with
  | .ok [] => true
  | _ => false

end Json
end TypeSurface
