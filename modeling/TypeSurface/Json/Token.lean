import TypeSurface.Json.Number
import TypeSurface.Json.Quotation

/-!
# Tokens of JSON text

Blanks separate tokens and mean nothing.  The first lexeme that is no token is the last in the list.
-/

namespace TypeSurface
namespace Json

inductive Token where
  | openArray
  | closeArray
  | openObject
  | closeObject
  | comma
  | colon
  | null
  | bool (value : Bool)
  | number (value : Number)
  | string (pieces : List Piece)
  | brokenString (pieces : List Piece) (fault : Fault)
  | brokenNumber (hasEnded : Bool)
  | brokenWord (fault : Fault)
  | stray
deriving DecidableEq, Repr

namespace Token

def isBlank (c : Char) : Bool := c == ' ' || c == '\t' || c == '\n' || c == '\r'

def ofPunctuation? : Char → Option Token
  | '[' => some openArray
  | ']' => some closeArray
  | '{' => some openObject
  | '}' => some closeObject
  | ',' => some comma
  | ':' => some colon
  | _ => none

/-- The word that starts with a character, without that character. -/
def wordTail? : Char → Option (Token × List Char)
  | 'n' => some (null, ['u', 'l', 'l'])
  | 't' => some (bool true, ['r', 'u', 'e'])
  | 'f' => some (bool false, ['a', 'l', 's', 'e'])
  | _ => none

/-- What follows the characters that are wanted. -/
def scanWord : List Char → List Char → Except Fault (List Char)
  | [], cs => .ok cs
  | _ :: _, [] => .error .unexpectedEnd
  | wanted :: word, c :: cs => if wanted = c then scanWord word cs else .error .malformed

theorem length_le_of_scanWord {word cs rest : List Char} (h : scanWord word cs = .ok rest) :
    rest.length ≤ cs.length := by
  induction word generalizing cs with
  | nil => simp_all [scanWord]
  | cons wanted word ih =>
    cases cs with
    | nil => simp [scanWord] at h
    | cons c cs =>
      simp only [scanWord] at h
      split at h
      · exact Nat.le_succ_of_le (ih h)
      · cases h

/-- The token that starts with `c`, and what follows it if it is whole. -/
def read (c : Char) (cs : List Char) : Token × Option (List Char) :=
  match ofPunctuation? c, wordTail? c with
  | some token, _ => (token, some cs)
  | none, some (token, word) =>
    match scanWord word cs with
    | .ok rest => (token, some rest)
    | .error fault => (brokenWord fault, none)
  | none, none =>
    if c = '"' then
      match (Quotation.scan cs).2 with
      | .ok rest => (string (Quotation.scan cs).1, some rest)
      | .error fault => (brokenString (Quotation.scan cs).1 fault, none)
    else if c = '-' ∨ c.isDigit then
      match Number.scan (c :: cs) with
      | .ok (n, rest) => (number n, some rest)
      | .error hasEnded => (brokenNumber hasEnded, none)
    else (stray, none)

theorem length_le_of_read {c : Char} {cs rest : List Char} (h : (read c cs).2 = some rest) :
    rest.length ≤ cs.length := by
  unfold read at h
  split at h
  · cases h
    exact Nat.le_refl _
  · split at h
    · next scanned =>
      cases h
      exact length_le_of_scanWord scanned
    · cases h
  · split at h
    · split at h
      · next scanned =>
        cases h
        exact Nat.le_of_lt (Quotation.length_lt_of_scan scanned)
      · cases h
    · split at h
      · split at h
        · next scanned =>
          cases h
          exact Nat.le_of_lt_succ (Number.length_of_scan scanned)
        · cases h
      · cases h

end Token

def tokens : List Char → List Token
  | [] => []
  | c :: cs =>
    if Token.isBlank c then tokens cs
    else
      match _h : (Token.read c cs).2 with
      | some rest => (Token.read c cs).1 :: tokens rest
      | none => [(Token.read c cs).1]
termination_by cs => cs.length
decreasing_by
  · simp
  · exact Nat.lt_succ_of_le (Token.length_le_of_read _h)

end Json
end TypeSurface
