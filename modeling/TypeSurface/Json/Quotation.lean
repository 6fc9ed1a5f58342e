import TypeSurface.Json.Fault
import TypeSurface.Text.Slice

/-!
# Quoted text in JSON

What stands between two quotes is a sequence of characters and of 16-bit units, each unit written as
four hexadecimal digits behind `\u`.  A unit is half of a character if it is a surrogate, so that
not every quotation has a text.
-/

namespace TypeSurface
namespace Json

/-- One element of a quotation. -/
inductive Piece where
  | char (c : Char)
  | unit (value : Nat)
deriving DecidableEq, Repr

namespace Quotation

def hexValue? (c : Char) : Option Nat :=
  if c.isDigit then some (c.toNat - '0'.toNat)
  else if 'a' ≤ c ∧ c ≤ 'f' then some (c.toNat - 'a'.toNat + 10)
  else if 'A' ≤ c ∧ c ≤ 'F' then some (c.toNat - 'A'.toNat + 10)
  else none

def unit? (a b c d : Char) : Option Nat := do
  return ((← hexValue? a) * 16 + (← hexValue? b)) * 256 + (← hexValue? c) * 16 + (← hexValue? d)

/-- The character that a backslash and `c` stand for. -/
def unescape? (c : Char) : Option Char :=
  if c = '"' ∨ c = '\\' ∨ c = '/' then some c
  else if c = 'b' then some '\x08'
  else if c = 'f' then some '\x0c'
  else if c = 'n' then some '\n'
  else if c = 'r' then some '\r'
  else if c = 't' then some '\t'
  else none

/-- The pieces of the quotation whose opening quote stands before `cs`, and the text behind its
closing quote; or the pieces before a fault, and the fault.  Four digits need four bytes. -/
def scan : List Char → List Piece × Except Fault (List Char)
  | [] => ([], .error .unexpectedEnd)
  | '"' :: cs => ([], .ok cs)
  | '\\' :: 'u' :: a :: b :: c :: d :: cs =>
    match unit? a b c d with
    | some value =>
      let (pieces, ending) := scan cs
      (.unit value :: pieces, ending)
    | none => ([], .error .malformed)
  | '\\' :: 'u' :: cs =>
    ([], .error (if Text.byteLength cs < 4 then .unexpectedEnd else .malformed))
  | ['\\'] => ([], .error .unexpectedEnd)
  | '\\' :: c :: cs =>
    match unescape? c with
    | some c =>
      let (pieces, ending) := scan cs
      (.char c :: pieces, ending)
    | none => ([], .error .malformed)
  | c :: cs =>
    if c < ' ' then ([], .error .malformed)
    else
      let (pieces, ending) := scan cs
      (.char c :: pieces, ending)

theorem length_lt_of_scan {cs rest : List Char} (h : (scan cs).2 = .ok rest) :
    rest.length < cs.length := by
  fun_induction scan cs <;> simp_all <;> omega

def isLeading (unit : Nat) : Bool := 0xd800 ≤ unit && unit ≤ 0xdbff

def isTrailing (unit : Nat) : Bool := 0xdc00 ≤ unit && unit ≤ 0xdfff

/-- The character that a leading and a trailing surrogate make. -/
def join (leading trailing : Nat) : Char :=
  Char.ofNat (0x10000 + (leading - 0xd800) * 0x400 + (trailing - 0xdc00))

/-- The text of the pieces, behind which `fault?` was met.  A surrogate needs its other half. -/
def text (fault? : Option Fault) : List Piece → Except Fault (List Char)
  | [] =>
    match fault? with
    | some fault => .error fault
    | none => .ok []
  | .char c :: pieces => (text fault? pieces).map (c :: ·)
  | [.unit value] =>
    if isTrailing value then .error .malformed
    else
      match fault? with
      | some fault => .error fault
      | none => if isLeading value then .error .malformed else .ok [Char.ofNat value]
  | .unit value :: .char c :: pieces =>
    if isLeading value || isTrailing value then .error .malformed
    else (text fault? (.char c :: pieces)).map (Char.ofNat value :: ·)
  | .unit value :: .unit next :: pieces =>
    if isTrailing value then .error .malformed
    else if isLeading value then
      if isTrailing next then (text fault? pieces).map (join value next :: ·)
      else .error .malformed
    else (text fault? (.unit next :: pieces)).map (Char.ofNat value :: ·)

end Quotation
end Json
end TypeSurface
