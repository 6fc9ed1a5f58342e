import TypeSurface.Numeral.Binary64
import TypeSurface.Syntax.TypeExpr.Basic
import TypeSurface.Text.Slice

/-!
# The value of a number literal

A number is written in decimal, with a fraction and an exponent, or behind a radix mark as a whole
number of at most 64 bits.  Underscores between its digits mean nothing.
-/

namespace TypeSurface
namespace Numeral

def digitValue (c : Char) : Nat :=
  if c.isDigit then c.toNat - '0'.toNat
  else if 'a' ≤ c ∧ c ≤ 'z' then c.toNat - 'a'.toNat + 10
  else if 'A' ≤ c ∧ c ≤ 'Z' then c.toNat - 'A'.toNat + 10
  else 36

def ofDigits (base : Nat) (cs : List Char) : Nat :=
  cs.foldl (fun n c ↦ n * base + digitValue c) 0

/-- At least one digit, no other character, and a value of at most 64 bits. -/
def readWhole? (base : Nat) (cs : List Char) : Option Nat :=
  if !cs.isEmpty && cs.all (digitValue · < base) && ofDigits base cs < UInt64.size then
    some (ofDigits base cs)
  else none

/-- The exponent at the end of a decimal number, zero when there is none. -/
def readExponent? : List Char → Option Int
  | [] => some 0
  | e :: cs =>
    let (isNegative, digits) := match cs with
      | '-' :: cs => (true, cs)
      | '+' :: cs => (false, cs)
      | cs => (false, cs)
    if (e = 'e' ∨ e = 'E') ∧ !digits.isEmpty ∧ digits.all Char.isDigit then
      let n : Int := ofDigits 10 digits
      some (if isNegative then -n else n)
    else none

/-- A decimal number without a sign.  A digit must stand before the point or behind it. -/
def readDecimal? (cs : List Char) : Option Binary64 :=
  let whole := cs.takeWhile Char.isDigit
  let afterWhole := cs.drop whole.length
  let (fraction, afterFraction) := match afterWhole with
    | '.' :: rest => (rest.takeWhile Char.isDigit, rest.dropWhile Char.isDigit)
    | _ => ([], afterWhole)
  if whole.isEmpty && fraction.isEmpty then none
  else (readExponent? afterFraction).map fun exponent ↦
    .ofDecimal false (ofDigits 10 (whole ++ fraction)) (exponent - fraction.length)

/-- The base that a radix mark stands for. -/
def baseOf? (mark : Char) : Option Nat :=
  if mark = 'x' ∨ mark = 'X' then some 16
  else if mark = 'o' ∨ mark = 'O' then some 8
  else if mark = 'b' ∨ mark = 'B' then some 2
  else none

/-- A number without a sign and without underscores. -/
def readUnsigned? (cs : List Char) : Option Binary64 :=
  match cs with
  | '0' :: mark :: digits =>
    match baseOf? mark with
    | some base => (readWhole? base digits).map (.ofQuotient false · 1)
    | none => readDecimal? cs
  | _ => readDecimal? cs

def read? (cs : List Char) : Option Binary64 :=
  match cs with
  | '-' :: rest => (readUnsigned? (rest.filter (· ≠ '_'))).map Binary64.neg
  | _ => readUnsigned? (cs.filter (· ≠ '_'))

end Numeral

/-- The value of a number literal; other literals have none. -/
def Literal.numericValue? : Literal → Option Binary64
  | number text => Numeral.read? text.toList
  | _ => none

end TypeSurface
