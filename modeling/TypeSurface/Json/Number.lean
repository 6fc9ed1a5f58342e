import TypeSurface.Numeral.Literal

/-!
# Numbers in JSON

A number has a sign, digits, a fraction and an exponent.  Its value is found in binary64 arithmetic
from its first digits and a power of ten: the digits, the power and the result are rounded one after
the other, so that the value may be one of the neighbours of the nearest number.  A number whose
value is infinite is out of range.
-/

namespace TypeSurface
namespace Json

structure Number where
  isNegative : Bool
  whole : List Char
  fraction : List Char
  /-- The sign and the digits of the exponent. -/
  exponent : Option (Bool × List Char)
deriving DecidableEq, Repr

namespace Number

/-- The digits at the front of a text and what follows them; without a digit, whether the text has
ended. -/
def scanDigits (cs : List Char) : Except Bool (List Char × List Char) :=
  let found := cs.takeWhile Char.isDigit
  if found.isEmpty then .error cs.isEmpty else .ok (found, cs.drop found.length)

/-- A zero is followed by no other digit. -/
def scanWhole (cs : List Char) : Except Bool (List Char × List Char) :=
  match cs with
  | '0' :: rest => if rest.head?.any Char.isDigit then .error false else .ok (['0'], rest)
  | _ => scanDigits cs

def scanFraction (cs : List Char) : Except Bool (List Char × List Char) :=
  match cs with
  | '.' :: rest => scanDigits rest
  | _ => .ok ([], cs)

/-- Whether an exponent has a minus, and what follows its sign. -/
def scanSign : List Char → Bool × List Char
  | '-' :: rest => (true, rest)
  | '+' :: rest => (false, rest)
  | cs => (false, cs)

def scanExponent (cs : List Char) : Except Bool (Option (Bool × List Char) × List Char) :=
  match cs with
  | [] => .ok (none, cs)
  | c :: rest =>
    if c = 'e' ∨ c = 'E' then
      match scanDigits (scanSign rest).2 with
      | .error hasEnded => .error hasEnded
      | .ok (found, afterDigits) => .ok (some ((scanSign rest).1, found), afterDigits)
    else .ok (none, cs)

/-- What follows a minus. -/
def unsigned : List Char → List Char
  | '-' :: rest => rest
  | cs => cs

/-- The number at the front of a text and what follows it; or, where a digit is missing, whether the
text has ended there. -/
def scan (cs : List Char) : Except Bool (Number × List Char) := do
  let (whole, afterWhole) ← scanWhole (unsigned cs)
  let (fraction, afterFraction) ← scanFraction afterWhole
  let (exponent, rest) ← scanExponent afterFraction
  return (⟨cs.head? == some '-', whole, fraction, exponent⟩, rest)

theorem length_unsigned_le (cs : List Char) : (unsigned cs).length ≤ cs.length := by
  unfold unsigned
  split <;> simp

theorem length_of_scanDigits {cs found rest : List Char} (h : scanDigits cs = .ok (found, rest)) :
    rest.length < cs.length := by
  unfold scanDigits at h
  simp only at h
  split at h
  · cases h
  next nonempty =>
    simp only [Except.ok.injEq, Prod.mk.injEq] at h
    obtain ⟨rfl, rfl⟩ := h
    have le : (cs.takeWhile Char.isDigit).length ≤ cs.length :=
      (List.takeWhile_sublist _).length_le
    have pos : 0 < (cs.takeWhile Char.isDigit).length := by
      rw [List.length_pos_iff]
      simpa using nonempty
    rw [List.length_drop]
    omega

theorem length_of_scanWhole {cs found rest : List Char} (h : scanWhole cs = .ok (found, rest)) :
    rest.length < cs.length := by
  unfold scanWhole at h
  split at h
  · split at h
    · cases h
    · cases h
      simp
  · exact length_of_scanDigits h

theorem length_of_scanFraction {cs found rest : List Char} (h : scanFraction cs = .ok (found, rest)) :
    rest.length ≤ cs.length := by
  unfold scanFraction at h
  split at h
  · have := length_of_scanDigits h
    simp
    omega
  · cases h
    simp

theorem length_scanSign_le (cs : List Char) : (scanSign cs).2.length ≤ cs.length := by
  unfold scanSign
  split <;> simp

theorem length_of_scanExponent {cs rest : List Char} {found : Option (Bool × List Char)}
    (h : scanExponent cs = .ok (found, rest)) : rest.length ≤ cs.length := by
  unfold scanExponent at h
  split at h
  · cases h
    simp
  · next c afterMark =>
    have signLe := length_scanSign_le afterMark
    split at h
    · split at h
      · cases h
      next scanned =>
        have digitsLt := length_of_scanDigits scanned
        cases h
        rw [List.length_cons]
        omega
    · cases h
      simp

theorem length_of_scan {cs rest : List Char} {n : Number} (h : scan cs = .ok (n, rest)) :
    rest.length < cs.length := by
  unfold scan at h
  simp only [bind, Except.bind, pure, Except.pure] at h
  split at h
  · cases h
  next wholeScanned =>
    split at h
    · cases h
    next fractionScanned =>
      split at h
      · cases h
      next exponentScanned =>
        cases h
        have wholeLt := length_of_scanWhole wholeScanned
        have fractionLe := length_of_scanFraction fractionScanned
        have exponentLe := length_of_scanExponent exponentScanned
        have unsignedLe := length_unsigned_le cs
        omega

/-- As many digits as 64 bits hold, read as a number, and how many are left over. -/
def leadingDigits : Nat → List Char → Nat × Nat
  | n, [] => (n, 0)
  | n, c :: cs =>
    let next := n * 10 + Numeral.digitValue c
    if next < UInt64.size then leadingDigits next cs else (n, cs.length + 1)

/-- The digits that are kept, read as a number, and the power of ten by which they are to be
multiplied.  Digits before the point that are left over do not keep digits behind it from being
read. -/
def parts (n : Number) : Nat × Int :=
  let written : Int := match n.exponent with
    | none => 0
    | some (isNegative, ds) =>
      if isNegative then -(Numeral.ofDigits 10 ds) else Numeral.ofDigits 10 ds
  let (kept, above) := leadingDigits 0 n.whole
  let (significand, below) := leadingDigits kept n.fraction
  (significand, written + above + below - n.fraction.length)

/-- The exponent of the largest power of ten that is finite. -/
def maxPower : Nat := 308

/-- The number next to `10 ^ n`. -/
def power (n : Nat) : Binary64 := .ofQuotient false (Nat.pow 10 n) 1

/-- `x * 10 ^ exponent`, by one product or by as many quotients as are needed. -/
def scale (x : Binary64) (exponent : Int) : Binary64 :=
  if x.isZero then x
  else if (maxPower : Int) < exponent then .infinite false
  else if 0 ≤ exponent then x * power exponent.toNat
  else if -(maxPower : Int) ≤ exponent then x / power (-exponent).toNat
  else scale (x / power maxPower) (exponent + maxPower)
termination_by (-exponent).toNat
decreasing_by
  simp only [maxPower] at *
  omega

/-- The value of a number; it is infinite if the number is out of range. -/
def value (n : Number) : Binary64 :=
  let (significand, exponent) := n.parts
  let magnitude := scale (.ofQuotient false significand 1) exponent
  if n.isNegative then magnitude.neg else magnitude

def isInRange (n : Number) : Bool := n.value.isFinite

end Number
end Json
end TypeSurface
