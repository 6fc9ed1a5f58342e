/-!
# Binary64 numbers

A finite number is a signed significand times a power of two.  Quotients of natural numbers are
rounded to the nearest number of 53 binary digits in exact arithmetic, a tie going to the even one.
-/

namespace TypeSurface

inductive Binary64 where
  | finite (isNegative : Bool) (significand : Nat) (exponent : Int)
  | infinite (isNegative : Bool)
  | nan
deriving DecidableEq, Repr

namespace Binary64

def significandLimit : Nat := Nat.pow 2 53

/-- The exponent of the numbers next to zero. -/
def minExponent : Int := -1074

/-- The exponent of the largest finite numbers. -/
def maxExponent : Int := 971

/-- The integer next to `num / den`, the even one if two are equally near. -/
def roundQuotient (num den : Nat) : Nat :=
  let quotient := num / den
  let twice := 2 * (num % den)
  if twice < den ∨ (twice = den ∧ quotient % 2 = 0) then quotient else quotient + 1

/-- `num / (den * 2 ^ exponent)`, rounded to an integer. -/
def scaled (num den : Nat) (exponent : Int) : Nat :=
  if 0 ≤ exponent then roundQuotient num (den * Nat.pow 2 exponent.toNat)
  else roundQuotient (num * Nat.pow 2 (-exponent).toNat) den

/-- The exponent for which `num / den` has 53 binary digits before the point, or the least one. -/
def exponentFor (num den : Nat) : Int :=
  let high : Int := (Nat.log2 num : Int) - Nat.log2 den - 52
  let isBelow := num * Nat.pow 2 (-high).toNat < den * Nat.pow 2 high.toNat * Nat.pow 2 52
  let exponent := if isBelow then high - 1 else high
  max exponent minExponent

/-- The number next to `num / den`. -/
def ofQuotient (isNegative : Bool) (num den : Nat) : Binary64 :=
  if num = 0 then finite isNegative 0 minExponent
  else
    let exponent := exponentFor num den
    let significand := scaled num den exponent
    let (significand, exponent) :=
      if significandLimit ≤ significand then (significand / 2, exponent + 1)
      else (significand, exponent)
    if maxExponent < exponent then infinite isNegative
    else finite isNegative significand exponent

/-- The number next to `digits * 10 ^ exponent`.  What is beyond all finite numbers, or nearer to
zero than to any other, is found without the power. -/
def ofDecimal (isNegative : Bool) (digits : Nat) (exponent : Int) : Binary64 :=
  let magnitude : Int := (Nat.toDigits 10 digits).length + exponent
  if digits = 0 ∨ magnitude < -330 then finite isNegative 0 minExponent
  else if 310 < magnitude then infinite isNegative
  else if 0 ≤ exponent then ofQuotient isNegative (digits * Nat.pow 10 exponent.toNat) 1
  else ofQuotient isNegative digits (Nat.pow 10 (-exponent).toNat)

/-- The number next to `num / den * 2 ^ exponent`. -/
def ofScaled (isNegative : Bool) (num den : Nat) (exponent : Int) : Binary64 :=
  ofQuotient isNegative (num * Nat.pow 2 exponent.toNat) (den * Nat.pow 2 (-exponent).toNat)

/-- The product, rounded once. -/
def mul : Binary64 → Binary64 → Binary64
  | finite s m e, finite s' m' e' => ofScaled (s ^^ s') (m * m') 1 (e + e')
  | infinite s, infinite s' => infinite (s ^^ s')
  | infinite s, finite s' m _ | finite s m _, infinite s' =>
    if m = 0 then nan else infinite (s ^^ s')
  | nan, _ | _, nan => nan

/-- The quotient, rounded once. -/
def div : Binary64 → Binary64 → Binary64
  | finite s m e, finite s' m' e' =>
    if m' ≠ 0 then ofScaled (s ^^ s') m m' (e - e')
    else if m ≠ 0 then infinite (s ^^ s')
    else nan
  | infinite s, finite s' _ _ => infinite (s ^^ s')
  | finite s _ _, infinite s' => finite (s ^^ s') 0 minExponent
  | infinite _, infinite _ => nan
  | nan, _ | _, nan => nan

instance : Mul Binary64 := ⟨mul⟩
instance : Div Binary64 := ⟨div⟩

def isZero : Binary64 → Bool
  | finite _ significand _ => significand == 0
  | infinite _ | nan => false

def isFinite : Binary64 → Bool
  | finite .. => true
  | infinite _ | nan => false

def neg : Binary64 → Binary64
  | finite isNegative significand exponent => finite (!isNegative) significand exponent
  | infinite isNegative => infinite (!isNegative)
  | nan => nan

/-- Finite and without a fraction. -/
def isIntegral : Binary64 → Bool
  | finite _ significand exponent => 0 ≤ exponent || significand % Nat.pow 2 (-exponent).toNat == 0
  | infinite _ | nan => false

/-- The interchange format: sign, biased exponent and fraction in 64 bits. -/
def bits : Binary64 → Nat
  | finite isNegative significand exponent =>
    (if isNegative then Nat.pow 2 63 else 0) +
      (if significand < Nat.pow 2 52 then significand
        else (exponent + 1075).toNat * Nat.pow 2 52 + (significand - Nat.pow 2 52))
  | infinite isNegative => (if isNegative then Nat.pow 2 63 else 0) + 2047 * Nat.pow 2 52
  | nan => 2047 * Nat.pow 2 52 + Nat.pow 2 51

end Binary64
end TypeSurface
