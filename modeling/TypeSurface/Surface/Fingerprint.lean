/-!
# Fingerprints

A fingerprint is a 64-bit number that stands for a text.  Two words of state are mixed with 16 bytes
at a time by folding a product of two words onto itself; the last 16 bytes are mixed in at the end,
so that they are read twice where the length is no multiple of 16.
-/

namespace TypeSurface
namespace Fingerprint

/-- The exclusive or of the two halves of the product. -/
def mix (x y : UInt64) : UInt64 :=
  let product := x.toNat * y.toNat
  (product % UInt64.size).toUInt64 ^^^ (product / UInt64.size).toUInt64

/-- The number whose bytes these are, the least significant first. -/
def littleEndian (bytes : List UInt8) : UInt64 :=
  bytes.foldr (fun b word ↦ word <<< 8 ||| b.toUInt64) 0

structure State where
  first : UInt64
  second : UInt64
deriving DecidableEq

def initial : State := ⟨0x243f6a8885a308d3, 0x13198a2e03707344⟩

def absorb (s : State) (chunk : List UInt8) : State :=
  let low := littleEndian (chunk.take 8)
  let high := littleEndian (chunk.drop 8)
  ⟨s.second, mix (s.first ^^^ low) (0xa4093822299f31d0 ^^^ high)⟩

/-- Absorbs 16 bytes at a time, as long as there are so many. -/
def absorbAll (s : State) (bytes : List UInt8) : State :=
  if 16 ≤ bytes.length then absorbAll (absorb s (bytes.take 16)) (bytes.drop 16) else s
termination_by bytes.length

def rotateLeft (x : UInt64) (n : UInt64) : UInt64 := x <<< n ||| x >>> (64 - n)

/-- The fingerprint of a text of more than 16 bytes. -/
def ofBytes (bytes : List UInt8) : UInt64 :=
  let s := absorbAll initial bytes.dropLast
  let tail := bytes.drop (bytes.length - 16)
  let first := s.first ^^^ littleEndian (tail.take 8)
  let second := s.second ^^^ littleEndian (tail.drop 8)
  let hash := mix first second ^^^ bytes.length.toUInt64
  rotateLeft (hash * 0xf1357aea2e62a9c5) 26

def ofText (text : String) : UInt64 := ofBytes text.toUTF8.toList

end Fingerprint
end TypeSurface
