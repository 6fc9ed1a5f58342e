import TypeSurface.Text.CharTable

/-!
# Character classes

The classes of characters that the grammar of declaration files and the printed form of string
literals refer to.  Below code point 128 a class is decided directly; above, by its table.
-/

namespace TypeSurface

/-- Whether the code point of `c` lies in one of the closed ranges of `table`. -/
def CharTable.contains (table : Array (Nat × Nat)) (c : Char) : Bool :=
  table.any fun (first, last) ↦ first ≤ c.toNat && c.toNat ≤ last

namespace CharClass

def isAlphabetic (c : Char) : Bool :=
  if c.toNat < 128 then c.isAlpha else CharTable.contains CharTable.alphabetic c

def isNumeric (c : Char) : Bool :=
  if c.toNat < 128 then c.isDigit else CharTable.contains CharTable.numeric c

def isAlphanumeric (c : Char) : Bool :=
  isAlphabetic c || isNumeric c

def isWhiteSpace (c : Char) : Bool :=
  if c.toNat < 128 then c.toNat == 0x20 || (0x09 ≤ c.toNat && c.toNat ≤ 0x0d)
  else CharTable.contains CharTable.whiteSpace c

/-- Marks that are shown within the character before them. -/
def isCombining (c : Char) : Bool :=
  !(c.toNat < 128) && CharTable.contains CharTable.graphemeExtend c &&
    !CharTable.contains CharTable.soundMark c

/-- Characters that are seen in print. -/
def isPrintable (c : Char) : Bool :=
  if c.toNat < 128 then 0x20 ≤ c.toNat && c.toNat < 0x7f
  else !(CharTable.contains CharTable.unprintable c || CharTable.contains CharTable.filler c)

/-- First characters of an identifier. -/
def isIdentifierStart (c : Char) : Bool :=
  c == '$' || c == '_' || isAlphabetic c

/-- Further characters of an identifier. -/
def isIdentifierPart (c : Char) : Bool :=
  c == '$' || c == '_' || isAlphanumeric c

def isHexDigit (c : Char) : Bool :=
  c.isDigit || ('a' ≤ c && c ≤ 'f') || ('A' ≤ c && c ≤ 'F')

theorem isIdentifierPart_of_start {c : Char} (h : isIdentifierStart c = true) :
    isIdentifierPart c = true := by
  simp only [isIdentifierStart, isIdentifierPart, isAlphanumeric, Bool.or_eq_true] at h ⊢
  rcases h with h | h
  · exact Or.inl h
  · exact Or.inr (Or.inl h)

end CharClass
end TypeSurface
