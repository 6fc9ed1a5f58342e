import TypeSurface.Text.CharClass

/-!
# Measuring, cutting and searching text

Text that is being read is a list of characters; its offsets are counted in UTF-8 bytes.  A cut is
made only between two characters: an offset inside a character gives `none`.
-/

namespace TypeSurface
namespace Text

/-- Number of bytes that the characters take. -/
def byteLength : List Char → Nat
  | [] => 0
  | c :: cs => c.utf8Size + byteLength cs

@[simp] theorem byteLength_nil : byteLength [] = 0 := rfl

@[simp] theorem byteLength_cons (c : Char) (cs : List Char) :
    byteLength (c :: cs) = c.utf8Size + byteLength cs := rfl

@[simp] theorem byteLength_append (as bs : List Char) :
    byteLength (as ++ bs) = byteLength as + byteLength bs := by
  induction as with
  | nil => simp
  | cons c cs ih => simp [ih, Nat.add_assoc]

theorem byteLength_pos_of_ne_nil {cs : List Char} (h : cs ≠ []) : 0 < byteLength cs := by
  cases cs with
  | nil => exact absurd rfl h
  | cons c cs => exact Nat.add_pos_left c.utf8Size_pos _

/-- What is left after the first `n` bytes. -/
def dropBytes? : Nat → List Char → Option (List Char)
  | 0, cs => some cs
  | _ + 1, [] => none
  | n + 1, c :: cs => if c.utf8Size ≤ n + 1 then dropBytes? (n + 1 - c.utf8Size) cs else none
termination_by _ cs => cs.length

/-- The first `n` bytes. -/
def takeBytes? : Nat → List Char → Option (List Char)
  | 0, _ => some []
  | _ + 1, [] => none
  | n + 1, c :: cs =>
    if c.utf8Size ≤ n + 1 then (takeBytes? (n + 1 - c.utf8Size) cs).map (c :: ·) else none
termination_by _ cs => cs.length

/-- The bytes from `start` up to `stop`. -/
def slice? (start stop : Nat) (cs : List Char) : Option (List Char) :=
  if start ≤ stop then (dropBytes? start cs).bind (takeBytes? (stop - start)) else none

def trimStart (cs : List Char) : List Char :=
  cs.dropWhile CharClass.isWhiteSpace

/-- Drops the longest suffix of characters in `p`. -/
def dropSuffixWhile (p : Char → Bool) (cs : List Char) : List Char :=
  (cs.reverse.dropWhile p).reverse

def trimEnd (cs : List Char) : List Char :=
  dropSuffixWhile CharClass.isWhiteSpace cs

def trim (cs : List Char) : List Char :=
  trimEnd (trimStart cs)

/-- The text without the white space at its two ends. -/
def trimmed (s : String) : String :=
  String.ofList (trim s.toList)

def isLineBreak (c : Char) : Bool :=
  c == '\n' || c == '\r'

/-- `cs` without the prefix `pattern`. -/
def dropPrefix? : List Char → List Char → Option (List Char)
  | [], cs => some cs
  | _ :: _, [] => none
  | p :: pattern, c :: cs => if p = c then dropPrefix? pattern cs else none

theorem dropPrefix?_eq_some_iff {pattern cs rest : List Char} :
    dropPrefix? pattern cs = some rest ↔ cs = pattern ++ rest := by
  induction pattern generalizing cs with
  | nil => simp [dropPrefix?]
  | cons p pattern ih =>
    cases cs with
    | nil => simp [dropPrefix?]
    | cons c cs =>
      by_cases h : p = c
      · simp [dropPrefix?, h, ih]
      · simp [dropPrefix?, h, Ne.symm h]

/-- What stands before and after the first occurrence of `pattern`. -/
def splitAt? (pattern : List Char) : List Char → Option (List Char × List Char)
  | [] => (dropPrefix? pattern []).map ([], ·)
  | c :: cs =>
    match dropPrefix? pattern (c :: cs) with
    | some rest => some ([], rest)
    | none => (splitAt? pattern cs).map fun (before, rest) ↦ (c :: before, rest)

theorem eq_append_of_splitAt? {pattern cs before rest : List Char}
    (h : splitAt? pattern cs = some (before, rest)) : cs = before ++ (pattern ++ rest) := by
  induction cs generalizing before with
  | nil =>
    simp only [splitAt?, Option.map_eq_some_iff, Prod.mk.injEq] at h
    obtain ⟨tail, found, rfl, rfl⟩ := h
    simpa using dropPrefix?_eq_some_iff.1 found
  | cons c cs ih =>
    simp only [splitAt?] at h
    split at h
    · next tail found =>
      simp only [Option.some.injEq, Prod.mk.injEq] at h
      obtain ⟨rfl, rfl⟩ := h
      simpa using dropPrefix?_eq_some_iff.1 found
    · simp only [Option.map_eq_some_iff, Prod.mk.injEq, Prod.exists] at h
      obtain ⟨front, tail, found, rfl, rfl⟩ := h
      simp [ih found]

/-- Every occurrence of `pattern` replaced, from left to right.  `pattern` is not empty. -/
def replaceAll (pattern replacement : List Char) (cs : List Char) : List Char :=
  match _h : splitAt? pattern cs with
  | none => cs
  | some (before, rest) =>
    if pattern = [] then cs else before ++ replacement ++ replaceAll pattern replacement rest
termination_by cs.length
decreasing_by
  next nonempty =>
  have := eq_append_of_splitAt? _h
  have : 0 < pattern.length := List.length_pos_iff.2 nonempty
  simp_all
  omega

/-- Lower case of the ASCII letters; every other character stays. -/
def lowerAscii (s : String) : String :=
  String.ofList (s.toList.map Char.toLower)

/-- The pieces between the characters in `p`: one more than there are such characters. -/
def splitOn (p : Char → Bool) : List Char → List (List Char)
  | [] => [[]]
  | c :: cs =>
    if p c then [] :: splitOn p cs
    else
      match splitOn p cs with
      | [] => [[c]]
      | piece :: pieces => (c :: piece) :: pieces

/-- Lines end at `\n`, which a carriage return may precede; a last line may lack its end. -/
def lines (cs : List Char) : List (List Char) :=
  let pieces := splitOn (· == '\n') cs
  let ended := pieces.dropLast.map fun line ↦
    if line.getLast? = some '\r' then line.dropLast else line
  match pieces.getLast? with
  | none | some [] => ended
  | some last => ended ++ [last]

end Text
end TypeSurface
