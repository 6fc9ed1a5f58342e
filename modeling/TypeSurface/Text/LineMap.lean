import TypeSurface.Text.Slice

/-!
# Lines and positions

A line map holds the byte offset at which each line of a source text starts.  A line ends at a line
feed, at a carriage return, or at the two in this order; the last line ends with the text.
-/

namespace TypeSurface

/-- Line and column, both counted from zero, the column in characters. -/
structure Position where
  line : Nat
  character : Nat
deriving DecidableEq, Repr

structure LineMap where
  starts : List Nat
deriving DecidableEq, Repr

namespace LineMap

/-- The offsets behind each line end of `cs`, whose first character stands at offset `pos`. -/
def lineStarts : Nat → List Char → List Nat
  | _, [] => []
  | pos, '\r' :: '\n' :: cs => (pos + 2) :: lineStarts (pos + 2) cs
  | pos, c :: cs =>
    if Text.isLineBreak c then (pos + c.utf8Size) :: lineStarts (pos + c.utf8Size) cs
    else lineStarts (pos + c.utf8Size) cs

def ofText (cs : List Char) : LineMap := ⟨0 :: lineStarts 0 cs⟩

def lineCount (m : LineMap) : Nat := m.starts.length

/-- The line that starts at `offset` or, as an error, the number of lines that start before it. -/
def search (m : LineMap) (offset : Nat) : Except Nat Nat :=
  let place := (m.starts.takeWhile (· < offset)).length
  if m.starts[place]? = some offset then .ok place else .error place

/-- The last line that starts at `offset` or before it. -/
def lineAt (m : LineMap) (offset : Nat) : Nat :=
  match m.search offset with
  | .ok exact => exact
  | .error place => place - 1

/-- An offset behind the text has the position of the end of the text. -/
def position (m : LineMap) (offset : Nat) (cs : List Char) : Position :=
  let line := m.lineAt offset
  let stop := min offset (Text.byteLength cs)
  let start := min ((m.starts[line]?).getD 0) stop
  ⟨line, ((Text.slice? start stop cs).getD []).length⟩

/-- The text of a line without the line break that ends it. -/
def lineText? (m : LineMap) (line : Nat) (cs : List Char) : Option (List Char) := do
  let start ← m.starts[line]?
  let stop := (m.starts[line + 1]?).getD (Text.byteLength cs)
  let text ← Text.slice? start stop cs
  return Text.dropSuffixWhile Text.isLineBreak text

end LineMap
end TypeSurface
