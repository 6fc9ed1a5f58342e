import TypeSurface.Text.Slice

/-!
# Paths

A path is kept as it was written.  It names a place by the pieces between its slashes; pieces that
are empty or a single dot are filler, except a dot at the start of a relative path.
-/

namespace TypeSurface

structure Path where
  text : String
deriving DecidableEq, Repr

namespace Path

def isAbsolute (p : Path) : Bool := p.text.toList.head? == some '/'

def endsInSlash (p : Path) : Bool := p.text.toList.getLast? == some '/'

/-- A path below `base`, unless it is absolute.  One slash stands between the two. -/
def join (base p : Path) : Path :=
  if p.isAbsolute then p
  else if base.text = "" || base.endsInSlash then ⟨base.text ++ p.text⟩
  else ⟨base.text ++ "/" ++ p.text⟩

/-- What stands between the slashes, behind the first one if the path is absolute. -/
def pieces (p : Path) : List String :=
  let body := if p.isAbsolute then p.text.toList.drop 1 else p.text.toList
  (Text.splitOn (· == '/') body).map String.ofList

def ofPieces (isAbsolute : Bool) (pieces : List String) : Path :=
  ⟨(if isAbsolute then "/" else "") ++ "/".intercalate pieces⟩

def isFiller (piece : String) : Bool := piece == "" || piece == "."

def startsInDot (p : Path) : Bool := !p.isAbsolute && p.pieces.head? == some "."

/-- The names and dots that the path is made of, without filler. -/
def components (p : Path) : List String :=
  if p.startsInDot then "." :: p.pieces.tail.filter (!isFiller ·)
  else p.pieces.filter (!isFiller ·)

/-- Whether two paths are spelled alike but for filler. -/
def sameAs (p q : Path) : Bool :=
  p.isAbsolute == q.isAbsolute && p.components == q.components

/-- The pieces up to the last one that is not filler. -/
def withoutFiller (p : Path) : List String :=
  let trimmed (pieces : List String) := (pieces.reverse.dropWhile isFiller).reverse
  if p.startsInDot then "." :: trimmed p.pieces.tail else trimmed p.pieces

/-- The path without its last component and the filler before it.  The root is in no directory. -/
def parent? (p : Path) : Option Path :=
  match p.withoutFiller with
  | [] => none
  | pieces =>
    let above := ofPieces p.isAbsolute pieces.dropLast
    some (ofPieces p.isAbsolute above.withoutFiller)

/-- The directory that a path lies in; the root lies in itself. -/
def directory (p : Path) : Path := p.parent?.getD p

/-- The last component, if it is a name. -/
def name? (p : Path) : Option String :=
  p.components.getLast?.filter fun name ↦ name ≠ "." ∧ name ≠ ".."

/-- Whether a dot stands in a name behind its first character. -/
def hasExtension (name : String) : Bool := (name.toList.drop 1).contains '.'

/-- The path with an extension, if it ends in a name that has none. -/
def withExtension (p : Path) (extension : String) : Path :=
  match p.name? with
  | none => p
  | some name =>
    if hasExtension name then p
    else ⟨(ofPieces p.isAbsolute p.withoutFiller).text ++ "." ++ extension⟩

end Path
end TypeSurface
