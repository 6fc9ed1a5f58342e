import TypeSurface.Text.Slice
import TypeSurface.Text.Span

/-!
# Directives

A directive is a tag with attributes on a line of three slashes, such as `<set id="base" />`.  The
tag is closed by `/>` or by `>`; a value stands between two equal quotes, single or double.
-/

namespace TypeSurface

structure Directive where
  name : String
  attributes : List (String × String)
  span : Span
deriving DecidableEq, Repr

namespace Directive

/-- The value of the first attribute with the key. -/
def attribute? (d : Directive) (key : String) : Option String :=
  (d.attributes.find? (·.1 == key)).map (·.2)

def isNameChar (c : Char) : Bool := c.isAlphanum || c == '-'

def isQuote (c : Char) : Bool := c == '"' || c == '\x27'

/-- The text without the mark that closes a tag. -/
def dropClosing? (cs : List Char) : Option (List Char) :=
  match cs.reverse with
  | '>' :: '/' :: rest => some rest.reverse
  | '>' :: rest => some rest.reverse
  | _ => none

/-- The attribute at the front of a text, and the text behind it and the white space after it. -/
def readAttribute? (cs : List Char) : Option ((List Char × List Char) × List Char) :=
  match Text.splitAt? ['='] cs with
  | none => none
  | some (key, afterKey) =>
    let key := Text.trim key
    if key.isEmpty || key.any CharClass.isWhiteSpace then none
    else
      match Text.trimStart afterKey with
      | [] => none
      | quote :: body =>
        if isQuote quote then
          (Text.splitAt? [quote] body).map fun (value, rest) ↦ ((key, value), Text.trimStart rest)
        else none

theorem length_trimStart_le (cs : List Char) : (Text.trimStart cs).length ≤ cs.length :=
  (List.dropWhile_sublist _).length_le

theorem length_lt_of_readAttribute? {cs rest : List Char} {entry : List Char × List Char}
    (h : readAttribute? cs = some (entry, rest)) : rest.length < cs.length := by
  unfold readAttribute? at h
  split at h
  · cases h
  next key afterKey split₁ =>
    simp only at h
    split at h
    · cases h
    split at h
    · cases h
    next quote body trimmed =>
      split at h
      · simp only [Option.map_eq_some_iff, Prod.mk.injEq, Prod.exists] at h
        obtain ⟨value, tail, split₂, -, rfl⟩ := h
        have h₁ := length_trimStart_le afterKey
        have h₂ := length_trimStart_le tail
        rw [Text.eq_append_of_splitAt? split₁]
        rw [trimmed, Text.eq_append_of_splitAt? split₂] at h₁
        simp at h₁ ⊢
        omega
      · cases h

/-- Attributes up to the end of the text. -/
def readAttributes? (cs : List Char) : Option (List (List Char × List Char)) :=
  if cs.isEmpty then some []
  else
    match _h : readAttribute? cs with
    | none => none
    | some (entry, rest) => (readAttributes? rest).map (entry :: ·)
termination_by cs.length
decreasing_by exact length_lt_of_readAttribute? _h

/-- The name and the attributes of a tag, without a place. -/
def readTag? (cs : List Char) : Option (List Char × List (List Char × List Char)) :=
  match cs with
  | '<' :: body =>
    match dropClosing? (Text.trimEnd body) with
    | none => none
    | some inner =>
      let inner := Text.trim inner
      let name := inner.takeWhile (!CharClass.isWhiteSpace ·)
      if name.isEmpty || !name.all isNameChar then none
      else (readAttributes? (Text.trimStart (inner.drop name.length))).map (name, ·)
  | _ => none

def ofText? (text : String) (span : Span) : Option Directive :=
  (readTag? text.toList).map fun (name, attributes) ↦
    ⟨String.ofList name, attributes.map fun (key, value) ↦
      (String.ofList key, String.ofList value), span⟩

end Directive
end TypeSurface
