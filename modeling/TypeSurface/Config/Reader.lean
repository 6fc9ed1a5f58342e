import TypeSurface.Config.Basic
import TypeSurface.Json.Nesting
import TypeSurface.Json.Relaxed

/-!
# Reading configurations

A configuration is an object, whose fields may come in any order, or an array of their values in the
order of `Field.all`.  Every field may be null.  Fields that are not known are passed over unread.
-/

namespace TypeSurface
namespace Config

open Json (Fault Token)
open Json.Nesting (passValue length_lt_of_pass)

/-- The number of open arrays and objects at which reading stops. -/
def maxNesting : Nat := 128

/-- How many of them may be open inside a field. -/
def fieldNesting : Nat := maxNesting - 2

def readText : List Token → Except Fault (Option String × List Token)
  | [] => .error .unexpectedEnd
  | .null :: ts => .ok (none, ts)
  | .string pieces :: ts =>
    match Json.Quotation.text none pieces with
    | .ok cs => .ok (some (String.ofList cs), ts)
    | .error fault => .error fault
  | t :: _ => .error t.mismatch

/-- The texts of an array up to its end.  A comma stands before each of them but the first. -/
def readItems : Bool → List Token → Except Fault (List String × List Token)
  | _, [] => .error .unexpectedEnd
  | _, .closeArray :: ts => .ok ([], ts)
  | true, .string pieces :: ts | false, .comma :: .string pieces :: ts =>
    match Json.Quotation.text none pieces, readItems false ts with
    | .ok cs, .ok (items, rest) => .ok (String.ofList cs :: items, rest)
    | .error fault, _ => .error fault
    | .ok _, .error fault => .error fault
  | true, t :: _ | false, .comma :: t :: _ => .error t.mismatch
  | false, [.comma] => .error .unexpectedEnd
  | false, _ => .error .malformed

def readTexts : List Token → Except Fault (Option (List String) × List Token)
  | [] => .error .unexpectedEnd
  | .null :: ts => .ok (none, ts)
  | .openArray :: ts =>
    match readItems true ts with
    | .ok (items, rest) => .ok (some items, rest)
    | .error fault => .error fault
  | t :: _ => .error t.mismatch

/-- White space around the word and the case of its letters do not matter. -/
def boolean? (text : String) : Option Bool :=
  match Text.lowerAscii (Text.trimmed text) with
  | "true" | "1" | "yes" | "on" => some true
  | "false" | "0" | "no" | "off" => some false
  | _ => none

/-- A truth value, or a word for one.  An array or object is read to its end before it is refused. -/
def readSwitch : List Token → Except Fault (Option Bool × List Token)
  | [] => .error .unexpectedEnd
  | .null :: ts => .ok (none, ts)
  | .bool value :: ts => .ok (some value, ts)
  | .string pieces :: ts =>
    match Json.Quotation.text none pieces with
    | .error fault => .error fault
    | .ok cs =>
      match boolean? (String.ofList cs) with
      | some value => .ok (some value, ts)
      | none => .error (.notBoolean (String.ofList cs))
  | t :: ts =>
    if t = .openArray ∨ t = .openObject then
      match passValue (some fieldNesting) (t :: ts) with
      | .error fault => .error fault
      | .ok _ => .error .mismatch
    else .error t.mismatch

theorem length_lt_of_readText {ts rest : List Token} {value : Option String}
    (h : readText ts = .ok (value, rest)) : rest.length < ts.length := by
  unfold readText at h
  split at h
  · cases h
  · cases h
    simp
  · split at h
    · cases h
      simp
    · cases h
  · cases h

theorem length_lt_of_readItems {isFirst : Bool} {ts : List Token}
    {found : List String × List Token} (h : readItems isFirst ts = .ok found) :
    found.2.length < ts.length := by
  fun_induction readItems isFirst ts generalizing found <;> grind

theorem length_lt_of_readTexts {ts rest : List Token} {value : Option (List String)}
    (h : readTexts ts = .ok (value, rest)) : rest.length < ts.length := by
  unfold readTexts at h
  split at h
  · cases h
  · cases h
    simp
  · split at h
    · next scanned =>
      cases h
      exact Nat.lt_succ_of_lt (length_lt_of_readItems scanned)
    · cases h
  · cases h

theorem length_lt_of_readSwitch {ts rest : List Token} {value : Option Bool}
    (h : readSwitch ts = .ok (value, rest)) : rest.length < ts.length := by
  unfold readSwitch at h
  split at h
  · cases h
  · cases h
    simp
  · cases h
    simp
  · split at h
    · cases h
    · split at h
      · cases h
        simp
      · cases h
  · split at h
    · split at h <;> cases h
    · cases h

/-- The configuration with the value of a field that comes next. -/
def readField (c : Config) (ts : List Token) : Field → Except Fault (Config × List Token)
  | .base => (readText ts).map fun (value, rest) ↦ ({ c with base := value }, rest)
  | .mode => (readText ts).map fun (value, rest) ↦ ({ c with mode := value }, rest)
  | .sets => (readTexts ts).map fun (value, rest) ↦ ({ c with sets := value }, rest)
  | .roots => (readTexts ts).map fun (value, rest) ↦ ({ c with roots := value }, rest)
  | .exclusions => (readTexts ts).map fun (value, rest) ↦ ({ c with exclusions := value }, rest)
  | .indexAudit => (readSwitch ts).map fun (value, rest) ↦ ({ c with hasIndexAudit := value }, rest)

theorem eq_ok_of_map {ε α β : Type} {f : α → β} {x : Except ε α} {b : β}
    (h : x.map f = .ok b) : ∃ a, x = .ok a ∧ f a = b := by
  cases x with
  | error e => cases h
  | ok a =>
    cases h
    exact ⟨a, rfl, rfl⟩

theorem length_lt_of_readField {c c' : Config} {ts rest : List Token} {f : Field}
    (h : readField c ts f = .ok (c', rest)) : rest.length < ts.length := by
  cases f <;> obtain ⟨⟨value, tail⟩, read, same⟩ := eq_ok_of_map h <;> cases same
  · exact length_lt_of_readText read
  · exact length_lt_of_readText read
  · exact length_lt_of_readTexts read
  · exact length_lt_of_readTexts read
  · exact length_lt_of_readTexts read
  · exact length_lt_of_readSwitch read

/-- The name of the next field, or none at the end of the object.  A comma stands before each name
but the first. -/
def readName : Bool → List Token → Except Fault (Option String × List Token)
  | _, [] | false, [.comma] => .error .unexpectedEnd
  | _, .closeObject :: ts => .ok (none, ts)
  | true, t :: ts | false, .comma :: t :: ts =>
    match t with
    | .string pieces =>
      match Json.Quotation.text none pieces with
      | .ok cs => .ok (some (String.ofList cs), ts)
      | .error fault => .error fault
    | .brokenString .. => .error t.mismatch
    | _ => .error .malformed
  | false, _ => .error .malformed

theorem length_lt_of_readName {isFirst : Bool} {ts rest : List Token} {name : Option String}
    (h : readName isFirst ts = .ok (name, rest)) : rest.length < ts.length := by
  unfold readName at h
  grind

def readColon : List Token → Except Fault (List Token)
  | [] => .error .unexpectedEnd
  | .colon :: ts => .ok ts
  | _ => .error .malformed

theorem length_lt_of_readColon {ts rest : List Token} (h : readColon ts = .ok rest) :
    rest.length < ts.length := by
  unfold readColon at h
  grind

/-- The fields of an object up to its end.  A known field is given once. -/
def readFields (isFirst : Bool) (given : List Field) (c : Config) (ts : List Token) :
    Except Fault (Config × List Token) :=
  match _hName : readName isFirst ts with
  | .error fault => .error fault
  | .ok (none, rest) => .ok (c, rest)
  | .ok (some name, afterName) =>
    match Field.ofName? name with
    | some field =>
      if field ∈ given then .error .mismatch
      else
        match _hColon : readColon afterName with
        | .error fault => .error fault
        | .ok afterColon =>
          match _hField : readField c afterColon field with
          | .error fault => .error fault
          | .ok (c, rest) => readFields false (field :: given) c rest
    | none =>
      match _hColon : readColon afterName with
      | .error fault => .error fault
      | .ok afterColon =>
        match _hValue : passValue none afterColon with
        | .error fault => .error fault
        | .ok rest => readFields false given c rest
termination_by ts.length
decreasing_by
  · have := length_lt_of_readName _hName
    have := length_lt_of_readColon _hColon
    have := length_lt_of_readField _hField
    omega
  · have := length_lt_of_readName _hName
    have := length_lt_of_readColon _hColon
    have := length_lt_of_pass _hValue
    omega

/-- The values of an array up to its end, one for each of the fields.  A comma stands before each
but the first; fields at the end may be missing. -/
def readValues (isFirst : Bool) (c : Config) :
    List Field → List Token → Except Fault (Config × List Token)
  | _, [] => .error .unexpectedEnd
  | _, .closeArray :: rest => .ok (c, rest)
  | [], _ => .error .malformed
  | f :: fs, t :: ts =>
    match isFirst, t with
    | true, t =>
      match readField c (t :: ts) f with
      | .error fault => .error fault
      | .ok (c, rest) => readValues false c fs rest
    | false, .comma =>
      match readField c ts f with
      | .error fault => .error fault
      | .ok (c, rest) => readValues false c fs rest
    | false, _ => .error .malformed

def readTokens : List Token → Except Fault (Config × List Token)
  | [] => .error .unexpectedEnd
  | .openObject :: ts => readFields true [] blank ts
  | .openArray :: ts => readValues true blank Field.all ts
  | t :: _ => .error t.mismatch

/-- The configuration that a file holds.  Comments and trailing commas are allowed. -/
def ofText (text : String) : Except Fault Config :=
  match readTokens (Json.tokens (Json.strictText text.toList)) with
  | .error fault => .error fault
  | .ok (c, []) => .ok c
  | .ok (_, _ :: _) => .error .malformed

end Config
end TypeSurface
