import TypeSurface.Diagnostic.Basic
import TypeSurface.Report.Excerpt
import TypeSurface.Text.Source

/-!
# Reports

A report says where each diagnostic stands and what it is, and shows the place in the source text if
the text is known.  It can be painted for a terminal.
-/

namespace TypeSurface
namespace Report

/-- The parts of a report that have a colour of their own. -/
inductive Paint where
  | label (category : Category)
  | code
  | marks
  | heading
deriving DecidableEq, Repr

/-- The parameters that switch a colour on. -/
def Paint.parameters : Paint → String
  | label .error => "1;31"
  | label .warning => "1;33"
  | label .suggestion => "1;34"
  | label .message => "1;36"
  | code => "94"
  | marks => "31"
  | heading => "2"

/-- A text between the sequences that switch its colour on and off. -/
def painted (isColored : Bool) (paint : Paint) (text : String) : String :=
  if isColored then "\x1b[" ++ paint.parameters ++ "m" ++ text ++ "\x1b[0m" else text

def categoryLabel : Category → String
  | .error => "error"
  | .warning => "warning"
  | .suggestion => "suggestion"
  | .message => "message"

/-- Line and column of an offset, counted from one, and the text of the line. -/
structure Place where
  line : Nat
  column : Nat
  text : List Char

def place? (sources : List Source) (file : String) (offset : Nat) : Option Place :=
  (Source.find? sources file).map fun source ↦
    let cs := source.text.toList
    let lines := LineMap.ofText cs
    let position := lines.position offset cs
    ⟨position.line + 1, position.character + 1, (lines.lineText? position.line cs).getD []⟩

/-- The program speaks of what belongs to no file. -/
def location (sources : List Source) (file : String) (offset : Nat) : String :=
  match place? sources file offset with
  | some p => file ++ ":" ++ toString p.line ++ ":" ++ toString p.column
  | none => if file = "" then "jsm" else file

/-- The lines that show a span: none if the span is empty or the text is not known. -/
def excerpt (isColored : Bool) (sources : List Source) (file : String) (start length : Nat) :
    String :=
  if length = 0 then ""
  else
    match place? sources file start with
    | none => ""
    | some p =>
      let number := toString p.line
      let marks := String.ofList (Excerpt.marks (p.column - 1) length p.text)
      "\n " ++ number ++ " | " ++ String.ofList (Excerpt.shown p.text) ++
        "\n " ++ "".pushn ' ' number.length ++ " | " ++ painted isColored .marks marks

def relatedText (isColored : Bool) (sources : List Source) (r : Related) : String :=
  "\n  " ++ painted isColored .heading "Related" ++ ": " ++ location sources r.file r.start ++
    " - " ++ r.message ++ excerpt isColored sources r.file r.start r.length

def diagnosticText (isColored : Bool) (sources : List Source) (d : Diagnostic) : String :=
  location sources d.file d.start ++ " - " ++
    painted isColored (.label d.category) (categoryLabel d.category) ++
    (if d.code = 0 then "" else " " ++ painted isColored .code ("JSM" ++ toString d.code)) ++
    ": " ++ d.message ++ excerpt isColored sources d.file d.start d.length ++
    String.join (d.related.map (relatedText isColored sources))

/-- The diagnostics one below the other. -/
def render (isColored : Bool) (sources : List Source) (ds : List Diagnostic) : String :=
  "\n".intercalate (ds.map (diagnosticText isColored sources))

end Report
end TypeSurface
