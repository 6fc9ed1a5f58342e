import TypeSurface.CommandLine.Run
import TypeSurface.Report.Basic

/-!
# Transcripts

What an invocation leaves behind: what it says on its two streams, and its exit code.
-/

namespace TypeSurface

structure Transcript where
  exitCode : Nat
  output : String
  errors : String
deriving DecidableEq, Repr

namespace Transcript

def ofFailure (f : Failure) : Transcript := ⟨1, "", lineOf ("error: " ++ f.message)⟩

/-- How many errors were found, if any was. -/
def countText (errors : Nat) : String :=
  if errors = 0 then ""
  else lineOf ("\nFound " ++ toString errors ++ " error" ++ (if errors = 1 then "" else "s") ++ ".")

def ofOutcome (isColored : Bool) (o : Outcome) : Transcript :=
  let report := if o.diagnostics.isEmpty then ""
    else lineOf (Report.render isColored o.sources o.diagnostics)
  let written := match o.written with
    | some path => lineOf ("Surface written to " ++ path.text)
    | none => ""
  ⟨o.exitCode, o.output,
    report ++ countText (o.diagnostics.countP Diagnostic.isError) ++ written⟩

end Transcript
end TypeSurface
