import TypeSurface.CommandLine.Arguments
import TypeSurface.CommandLine.Transcript

/-!
# Usage

What the program says when it is asked how it is used, or used in another way.
-/

namespace TypeSurface
namespace UsageError

def usage : String :=
  "Usage: jsm [OPTIONS]\n\n" ++
  "  --list-sets            List the embedded declaration sets and stop\n" ++
  "  --show-config          Print the resolved configuration instead of building\n" ++
  "  --profile              Print the capability profile of the mode and stop\n" ++
  "  -p, --project <PATH>   Configuration file, or the directory that holds it\n" ++
  "  -m, --mode <MODE>      Mode that the surface is built for\n" ++
  "  --sets <SETS>          Declaration sets: ids, or paths to .d.ts files\n" ++
  "  --set-root <DIR>       Directory that is searched for more sets\n" ++
  "  --exclude <NAME>       Names that are excluded besides those of the mode\n" ++
  "  --no-index-audit       Skip the audit of index types\n" ++
  "  --emit <FORM>          dts or json\n" ++
  "  --out <FILE>           Write the surface to a file\n" ++
  "  --pretty               Colours in reports, and indented JSON\n" ++
  "  -h, --help             Print this text\n" ++
  "  -V, --version          Print the version\n"

def version : String := "jsm 0.1.0\n"

def message : UsageError → String
  | unknownArgument => "unexpected argument"
  | invalidValue => "a value is missing or not allowed"
  | argumentConflict => "an argument cannot be used multiple times"
  | tooManyValues => "a value stands behind an argument that takes none"
  | helpRequested => usage
  | versionRequested => version

/-- Only what was asked for counts as a success. -/
def transcript (e : UsageError) : Transcript :=
  match e with
  | helpRequested | versionRequested => ⟨0, e.message, ""⟩
  | _ => ⟨2, "", "error: " ++ e.message ++ "\n\n" ++ usage⟩

end UsageError
end TypeSurface
