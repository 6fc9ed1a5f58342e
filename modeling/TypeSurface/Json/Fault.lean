/-!
# Faults in JSON text

Text is read from left to right, and the first fault that is met is the one that is reported.
-/

namespace TypeSurface

/-- Why a text does not give the value that is wanted. -/
inductive Json.Fault where
  | unexpectedEnd
  | malformed
  /-- A value of another type than the one wanted, or a field that has been given already. -/
  | mismatch
  | notBoolean (text : String)
deriving DecidableEq, Repr

def Json.Fault.message : Fault → String
  | unexpectedEnd => "json eof error"
  | malformed => "json syntax error"
  | mismatch => "json data error"
  | notBoolean text =>
    "invalid boolean value: '" ++ text ++ "'. Expected true, false, 'true', or 'false'"

end TypeSurface
