import TypeSurface.CommandLine.Options

/-!
# Arguments

An argument is the name of a parameter, long or short, or the value of the parameter before it.  A
value may also stand in one argument with the name.  A value that stands alone is looked at when the
next parameter is read, or at the end.
-/

namespace TypeSurface

/-- Why arguments are refused, or what they ask for instead of a run. -/
inductive UsageError where
  | unknownArgument
  | invalidValue
  | argumentConflict
  | tooManyValues
  | helpRequested
  | versionRequested
deriving DecidableEq, Repr

namespace Arguments

/-- Parameters without a value. -/
inductive Switch where
  | listSets
  | showConfig
  | profile
  | noIndexAudit
  | pretty
deriving DecidableEq, Repr

/-- Parameters with a value. -/
inductive Valued where
  | project
  | mode
  | sets
  | setRoot
  | exclude
  | emit
  | out
deriving DecidableEq, Repr

inductive Parameter where
  | switch (switch : Switch)
  | valued (valued : Valued)
  | help
  | version
deriving DecidableEq, Repr

namespace Parameter

def ofLongName? : String → Option Parameter
  | "list-sets" | "listSets" => some (switch .listSets)
  | "show-config" | "showConfig" => some (switch .showConfig)
  | "profile" => some (switch .profile)
  | "no-index-audit" | "noIndexAudit" => some (switch .noIndexAudit)
  | "pretty" => some (switch .pretty)
  | "project" => some (valued .project)
  | "mode" => some (valued .mode)
  | "sets" => some (valued .sets)
  | "set-root" => some (valued .setRoot)
  | "exclude" => some (valued .exclude)
  | "emit" => some (valued .emit)
  | "out" => some (valued .out)
  | "help" => some help
  | "version" => some version
  | _ => none

def ofShortName? : Char → Option Parameter
  | 'p' => some (valued .project)
  | 'm' => some (valued .mode)
  | 'h' => some help
  | 'V' => some version
  | _ => none

end Parameter

/-- Whether a parameter may be given again and again. -/
def Valued.isRepeatable : Valued → Bool
  | sets | setRoot | exclude => true
  | project | mode | emit | out => false

/-- The pieces of a value between its commas. -/
def listed (text : String) : List String :=
  (Text.splitOn (· == ',') text.toList).map String.ofList

def path (text : String) : Except UsageError Path :=
  if text = "" then .error .invalidValue else .ok ⟨text⟩

def Switch.set (o : Options) : Switch → Options
  | listSets => { o with listsSets := true }
  | showConfig => { o with showsConfig := true }
  | profile => { o with showsProfile := true }
  | noIndexAudit => { o with skipsIndexAudit := true }
  | pretty => { o with isPretty := true }

/-- A value that is a path is not empty. -/
def Valued.set (o : Options) (text : String) : Valued → Except UsageError Options
  | project => (path text).map fun p ↦ { o with project := some p }
  | mode => .ok { o with mode := some text }
  | sets => .ok { o with sets := some (o.sets.getD [] ++ listed text) }
  | setRoot => (path text).map fun p ↦ { o with roots := o.roots ++ [p] }
  | exclude => .ok { o with exclusions := o.exclusions ++ listed text }
  | emit =>
    match Emission.ofText? text with
    | some emission => .ok { o with emission := some emission }
    | none => .error .invalidValue
  | out => (path text).map fun p ↦ { o with out := some p }

/-- What the arguments so far have come to. -/
structure Reading where
  options : Options
  switches : List Switch
  values : List Valued
  /-- The last parameter, if its value stands alone, and the value if it has come. -/
  pending : Option (Valued × Option String)
  /-- Behind two dashes no parameter is named. -/
  isClosed : Bool

namespace Reading

def start : Reading := ⟨.blank, [], [], none, false⟩

def giveSwitch (r : Reading) (s : Switch) : Except UsageError Reading :=
  if s ∈ r.switches then .error .argumentConflict
  else .ok { r with options := s.set r.options, switches := s :: r.switches }

def giveValue (r : Reading) (v : Valued) (text : String) : Except UsageError Reading :=
  if v ∈ r.values ∧ ¬v.isRepeatable then .error .argumentConflict
  else (v.set r.options text).map fun o ↦ { r with options := o, values := v :: r.values }

/-- Looks at the value that stands alone. -/
def settle (r : Reading) : Except UsageError Reading :=
  match r.pending with
  | none => .ok r
  | some (_, none) => .error .invalidValue
  | some (v, some text) => { r with pending := none }.giveValue v text

/-- A parameter whose value is to come. -/
def await (r : Reading) (v : Valued) : Except UsageError Reading :=
  r.settle.map fun r ↦ { r with pending := some (v, none) }

def long (r : Reading) (name : String) (value? : Option String) : Except UsageError Reading :=
  match Parameter.ofLongName? name, value? with
  | none, _ => .error .unknownArgument
  | some (.valued v), none => r.await v
  | some (.valued v), some text => do (← r.settle).giveValue v text
  | some _, some _ => .error .tooManyValues
  | some (.switch s), none => do (← r.settle).giveSwitch s
  | some .help, none => do let _ ← r.settle; .error .helpRequested
  | some .version, none => do let _ ← r.settle; .error .versionRequested

/-- Short names may stand together, and a value behind the last of them. -/
def short (r : Reading) : List Char → Except UsageError Reading
  | [] => .ok r
  | c :: cs =>
    match Parameter.ofShortName? c, cs with
    | none, _ => .error .unknownArgument
    | some (.valued v), [] => r.await v
    | some (.valued v), '=' :: text | some (.valued v), text => do
      (← r.settle).giveValue v (String.ofList text)
    | some (.switch s), cs => do short (← (← r.settle).giveSwitch s) cs
    | some .help, _ => do let _ ← r.settle; .error .helpRequested
    | some .version, _ => do let _ ← r.settle; .error .versionRequested

/-- An argument that names no parameter. -/
def plain (r : Reading) (arg : String) : Except UsageError Reading :=
  match r.pending with
  | some (v, none) => .ok { r with pending := some (v, some arg) }
  | _ => .error .unknownArgument

def argument (r : Reading) (arg : String) : Except UsageError Reading :=
  if r.isClosed then .error .unknownArgument
  else
    match arg.toList with
    | ['-', '-'] => .ok { r with isClosed := true }
    | '-' :: '-' :: cs =>
      match Text.splitAt? ['='] cs with
      | some (name, value) => r.long (String.ofList name) (some (String.ofList value))
      | none => r.long (String.ofList cs) none
    | '-' :: c :: cs => r.short (c :: cs)
    | _ => r.plain arg

end Reading

/-- The options that the arguments of an invocation ask for. -/
def read (args : List String) : Except UsageError Options := do
  let r ← args.foldlM Reading.argument Reading.start
  return (← r.settle).options

end Arguments
end TypeSurface
