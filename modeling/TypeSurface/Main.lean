import TypeSurface.CommandLine.Usage

/-!
# The program

The files of a real run are those that it asks for: a run that fails at a path which has not been
looked at is repeated with what is found there.
-/

namespace TypeSurface
namespace Main

def isDirectory (location : Location) : IO Bool := do
  try (← IO.FS.realPath location.path.text).isDir catch _ => return false

def readText? (location : Location) : IO (Option String) := do
  try some <$> IO.FS.readFile location.path.text catch _ => return none

/-- The tree with the places that the steps lead through. -/
def lookAlong (t : FileTree) (here : Location) : List String → IO FileTree
  | [] => return t
  | step :: steps => do
    if step = "." then lookAlong t here steps
    else if step = ".." then lookAlong t here.dropLast steps
    else
      let next : Location := here ++ [step]
      if ← isDirectory next then lookAlong (t.addDirectories [] next) next steps
      else
        match ← readText? next with
        | some text => return t.addFile next text
        | none => return t

/-- The tree with everything below a directory. -/
partial def lookBelow (t : FileTree) (location : Location) : IO FileTree := do
  let entries ← try (← IO.FS.realPath location.path.text).readDir catch _ => return t
  entries.foldlM (fun t entry ↦ do
    let next : Location := location ++ [entry.fileName]
    if ← isDirectory next then lookBelow (t.addDirectories [] next) next
    else lookAlong t location [entry.fileName]) t

def lookAt (t : FileTree) (p : Path) (isDeep : Bool) : IO FileTree := do
  let t ← lookAlong t [] p.steps
  match t.locate p with
  | .ok location => if isDeep then lookBelow t location else return t
  | .error _ => return t

/-- A set root is looked at with all that lies below it. -/
def isDeep : Failure → Bool
  | .rootNotDirectory _ => true
  | _ => false

partial def run (o : Options) (current : Path) (t : FileTree) (known : List Path) :
    IO (Except Failure Outcome) := do
  match o.run t current with
  | .ok outcome => return .ok outcome
  | .error f =>
    match f.path? with
    | none => return .error f
    | some p =>
      if p ∈ known then return .error f
      else run o current (← lookAt t p (isDeep f)) (p :: known)

/-- Writes the file of an outcome. -/
def write (outcome : Outcome) : IO Unit := do
  match outcome.written with
  | none => return
  | some p =>
    match outcome.files.read p with
    | .error _ => return
    | .ok text =>
      IO.FS.createDirAll p.directory.text
      IO.FS.writeFile p.text text

def say (transcript : Transcript) : IO UInt32 := do
  IO.eprint transcript.errors
  IO.print transcript.output
  return transcript.exitCode.toUInt32

def invoke (args : List String) : IO UInt32 := do
  match Arguments.read args with
  | .error e => say e.transcript
  | .ok o =>
    let current : Path := ⟨(← IO.currentDir).toString⟩
    let t ← lookAt .empty (current.join ⟨Config.fileName⟩) false
    match ← run o current t [] with
    | .error f => say (.ofFailure f)
    | .ok outcome =>
      try write outcome
      catch e => return ← say ⟨1, "", lineOf ("error: " ++ toString e)⟩
      let isTerminal ← (← IO.getStdout).isTty
      let isWanted ← if o.isPretty then pure true else (← IO.getStderr).isTty
      say (.ofOutcome (isTerminal && isWanted) outcome)

end Main
end TypeSurface

def main (args : List String) : IO UInt32 :=
  TypeSurface.Main.invoke args
