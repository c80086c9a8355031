import CodeIndex.CommandLine.Execute
import CodeIndex.Index.Identifier

/-! The program: it takes the arguments, the environment and the files from the system, lets a
command be carried out, and prints what comes of it.  It has no connection to any server, so that
requests end as they do when nobody can be reached. -/

namespace CodeIndex.Program

open CommandLine (Exit Failure Invocation Plan)
open Config (Environment)
open Files (Entry IoError)
open Index (Action Remote SourceFile World)

/-! ### Files -/

/-- Why the system refuses a file. -/
def reason : IO.Error → IoError
  | .noFileOrDirectory .. => .notFound
  | .inappropriateType _ code _ => if code = 20 then .notDirectory else .isDirectory
  | .permissionDenied _ code text => .other s!"{text} (os error {code})"
  | e => .other (toString e)

/-- The result of an action of the system, or why it is refused. -/
def attempt {α : Type} (action : IO α) : IO (Except IoError α) := do
  match ← action.toBaseIO with
  | .ok a => return .ok a
  | .error e => return .error (reason e)

/-- A file with its text and its facts. -/
def readSource (path : String) : IO (Except IoError SourceFile) := do
  let found ← attempt do
    let bytes ← IO.FS.readBinFile path
    let facts ← (← IO.FS.realPath path).metadata
    pure (bytes, facts.modified.sec * 1000 + (facts.modified.nsec / 1000000).toNat)
  return do
    let (bytes, modified) ← found
    pure ⟨← Entry.decodeText bytes, bytes.size, modified⟩

/-- The text at a path, if anything is there. -/
def textAt? (path : String) : IO (Option (Except IoError String)) := do
  match ← readSource path with
  | .error .notFound => return none
  | .error .notDirectory => return none
  | .error e => return some (.error e)
  | .ok source => return some (.ok source.text)

def isDirectory (path : String) : IO Bool := do
  match ← attempt (IO.FS.realPath path) with
  | .ok p => p.isDir
  | .error _ => return false

/-! ### Walks -/

/-- The names of the files whose text tells what to ignore. -/
def ignoreNames : List String := [".ignore", ".gitignore", "exclude"]

/-- The files of a directory and those below it.  Only files that tell what to ignore have their
text, and links are left out. -/
partial def listBelow (directory : String) : IO Entry := do
  let mut entries := []
  for found in ← (← IO.FS.realPath directory).readDir do
    let path := found.path.toString
    match (← found.path.symlinkMetadata).type with
    | .dir => entries := insertEntry found.fileName (← listBelow path) entries
    | .file =>
      let bytes ←
        if ignoreNames.contains found.fileName then IO.FS.readBinFile path else pure .empty
      entries := insertEntry found.fileName (.file bytes 0) entries
    | _ => pure ()
  return .directory entries

/-- A directory with nothing but the files that tell what to ignore. -/
def listIgnoring (directory : String) : IO Entry := do
  let mut tree : Entry := .directory []
  if ← isDirectory (Files.join directory ".git") then
    tree := (tree.makeDirectory? ".git").getD tree
  for name in [".ignore", ".gitignore", ".git/info/exclude"] do
    if let .ok source ← readSource (Files.join directory name) then
      tree := tree.write name source.text.toUTF8 0
  return tree

/-- The paths of the directories above an entry, nearest first.  The entry is given by its name and
theirs, nearest first as well. -/
def pathsAbove : List String → List String
  | [] => []
  | _ :: above => ("/" ++ String.intercalate "/" above.reverse) :: pathsAbove above

/-- The files below a directory that are not to be ignored. -/
def walk (root : String) : IO (List String) := do
  match ← attempt (IO.FS.realPath root) with
  | .error _ => return []
  | .ok p =>
    let names := (Entry.namesOf p.toString).reverse
    let above ← (pathsAbove names).mapM listIgnoring
    return Files.walkFrom root names (← listBelow root) above

/-! ### Commands -/

/-- Carries out one action: files, the clock and new identifiers are those of the system. -/
def carryOut (world : IO.Ref (World Remote)) : (action : Action) → IO action.Answer
  | .read path => readSource path
  | .isDirectory path => isDirectory path
  | .walk root => walk root
  | .freshId => do
    let bytes ← IO.getRandomBytes Index.identifierBytes.toUSize
    return Index.randomIdentifier bytes.toList
  | .clock => IO.monoMsNow
  | action => world.modifyGet (World.carryOut action)

/-- The variables of the system that count. -/
def environment : IO Environment := do
  let found ← Environment.names.filterMapM fun name => do
    return (← IO.getEnv name).map fun value => (name, value)
  return fun name => found.lookup name

/-- Waits until the program is interrupted. -/
partial def waitForever : IO Unit := do
  IO.sleep 60000
  waitForever

/-- Carries out a plan.  Nothing is reported as changed while nobody can be reached. -/
def carryOutPlan (plan : Plan) : IO Exit := do
  let remote : Remote := ⟨plan.store, plan.embedder, .unreachable, .unreachable, []⟩
  let world ← IO.mkRef {
    services := Index.Services.remote, state := remote
    files := .directory [], ids := fun _ => "" }
  if plan.command matches .watch then waitForever
  return (← (plan.job []).run (carryOut world)).exit

/-- Carries out what the arguments ask for. -/
def carryOutInvocation (i : Invocation) : IO Exit := do
  let env ← environment
  let path := Config.resolvePath i.config env
  match i.plan (Config.loadFound path (← textAt? path) env) with
  | .error failure => return failure.exit
  | .ok plan => carryOutPlan plan

/-- The end for arguments that lead to no command. -/
def usageExit (usage : CommandLine.Usage) : Exit :=
  if usage.exitCode = 0 then { code := 0, output := [usage.text] }
  else { code := usage.exitCode, errors := [usage.text] }

/-- Prints what is left behind and gives the exit code. -/
def finish (e : Exit) : IO UInt32 := do
  for line in e.output do IO.println line
  for line in e.errors do IO.eprintln line
  return UInt32.ofNat e.code

end CodeIndex.Program

/-- Takes the arguments of the command line. -/
def main (args : List String) : IO UInt32 := do
  match CodeIndex.CommandLine.parseArguments args with
  | .error usage => CodeIndex.Program.finish (CodeIndex.Program.usageExit usage)
  | .ok invocation => CodeIndex.Program.finish (← CodeIndex.Program.carryOutInvocation invocation)
