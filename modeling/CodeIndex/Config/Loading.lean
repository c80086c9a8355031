import CodeIndex.Config.Document
import CodeIndex.Config.Environment
import CodeIndex.Files.Tree

/-! Loading settings: from a file, if there is one, with the environment above it. -/

namespace CodeIndex.Config

open Files (Entry IoError)

/-- The file that is read when none is named. -/
def defaultPath : String := "config/default.toml"

/-- The file named on the command line, else that of the environment, else the usual one. -/
def resolvePath (named : Option String) (env : Environment) : String :=
  match named with
  | some path => path
  | none => env.text "CODESYNC_CONFIG" defaultPath

inductive LoadError where
  | unreadable (path : String) (reason : IoError)
  | malformed (path : String)
  | invalid (fault : Fault)
  deriving DecidableEq, Repr

/-- The messages of an error, the outermost first. -/
def LoadError.chain : LoadError → List String
  | unreadable path reason =>
    [s!"failed to load config from {path}", "failed to read config file", reason.message]
  | malformed path => [s!"failed to load config from {path}", "failed to parse config file"]
  | invalid fault => [fault.message]

/-- The settings of what was found at a path; of nothing, the defaults. -/
def readFound (path : String) : Option (Except IoError String) → Except LoadError Settings
  | none => .ok {}
  | some (.error e) => .error (.unreadable path e)
  | some (.ok text) =>
    match Settings.ofDocument? text with
    | some s => .ok s
    | none => .error (.malformed path)

/-- The settings of what was found at a path with the environment above them, if they are valid. -/
def loadFound (path : String) (found : Option (Except IoError String)) (env : Environment) :
    Except LoadError Settings := do
  let s := (← readFound path found).override env
  match s.fault? with
  | some fault => .error (.invalid fault)
  | none => .ok s

/-- The settings of a file with the environment above them, if they are valid. -/
def load (files : Entry) (named : Option String) (env : Environment) : Except LoadError Settings :=
  let path := resolvePath named env
  loadFound path (files.textAt? path) env

end CodeIndex.Config
