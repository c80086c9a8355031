/-! What can be asked for on the command line. -/

namespace CodeIndex.CommandLine

structure Query where
  text : String
  limit : Nat := 10
  scoreThreshold : Float32 := 0
  file : Option String := none
  json : Bool := false
  deriving Repr

inductive Command where
  | createCollection
  | query (q : Query)
  | reconcile (path : String)
  | watch
  | clear (confirmed : Bool)
  deriving Repr

/-- A command with what holds for all commands: the file with the settings, and the collection. -/
structure Invocation where
  config : Option String := none
  collection : Option String := none
  command : Command
  deriving Repr

/-- Why arguments do not lead to a command. -/
inductive Usage where
  | help
  | version
  /-- There was nothing at all. -/
  | nothingGiven
  | commandMissing
  | commandUnknown
  | argumentUnknown
  | argumentMissing
  /-- An option without a value, or with an empty one where that cannot be. -/
  | valueMissing
  | valueMalformed
  /-- An option was given twice. -/
  | repeated
  /-- A value for an option that takes none. -/
  | valueUnwanted
  deriving DecidableEq, Repr

namespace Usage

/-- Help and the version were asked for; all else is a mistake. -/
def exitCode : Usage → Nat
  | help => 0
  | version => 0
  | _ => 2

def text : Usage → String
  | version => "codesync 0.3.0"
  | help => "Keep a vector index in sync with a live source tree\n\n" ++ summary
  | nothingGiven => summary
  | commandMissing => "error: a command is required\n\n" ++ summary
  | commandUnknown => "error: unrecognized command\n\n" ++ summary
  | argumentUnknown => "error: unexpected argument\n\n" ++ summary
  | argumentMissing => "error: a required argument is missing\n\n" ++ summary
  | valueMissing => "error: an option lacks its value\n\n" ++ summary
  | valueMalformed => "error: an option has a value that cannot be read\n\n" ++ summary
  | repeated => "error: an option is given twice\n\n" ++ summary
  | valueUnwanted => "error: an option has a value that it cannot take\n\n" ++ summary
where
  summary : String :=
    "Usage: codesync [--config <FILE>] [--collection <NAME>] <COMMAND>\n\n"
      ++ "Commands: create-collection, query <TEXT>, reconcile <PATH>, watch, clear, help"

end Usage

end CodeIndex.CommandLine
