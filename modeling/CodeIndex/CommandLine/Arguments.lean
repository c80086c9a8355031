import CodeIndex.CommandLine.Command
import CodeIndex.Numeric.Numeral

/-! Reading arguments.  Options start with two dashes, or with one and a letter; two dashes alone
end them.  The arguments before the name of a command and those after it are read in the same way,
with different options.  A value is looked at only when the next argument is taken up, so that an
argument that is unknown is reported before a bad value in front of it. -/

namespace CodeIndex.CommandLine

/-- What an argument is for. -/
inductive Slot where
  | config
  | collection
  | limit
  | scoreThreshold
  | file
  | json
  | yes
  | help
  | version
  /-- The text of a query. -/
  | text
  /-- The path of a file or directory. -/
  | path
  deriving DecidableEq, Repr

namespace Slot

/-- The name after two dashes; what has no name is given by its place. -/
def longName? : Slot → Option String
  | config => some "config"
  | collection => some "collection"
  | limit => some "limit"
  | scoreThreshold => some "score-threshold"
  | file => some "file"
  | json => some "json"
  | yes => some "yes"
  | help => some "help"
  | version => some "version"
  | text => none
  | path => none

def shortName? : Slot → Option Char
  | collection => some 'c'
  | help => some 'h'
  | version => some 'V'
  | _ => none

def takesValue : Slot → Bool
  | json => false
  | yes => false
  | help => false
  | version => false
  | _ => true

/-- A value that the slot can hold. -/
def check (s : Slot) (value : String) : Except Usage Unit :=
  match s with
  | config => if value.isEmpty then .error .valueMissing else .ok ()
  | path => if value.isEmpty then .error .valueMissing else .ok ()
  | limit => if (Numeric.readWord? 64 value).isSome then .ok () else .error .valueMalformed
  | scoreThreshold => if (Numeric.readSingle? value).isSome then .ok () else .error .valueMalformed
  | _ => .ok ()

end Slot

/-- A stretch of arguments: what may stand there, the place for an argument without dashes, and the
names of commands that end it. -/
structure Stretch where
  options : List Slot
  place : Option Slot := none
  commands : List String := []

/-- An option whose value is still looked for, or has not been looked at. -/
structure Pending where
  slot : Slot
  value : Option String := none

/-- The arguments of a stretch that were read. -/
structure Reading where
  /-- The last one first; an option without value has an empty one. -/
  given : List (Slot × String) := []
  pending : Option Pending := none
  /-- The next argument is the value of the pending option unless it looks like an option. -/
  waiting : Bool := false
  /-- The place for an argument without dashes is taken. -/
  placed : Bool := false
  /-- All that follows is no option. -/
  trailing : Bool := false

namespace Reading

/-- Takes an argument over. -/
def put (r : Reading) (slot : Slot) (value : Option String) : Except Usage Reading :=
  if slot = .help then .error .help
  else if slot = .version then .error .version
  else if (r.given.lookup slot).isSome then .error .repeated
  else match value with
    | none => .ok { r with given := (slot, "") :: r.given, waiting := false }
    | some value => do
      slot.check value
      pure { r with given := (slot, value) :: r.given, waiting := false }

/-- Takes the pending option over. -/
def settle (r : Reading) : Except Usage Reading :=
  match r.pending with
  | none => .ok r
  | some ⟨_, none⟩ => .error .valueMissing
  | some ⟨slot, some value⟩ => { r with pending := none }.put slot (some value)

/-- An option with the value attached to it, if there is one. -/
def option (r : Reading) (slot : Slot) (attached : Option String) : Except Usage Reading := do
  let r ← r.settle
  if slot.takesValue ∧ attached.isNone then
    pure { r with pending := some ⟨slot, none⟩, waiting := true }
  else r.put slot attached

/-- The letters after one dash: an option that takes a value takes the rest, without an equals sign
in front. -/
def letters (s : Stretch) (r : Reading) : List Char → Except Usage Reading
  | [] => .ok r
  | c :: rest =>
    match s.options.find? (·.shortName? = some c) with
    | none => .error .argumentUnknown
    | some slot =>
      if slot.takesValue then
        r.option slot <| match rest with
          | [] => none
          | '=' :: value => some (String.ofList value)
          | value => some (String.ofList value)
      else do letters s (← r.option slot none) rest

/-- The name after two dashes, with what follows an equals sign. -/
def long (s : Stretch) (r : Reading) (cs : List Char) : Except Usage Reading :=
  let name := String.ofList (cs.takeWhile (· != '='))
  let attached := match cs.dropWhile (· != '=') with
    | _ :: value => some (String.ofList value)
    | [] => none
  match s.options.find? (·.longName? = some name) with
  | none => .error .argumentUnknown
  | some slot =>
    if !slot.takesValue && attached.isSome then .error .valueUnwanted else r.option slot attached

/-- An argument that is no option. -/
def plain (s : Stretch) (r : Reading) (value : String) : Except Usage Reading :=
  match s.place with
  | some slot =>
    if r.placed then .error .argumentUnknown
    else do
      pure { ← r.settle with
        pending := some ⟨slot, some value⟩, placed := true, waiting := false }
  | none =>
    -- After two dashes, the name of a command is no command.
    if s.commands.isEmpty || (r.trailing && s.commands.contains value) then .error .argumentUnknown
    else .error .commandUnknown

/-- One argument that names no command. -/
def take (s : Stretch) (r : Reading) (arg : String) : Except Usage Reading :=
  let fill (r : Reading) : Except Usage Reading :=
    match r.waiting, r.pending with
    | true, some p => .ok { r with pending := some { p with value := some arg }, waiting := false }
    | _, _ => r.plain s arg
  if r.trailing then r.plain s arg
  else match arg.toList with
    | ['-', '-'] => .ok { r with trailing := true }
    | '-' :: '-' :: cs => r.long s cs
    | ['-'] => fill r
    | '-' :: cs => r.letters s cs
    | _ => fill r

end Reading

def helpName : String := "help"

/-- Help may be asked for one command by its name. -/
def helpFor (commands : List String) : List String → Usage
  | [] => .help
  | [name] => if commands.contains name then .help else .commandUnknown
  | _ => .commandUnknown

/-- Reads a stretch to its end, or to the name of a command with the arguments after it. -/
def Stretch.read (s : Stretch) : List String → Reading →
    Except Usage (List (Slot × String) × Option (String × List String))
  | [], r => do pure ((← r.settle).given, none)
  | arg :: rest, r =>
    if !r.trailing && !r.waiting && s.commands.contains arg then
      if arg = helpName then .error (helpFor s.commands rest)
      else do pure ((← r.settle).given, some (arg, rest))
    else do s.read rest (← r.take s arg)

def commonOptions : List Slot := [.config, .collection, .help]

/-- The stretch after the name of a command, if there is such a command. -/
def stretchOf? : String → Option Stretch
  | "create-collection" => some { options := commonOptions }
  | "query" =>
    some {
      options := commonOptions ++ [.limit, .scoreThreshold, .file, .json]
      place := some .text }
  | "reconcile" => some { options := commonOptions, place := some .path }
  | "watch" => some { options := commonOptions }
  | "clear" => some { options := commonOptions ++ [.yes] }
  | _ => none

/-- The stretch before the name of a command. -/
def outerStretch : Stretch where
  options := commonOptions ++ [.version]
  commands := ["create-collection", "query", "reconcile", "watch", "clear", helpName]

/-- The command of a name with its arguments. -/
def commandOf (name : String) (given : List (Slot × String)) : Except Usage Command :=
  match name with
  | "create-collection" => .ok .createCollection
  | "query" =>
    match given.lookup .text with
    | none => .error .argumentMissing
    | some text =>
      let d : Query := { text }
      .ok (.query {
        text
        limit := ((given.lookup .limit).bind (Numeric.readWord? 64)).getD d.limit
        scoreThreshold :=
          ((given.lookup .scoreThreshold).bind Numeric.readSingle?).getD d.scoreThreshold
        file := given.lookup .file
        json := (given.lookup .json).isSome })
  | "reconcile" =>
    match given.lookup .path with
    | none => .error .argumentMissing
    | some path => .ok (.reconcile path)
  | "watch" => .ok .watch
  | "clear" => .ok (.clear (given.lookup .yes).isSome)
  | _ => .error .commandUnknown

/-- Reads the arguments of the program.  What holds for all commands may stand before or after the
command's name; after it, it counts more. -/
def parseArguments (args : List String) : Except Usage Invocation := do
  let (outer, found) ← outerStretch.read args {}
  match found with
  | none => throw (if outer.isEmpty then .nothingGiven else .commandMissing)
  | some (name, rest) =>
    match stretchOf? name with
    | none => throw .commandUnknown
    | some stretch =>
      let (inner, _) ← stretch.read rest {}
      pure {
        config := (inner.lookup .config).or (outer.lookup .config)
        collection := (inner.lookup .collection).or (outer.lookup .collection)
        command := ← commandOf name inner }

end CodeIndex.CommandLine
