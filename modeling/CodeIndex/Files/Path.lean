/-! Paths: names between slashes.  A path keeps the spelling that it was given; its components leave
out repeated slashes and, but for one in front, the dots that stand for the same directory. -/

namespace CodeIndex.Files

/-- The parts of a path between its slashes, empty ones included. -/
def parts (path : String) : List String := (path.toList.splitOn '/').map String.ofList

inductive Component where
  | root
  | here
  | parent
  | name (s : String)
  deriving DecidableEq, Repr

/-- The component that a part stands for, if it stands for one. -/
def component? (first : Bool) (part : String) : Option Component :=
  if part = "" then none
  else if part = "." then (if first then some .here else none)
  else if part = ".." then some .parent
  else some (.name part)

def components (path : String) : List Component :=
  match parts path with
  | [] => []
  | "" :: rest =>
    (if path.isEmpty then [] else [.root]) ++ rest.filterMap (component? false)
  | part :: rest => (component? true part).toList ++ rest.filterMap (component? false)

/-- The last component, if it is a name. -/
def fileName? (path : String) : Option String :=
  match (components path).getLast? with
  | some (.name s) => some s
  | _ => none

/-- What follows the last dot of a name; a name has no extension when its only dot stands first. -/
def extensionOf? (name : String) : Option String :=
  let cs := name.toList.reverse
  match cs.dropWhile (· != '.') with
  | [] => none
  | [_] => none
  | _ => some (String.ofList (cs.takeWhile (· != '.')).reverse)

def extension? (path : String) : Option String := (fileName? path).bind extensionOf?

/-- The path of an entry of a directory. -/
def join (directory name : String) : String :=
  if directory.isEmpty || directory.toList.getLast? == some '/' then directory ++ name
  else directory ++ "/" ++ name

/-- A name starts with a dot. -/
def isHiddenName (name : String) : Bool := name.toList.head? == some '.'

def isHidden (path : String) : Bool :=
  (components path).any fun
    | .name s => isHiddenName s
    | _ => false

end CodeIndex.Files
