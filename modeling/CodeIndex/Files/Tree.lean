import CodeIndex.Catalog
import CodeIndex.Files.Path

/-! Trees of files, and how paths are found in them. -/

namespace CodeIndex.Files

/-- Why a file cannot be read. -/
inductive IoError where
  | notFound
  | notDirectory
  | isDirectory
  | nameTooLong
  | nulInPath
  | notUtf8
  /-- Any other reason, in the words of the system. -/
  | other (text : String)
  deriving DecidableEq, Repr

def IoError.message : IoError → String
  | notFound => "No such file or directory (os error 2)"
  | notDirectory => "Not a directory (os error 20)"
  | isDirectory => "Is a directory (os error 21)"
  | nameTooLong => "File name too long (os error 36)"
  | nulInPath => "file name contained an unexpected NUL byte"
  | notUtf8 => "stream did not contain valid UTF-8"
  | other text => text

/-- A file with its bytes and the time of its last change, in milliseconds from the beginning of
1970; or a directory. -/
inductive Entry where
  | file (bytes : ByteArray) (modified : Int)
  | directory (entries : List (String × Entry))
  deriving Inhabited

namespace Entry

def isDirectory : Entry → Bool
  | directory _ => true
  | file .. => false

/-- The entries of a directory; a file has none. -/
def entries : Entry → List (String × Entry)
  | directory es => es
  | file .. => []

def maxName : Nat := 255

/-- Follows the parts of a path from the entry at the front of the list, which has the directories
above it after it.  What lies above the uppermost directory is unknown and counts as empty. -/
def follow : List Entry → List String → Except IoError (List Entry)
  | [], _ => .error .notFound
  | at_, [] => .ok at_
  | file .. :: _, _ :: _ => .error .notDirectory
  | directory es :: above, part :: rest =>
    if part = "" ∨ part = "." then follow (directory es :: above) rest
    else if part = ".." then follow (if above.isEmpty then [directory []] else above) rest
    else if part.utf8ByteSize > maxName then .error .nameTooLong
    else match es.lookup part with
      | some e => follow (e :: directory es :: above) rest
      | none => .error .notFound

/-- The entry at a path, with the directories above it, nearest first. -/
def locate (tree : Entry) (path : String) : Except IoError (List Entry) :=
  if path.isEmpty then .error .notFound
  else if path.toList.contains '\x00' then .error .nulInPath
  else if path.toList.head? == some '/' then follow [directory []] (parts path)
  else follow [tree] (parts path)

def find (tree : Entry) (path : String) : Except IoError Entry := do
  match ← tree.locate path with
  | e :: _ => .ok e
  | [] => .error .notFound

def contains (tree : Entry) (path : String) : Bool :=
  match tree.find path with
  | .ok _ => true
  | .error _ => false

/-- The path leads to a directory. -/
def hasDirectory (tree : Entry) (path : String) : Bool :=
  match tree.find path with
  | .ok e => e.isDirectory
  | .error _ => false

/-- The text that bytes stand for. -/
def decodeText (bytes : ByteArray) : Except IoError String :=
  match String.fromUTF8? bytes with
  | some s => .ok s
  | none => .error .notUtf8

/-- The bytes of a file and the time of its last change. -/
def readBytes (tree : Entry) (path : String) : Except IoError (ByteArray × Int) := do
  match ← tree.find path with
  | file bytes modified => .ok (bytes, modified)
  | directory _ => .error .isDirectory

def readText (tree : Entry) (path : String) : Except IoError String := do
  let (bytes, _) ← tree.readBytes path
  decodeText bytes

/-- What is found at a path: nothing, or a text that can be read or not. -/
def textAt? (tree : Entry) (path : String) : Option (Except IoError String) :=
  if tree.contains path then some (tree.readText path) else none

/-- The names that a path goes through from the uppermost directory. -/
def namesOf (path : String) : List String :=
  (components path).filterMap fun
    | .name s => some s
    | _ => none

/-- Puts an entry at a place and makes the directories on the way. -/
def put (e : Entry) : List String → Entry → Entry
  | [], _ => e
  | name :: rest, tree =>
    directory (insertEntry name (put e rest ((tree.entries.lookup name).getD (directory [])))
      tree.entries)

def write (tree : Entry) (path : String) (bytes : ByteArray) (modified : Int) : Entry :=
  put (file bytes modified) (namesOf path) tree

/-- No name on the way is that of a file. -/
def isOpen : List String → Entry → Bool
  | _, file .. => false
  | [], directory _ => true
  | name :: rest, directory es => (es.lookup name).all (isOpen rest)

/-- Makes a directory, with those on the way; an existing one stays.  No directory can be made where
a file is. -/
def makeDirectory? (tree : Entry) (path : String) : Option Entry :=
  if tree.hasDirectory path then some tree
  else if isOpen (namesOf path) tree then some (put (directory []) (namesOf path) tree)
  else none

/-- Takes the entry at a place away. -/
def take : List String → Entry → Entry
  | [], tree => tree
  | _, file bytes modified => file bytes modified
  | [name], directory es => directory (es.filter (·.1 ≠ name))
  | name :: rest, directory es =>
    match es.lookup name with
    | some inner => directory (insertEntry name (take rest inner) es)
    | none => directory es

def remove (tree : Entry) (path : String) : Entry := take (namesOf path) tree

end Entry

end CodeIndex.Files
