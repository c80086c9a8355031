import CodeIndex.Files.Ignore

/-! Walks through a tree: all files below a path, without hidden entries and those that ignore files
leave out.  The paths keep the spelling of the path that the walk starts from. -/

namespace CodeIndex.Files

/-- An entry is left out when a rule ignores it, or when it is hidden and no rule lets it in. -/
def isLeftOut (above : List (String × IgnoreFiles)) (name : String) (e : Entry) : Bool :=
  match verdictAt above name e.isDirectory with
  | .ignored => true
  | .allowed => false
  | .unknown => isHiddenName name

mutual

/-- The files below an entry that has the path `path` and the name `name`. -/
def filesBelow (above : List (String × IgnoreFiles)) (path name : String) : Entry → List String
  | .file .. => [path]
  | .directory es =>
    filesAmong ((name, IgnoreFiles.ofDirectory (.directory es)) :: above) path es

/-- The files below the entries of a directory that has the path `path`. -/
def filesAmong (above : List (String × IgnoreFiles)) (path : String) :
    List (String × Entry) → List String
  | [] => []
  | (name, e) :: rest =>
    (if isLeftOut above name e then [] else filesBelow above (join path name) name e)
      ++ filesAmong above path rest

end

/-- The names of the directories that a path leads through, nearest first. -/
def namesAbove : List String → List String → List String
  | names, [] => names
  | names, part :: rest =>
    if part = "" ∨ part = "." then namesAbove names rest
    else if part = ".." then namesAbove names.tail rest
    else namesAbove (part :: names) rest

/-- The files below an entry that has the path `path`.  Its name and those of the directories above
it are in `names`, nearest first; the uppermost directory has none. -/
def walkFrom (path : String) (names : List String) (e : Entry) (above : List Entry) : List String :=
  let named := (names.drop 1 ++ [""]).zip (above.map IgnoreFiles.ofDirectory)
  filesBelow named path (names.headD "") e

def walk (tree : Entry) (path : String) : List String :=
  match tree.locate path with
  | .ok (e :: above) => walkFrom path (namesAbove [] (parts path)) e above
  | _ => []

end CodeIndex.Files
