import CodeIndex.Files.Glob
import CodeIndex.Files.Tree
import CodeIndex.Text.Blank

/-! Ignore files: lists of globs for the entries that a walk leaves out.  The last rule that fits an
entry decides; one that starts with an exclamation mark lets the entry in again. -/

namespace CodeIndex.Files

structure IgnoreRule where
  pattern : Pattern
  allows : Bool
  directoriesOnly : Bool
  deriving Repr

/-- What rules say of an entry. -/
inductive Verdict where
  | unknown
  | ignored
  | allowed
  deriving DecidableEq, Repr

/-- The first verdict that says something. -/
def Verdict.or (a b : Verdict) : Verdict := if a = .unknown then b else a

namespace IgnoreRule

/-- The exclamation mark in front, the slash in front, and the rest. -/
def splitMarks (line : List Char) : Bool × Bool × List Char :=
  match line with
  | '\\' :: '!' :: rest => (false, false, '!' :: rest)
  | '\\' :: '#' :: rest => (false, false, '#' :: rest)
  | '!' :: '/' :: rest => (true, true, rest)
  | '!' :: rest => (true, false, rest)
  | '/' :: rest => (false, true, rest)
  | rest => (false, false, rest)

/-- Whether a slash stands at the end, and what is before it. -/
def splitDirectory (glob : List Char) : Bool × List Char :=
  match glob.reverse with
  | '/' :: '\\' :: rest => (true, rest.reverse)
  | '/' :: rest => (true, rest.reverse)
  | _ => (false, glob)

/-- A glob without slash fits in every directory, and one that ends with two stars fits all below a
directory, but not the directory itself. -/
def completeGlob (anchored : Bool) (glob : List Char) : List Char :=
  let anywhere := !anchored && !glob.contains '/'
    && !"**/".toList.isPrefixOf glob && glob != "**".toList
  let glob := if anywhere then "**/".toList ++ glob else glob
  if "/**".toList.isSuffixOf glob then glob ++ "/*".toList else glob

/-- The rule of a line; blank lines, comments and faulty globs are none. -/
def ofLine? (line : List Char) : Option IgnoreRule :=
  if line.head? == some '#' then none
  else
    let line := if "\\ ".toList.isSuffixOf line then line else Text.trimEnd line
    if line.isEmpty then none
    else
      let (allows, anchored, glob) := splitMarks line
      let (directoriesOnly, glob) := splitDirectory glob
      (Glob.pattern? (completeGlob anchored glob)).map (⟨·, allows, directoriesOnly⟩)

/-- The verdict of rules on an entry, by its path below the directory of the ignore file. -/
def verdict (rules : List IgnoreRule) (path : String) (isDirectory : Bool) : Verdict :=
  let bytes := path.toUTF8.toList
  match rules.reverse.find? fun r =>
      (!r.directoriesOnly || isDirectory) && r.pattern.matches_ bytes with
  | some r => if r.allows then .allowed else .ignored
  | none => .unknown

end IgnoreRule

/-- A line without the carriage return at its end. -/
def dropReturn (line : List Char) : List Char :=
  if line.getLast? == some '\r' then line.dropLast else line

def ignoreRules (text : String) : List IgnoreRule :=
  let cs := match text.toList with
    | '\uFEFF' :: rest => rest
    | cs => cs
  ((cs.splitOn '\n').map dropReturn).filterMap IgnoreRule.ofLine?

/-- The rules of a file, if there is such a file with a text. -/
def rulesAt (directory : Entry) (path : String) : List IgnoreRule :=
  match directory.readText path with
  | .ok text => ignoreRules text
  | .error _ => []

/-- The ignore files of a directory.  Those of a repository count only below its root. -/
structure IgnoreFiles where
  general : List IgnoreRule
  versioned : List IgnoreRule
  excluded : List IgnoreRule
  isRepository : Bool

def IgnoreFiles.ofDirectory (directory : Entry) : IgnoreFiles where
  general := rulesAt directory ".ignore"
  versioned := rulesAt directory ".gitignore"
  excluded := rulesAt directory ".git/info/exclude"
  isRepository := directory.contains ".git"

/-- The verdicts on an entry so far, on the way from its directory upwards. -/
structure Verdicts where
  general : Verdict := .unknown
  versioned : Verdict := .unknown
  excluded : Verdict := .unknown
  /-- The root of the repository was passed. -/
  passedRoot : Bool := false

/-- Takes in the ignore files of one more directory. -/
def Verdicts.add (v : Verdicts) (inRepository : Bool) (files : IgnoreFiles) (path : String)
    (isDirectory : Bool) : Verdicts :=
  let counts := inRepository && !v.passedRoot
  let versioned := if counts then IgnoreRule.verdict files.versioned path isDirectory else .unknown
  let excluded := if counts then IgnoreRule.verdict files.excluded path isDirectory else .unknown
  { general := v.general.or (IgnoreRule.verdict files.general path isDirectory)
    versioned := v.versioned.or versioned
    excluded := v.excluded.or excluded
    passedRoot := v.passedRoot || files.isRepository }

/-- The verdict on an entry of a directory.  `above` holds the directories from the nearest upwards,
each with the name that it has in the next one. -/
def verdictAt (above : List (String × IgnoreFiles)) (name : String) (isDirectory : Bool) :
    Verdict :=
  let inRepository := above.any (·.2.isRepository)
  let step (s : String × Verdicts) (d : String × IgnoreFiles) : String × Verdicts :=
    (join d.1 s.1, s.2.add inRepository d.2 s.1 isDirectory)
  let v := (above.foldl step (name, {})).2
  v.general.or (v.versioned.or v.excluded)

end CodeIndex.Files
