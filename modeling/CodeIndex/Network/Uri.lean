import CodeIndex.Json.Writer

/-! Addresses: which texts are addresses, and how the part after the host is sent. -/

namespace CodeIndex.Network

/-- Why a text is no address. -/
inductive UriFault where
  | empty
  | tooLong
  | schemeTooLong
  | badCharacter
  | badAuthority
  | badFormat
  deriving DecidableEq, Repr

def UriFault.message : UriFault → String
  | empty => "empty string"
  | tooLong => "uri too long"
  | schemeTooLong => "scheme too long"
  | badCharacter => "invalid uri character"
  | badAuthority => "invalid authority"
  | badFormat => "invalid format"

namespace Uri

/-- A letter or a digit. -/
def isAlphanumeric (c : Char) : Bool := c.isAlphanum

def isSchemeChar (c : Char) : Bool := isAlphanumeric c || c == '+' || c == '-' || c == '.'

def isUriChar (c : Char) : Bool := isAlphanumeric c || "!#$&'()*+,-./:;=?@[]_~".toList.contains c

/-- The longest scheme. -/
def maxScheme : Nat := 64

/-- The longest address, in bytes. -/
def maxLength : Nat := 65534

/-- What follows a scheme and its two slashes, or nothing if the text starts with none. -/
def afterScheme (cs : List Char) : Except UriFault (Option (List Char)) :=
  let scheme := cs.takeWhile isSchemeChar
  match cs.dropWhile isSchemeChar with
  | ':' :: '/' :: '/' :: rest =>
    if cs.length ≤ 3 then .ok none
    else if scheme.length > maxScheme then .error .schemeTooLong
    else .ok (some rest)
  | _ => .ok none

/-- What was read of a host with what stands before and after it. -/
structure Authority where
  colons : Nat := 0
  opened : Bool := false
  closed : Bool := false
  percent : Bool := false
  endsWithAt : Bool := false

/-- The most colons. -/
def maxColons : Nat := 8

/-- Reads one character; an address in brackets and what stands before an at sign may hold colons
and percent signs. -/
def Authority.add (a : Authority) (c : Char) : Except UriFault Authority :=
  let a := { a with endsWithAt := false }
  if c = ':' then
    if a.colons ≥ maxColons then .error .badAuthority else .ok { a with colons := a.colons + 1 }
  else if c = '[' then
    if a.percent || a.opened then .error .badAuthority else .ok { a with opened := true }
  else if c = ']' then
    if !a.opened || a.closed then .error .badAuthority
    else .ok { a with closed := true, colons := 0, percent := false }
  else if c = '@' then .ok { a with colons := 0, percent := false, endsWithAt := true }
  else if c = '%' then .ok { a with percent := true }
  else if isUriChar c then .ok a
  else .error .badCharacter

/-- The end of a host. -/
def endsAuthority (c : Char) : Bool := c == '/' || c == '?' || c == '#'

/-- What follows the host. -/
def afterAuthority (cs : List Char) : Except UriFault (List Char) := do
  let a ← (cs.takeWhile (!endsAuthority ·)).foldlM Authority.add {}
  if a.opened != a.closed || a.colons > 1 || a.endsWithAt || a.percent then throw .badAuthority
  pure (cs.dropWhile (!endsAuthority ·))

/-- A character that may stand in a path as it is. -/
def isPathChar (c : Char) : Bool :=
  let n := c.toNat
  n == 0x21 || n == 0x22 || (0x24 ≤ n && n ≤ 0x3B) || n == 0x3D || (0x40 ≤ n && n ≤ 0x5F)
    || (0x61 ≤ n && n != 0x60)

/-- A character that may stand in a query as it is. -/
def isQueryChar (c : Char) : Bool :=
  let n := c.toNat
  n == 0x21 || (0x24 ≤ n && n ≤ 0x3B) || n == 0x3D || 0x3F ≤ n

/-- Checks a path with its query; what follows a number sign does not count. -/
def checkPath (cs : List Char) : Except UriFault Unit :=
  match cs.dropWhile (fun c => isPathChar c && c != '?') with
  | [] => .ok ()
  | '#' :: _ => .ok ()
  | '?' :: rest =>
    match rest.dropWhile isQueryChar with
    | [] => .ok ()
    | '#' :: _ => .ok ()
    | _ => .error .badCharacter
  | _ => .error .badCharacter

/-- Checks that a text is an address: a path alone, a host alone, or a scheme, a host and a path. -/
def check (text : String) : Except UriFault Unit := do
  if text.utf8ByteSize > maxLength then throw .tooLong
  match text.toList with
  | [] => throw .empty
  | ['/'] => pure ()
  | ['*'] => pure ()
  | '/' :: rest => checkPath ('/' :: rest)
  | cs =>
    match ← afterScheme cs with
    | some rest =>
      let path ← afterAuthority rest
      if path.length = rest.length then throw .badFormat
      checkPath path
    | none =>
      let rest ← afterAuthority cs
      if rest.isEmpty then pure ()
      else if cs.length = 1 then throw .badCharacter
      else throw .badFormat

/-- A byte as a percent sign and two digits. -/
def percent (b : UInt8) : List Char := '%' :: (Json.hexText 2 b.toNat).map Char.toUpper

/-- A character, or its bytes with percent signs where it may not stand as it is. -/
def encodeChar (mayStand : Char → Bool) (c : Char) : List Char :=
  if 0x20 ≤ c.toNat && c.toNat < 0x7F && mayStand c then [c]
  else (String.singleton c).toUTF8.toList.flatMap percent

def standsInPath (c : Char) : Bool := !" \"<>`#?^\x7b\x7d".toList.contains c

def standsInQuery (c : Char) : Bool := !" \"#<>'".toList.contains c

/-- A segment that stands for the same directory. -/
def isSame (segment : List Char) : Bool :=
  [".", "%2e"].contains (String.ofList (segment.map Char.toLower))

/-- A segment that stands for the directory above. -/
def isAbove (segment : List Char) : Bool :=
  ["..", ".%2e", "%2e.", "%2e%2e"].contains (String.ofList (segment.map Char.toLower))

/-- Segments without those that stand for directories; the last of them leaves an empty one. -/
def resolveSegments (done : List (List Char)) : List (List Char) → List (List Char)
  | [] => done
  | [s] =>
    if isSame s then done ++ [[]] else if isAbove s then done.dropLast ++ [[]] else done ++ [s]
  | s :: rest =>
    if isSame s then resolveSegments done rest
    else if isAbove s then resolveSegments done.dropLast rest
    else resolveSegments (done ++ [s]) rest

/-- What follows the host of an address; a backslash ends a host as well. -/
def afterHost (cs : List Char) : List Char :=
  match afterScheme cs with
  | .ok (some rest) => rest.dropWhile fun c => !endsAuthority c && c != '\\'
  | _ => cs

/-- The path and the query that are sent for an address. -/
def target (text : String) : String :=
  let cs := text.toList.filter fun c => c != '\t' && c != '\n' && c != '\r'
  let cs := (afterHost cs).takeWhile (· != '#')
  let path := cs.takeWhile (· != '?')
  let query := cs.dropWhile (· != '?')
  let path := path.map fun c => if c == '\\' then '/' else c
  let segments := resolveSegments [] ((path.drop 1).splitOn '/')
  String.ofList (segments.flatMap (fun s => '/' :: s.flatMap (encodeChar standsInPath))
    ++ query.take 1 ++ (query.drop 1).flatMap (encodeChar standsInQuery))

end Uri

end CodeIndex.Network
