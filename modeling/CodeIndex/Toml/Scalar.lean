import CodeIndex.Toml.Value

/-! Values without quotes and brackets: truth values, integers, floats, dates and times. -/

namespace CodeIndex.Toml

/-- Digits of a base, with single underscores between them. -/
def isNumeral (digit : Char → Bool) : List Char → Bool
  | [] => false
  | [c] => digit c
  | c :: '_' :: rest => digit c && isNumeral digit rest
  | c :: rest => digit c && isNumeral digit rest

def isOctal (c : Char) : Bool := '0' ≤ c && c ≤ '7'

def isBinary (c : Char) : Bool := c == '0' || c == '1'

def isHexadecimal (c : Char) : Bool :=
  c.isDigit || ('a' ≤ c && c ≤ 'f') || ('A' ≤ c && c ≤ 'F')

/-- The value of a digit of any base up to sixteen. -/
def digitValue (c : Char) : Nat :=
  if c.isDigit then c.toNat - 48 else if 'a' ≤ c then c.toNat - 87 else c.toNat - 55

/-- The number that the digits stand for; underscores do not count. -/
def numeralValue (base : Nat) (cs : List Char) : Nat :=
  (cs.filter (· != '_')).foldl (fun n c => n * base + digitValue c) 0

/-- The sign in front, and the rest. -/
def splitSign : List Char → Bool × List Char
  | '-' :: cs => (true, cs)
  | '+' :: cs => (false, cs)
  | cs => (false, cs)

/-- A decimal number without sign; it has a leading zero only if it is zero. -/
def isDecimal (cs : List Char) : Bool :=
  isNumeral Char.isDigit cs && (cs.length == 1 || cs.head? != some '0')

def integer? (cs : List Char) : Option Int :=
  match cs with
  | '0' :: 'x' :: ds => if isNumeral isHexadecimal ds then some (numeralValue 16 ds) else none
  | '0' :: 'o' :: ds => if isNumeral isOctal ds then some (numeralValue 8 ds) else none
  | '0' :: 'b' :: ds => if isNumeral isBinary ds then some (numeralValue 2 ds) else none
  | cs =>
    let (negative, ds) := splitSign cs
    if isDecimal ds then
      let n : Int := numeralValue 10 ds
      some (if negative then -n else n)
    else none

/-- The parts of a text before and after the first character of a class. -/
def splitAtFirst (p : Char → Bool) (cs : List Char) : List Char × Option (List Char) :=
  match cs.dropWhile (!p ·) with
  | [] => (cs, none)
  | _ :: rest => (cs.takeWhile (!p ·), some rest)

/-- A float: a decimal number with a fraction, an exponent or both; or infinity, or not a number. -/
def isFloat (cs : List Char) : Bool :=
  let unsigned := (splitSign cs).2
  if unsigned = "inf".toList ∨ unsigned = "nan".toList then true
  else
    let (mantissa, exponent) := splitAtFirst (fun c => c == 'e' || c == 'E') unsigned
    let (whole, fraction) := splitAtFirst (· == '.') mantissa
    isDecimal whole && (fraction.isSome || exponent.isSome)
      && fraction.all (isNumeral Char.isDigit)
      && exponent.all fun e => isNumeral Char.isDigit (splitSign e).2

/-- A number of exactly `count` digits, and the rest. -/
def takeDigits? (count : Nat) (cs : List Char) : Option (Nat × List Char) :=
  let ds := cs.take count
  if ds.length = count ∧ ds.all Char.isDigit then some (numeralValue 10 ds, cs.drop count) else none

def takeChar? (p : Char → Bool) : List Char → Option (List Char)
  | c :: rest => if p c then some rest else none
  | [] => none

def isLeap (year : Nat) : Bool := year % 4 == 0 && (year % 100 != 0 || year % 400 == 0)

def daysIn (year month : Nat) : Nat :=
  if month = 2 then (if isLeap year then 29 else 28)
  else if month ∈ [4, 6, 9, 11] then 30 else 31

def takeDate? (cs : List Char) : Option (List Char) := do
  let (year, cs) ← takeDigits? 4 cs
  let cs ← takeChar? (· == '-') cs
  let (month, cs) ← takeDigits? 2 cs
  let cs ← takeChar? (· == '-') cs
  let (day, cs) ← takeDigits? 2 cs
  if 1 ≤ month ∧ month ≤ 12 ∧ 1 ≤ day ∧ day ≤ daysIn year month then some cs else none

/-- Takes the seconds of a time, which may be missing, with their fraction. -/
def takeSeconds? (cs : List Char) : Option (List Char) :=
  match cs with
  | ':' :: cs => do
    let (seconds, cs) ← takeDigits? 2 cs
    if seconds ≤ 60 then
      match cs with
      | '.' :: cs =>
        if cs.head?.any Char.isDigit then some (cs.dropWhile Char.isDigit) else none
      | cs => some cs
    else none
  | cs => some cs

def takeHoursMinutes? (cs : List Char) : Option (List Char) := do
  let (hours, cs) ← takeDigits? 2 cs
  let cs ← takeChar? (· == ':') cs
  let (minutes, cs) ← takeDigits? 2 cs
  if hours ≤ 23 ∧ minutes ≤ 59 then some cs else none

def takeTime? (cs : List Char) : Option (List Char) := (takeHoursMinutes? cs).bind takeSeconds?

/-- The distance from universal time, which may be missing. -/
def isOffset (cs : List Char) : Bool :=
  match cs with
  | [] => true
  | c :: rest =>
    if c == 'Z' || c == 'z' then rest.isEmpty
    else (c == '+' || c == '-') && takeHoursMinutes? rest == some []

/-- The character between a date and a time. -/
def isDateSeparator (c : Char) : Bool := c == 'T' || c == 't' || c == ' '

def isDateTime (cs : List Char) : Bool :=
  match takeDate? cs with
  | some [] => true
  | some (c :: rest) => isDateSeparator c && (takeTime? rest).any isOffset
  | none => takeTime? cs == some []

/-- The value of a text without quotes and brackets. -/
def scalar? (cs : List Char) : Option Value :=
  if cs = "true".toList then some (.boolean true)
  else if cs = "false".toList then some (.boolean false)
  else match integer? cs with
    | some n => some (.integer n)
    | none =>
      if isFloat cs then some (.float (String.ofList cs))
      else if isDateTime cs then some (.dateTime (String.ofList cs))
      else none

end CodeIndex.Toml
