import CodeIndex.Text.PrintTable
import CodeIndex.Text.Ranges

/-! Quoted text in messages: quotes and backslashes are escaped, and characters that cannot be seen
are written as their code points. -/

namespace CodeIndex.Text

/-- The hexadecimal digits of a number, in lower case. -/
def hexDigits (n : Nat) : List Char := Nat.toDigits 16 n

/-- A character shows on its own: a space, or one that is printable and extends no other. -/
def isVisible (c : Char) : Bool :=
  c == ' ' || (!inRanges unprintableRanges c && !inRanges graphemeExtendRanges c)

def quotedChar (c : Char) : List Char :=
  match c with
  | '\x00' => ['\\', '0']
  | '\t' => ['\\', 't']
  | '\r' => ['\\', 'r']
  | '\n' => ['\\', 'n']
  | '"' => ['\\', '"']
  | '\\' => ['\\', '\\']
  | c => if isVisible c then [c] else '\\' :: 'u' :: '\x7b' :: hexDigits c.toNat ++ ['\x7d']

def quoted (s : String) : String :=
  "\"" ++ String.ofList (s.toList.flatMap quotedChar) ++ "\""

end CodeIndex.Text
