import CodeIndex.Json.Writer

/-! Identifiers of records: 16 bytes as hexadecimal digits in five groups.  Two of the digits tell
that the others are random. -/

namespace CodeIndex.Index

def identifierBytes : Nat := 16

/-- Marks bytes as random: the upper half of the seventh byte is 4, and the two uppermost bits of
the ninth are 1 and 0. -/
def markRandom (bytes : List UInt8) : List UInt8 :=
  (bytes.modify 6 fun b => b &&& 0x0f ||| 0x40).modify 8 fun b => b &&& 0x3f ||| 0x80

def identifierText (bytes : List UInt8) : String :=
  let text (part : List UInt8) : List Char := part.flatMap fun b => Json.hexText 2 b.toNat
  let group (start size : Nat) : List Char := '-' :: text ((bytes.drop start).take size)
  String.ofList (text (bytes.take 4) ++ group 4 2 ++ group 6 2 ++ group 8 2 ++ group 10 6)

def randomIdentifier (bytes : List UInt8) : String := identifierText (markRandom bytes)

end CodeIndex.Index
