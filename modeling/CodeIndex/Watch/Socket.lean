/-! The connection to a notification server, as the messages that come over it.  Only texts are
taken up. -/

namespace CodeIndex.Watch

/-- A message; what is no text says nothing. -/
inductive Message where
  | text (s : String)
  | other
  deriving DecidableEq, Repr

/-- The texts among messages. -/
def texts (ms : List Message) : List String :=
  ms.filterMap fun
    | .text s => some s
    | .other => none

/-- What comes of an attempt to connect: nothing, or messages, after which the server closes the
connection or the connection breaks off. -/
inductive Contact where
  | none
  | opened (messages : List Message) (closed : Bool)
  deriving DecidableEq, Repr

/-- The texts of a connection, and whether an error follows them. -/
def Contact.frames? : Contact → Option (List String × Bool)
  | none => Option.none
  | opened messages closed => some (texts messages, !closed)

end CodeIndex.Watch
