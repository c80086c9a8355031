/-! The far side of a connection, as what it replies to one request after the other. -/

namespace CodeIndex.Network

/-- A far side that cannot be reached, or one that gives its replies in order and the same reply to
all requests after them. -/
inductive Peer (α : Type) where
  | unreachable
  | replying (replies : List α) (last : α)
  deriving Repr

/-- The reply to the next request, if there is one, and the far side after it. -/
def Peer.reply {α : Type} : Peer α → Option α × Peer α
  | unreachable => (none, unreachable)
  | replying [] last => (some last, replying [] last)
  | replying (r :: rest) last => (some r, replying rest last)

/-- The replies that are left before the last one. -/
def Peer.remaining {α : Type} : Peer α → Nat
  | unreachable => 0
  | replying replies _ => replies.length

end CodeIndex.Network
