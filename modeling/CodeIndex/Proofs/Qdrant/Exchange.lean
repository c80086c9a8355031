import CodeIndex.Qdrant.Client

/-! Exchanges with a vector server.  A request that reaches the server is kept and takes the next
reply; one exchange goes on from the connection that the exchange before it has left. -/

namespace CodeIndex.Network

variable {α : Type} {peer after : Peer α} {replies : List α}

/-- A far side gives these replies to as many requests, one after the other, and is left as
`after`. -/
inductive Peer.Gives : Peer α → List α → Peer α → Prop
  | nil (peer : Peer α) : Gives peer [] peer
  | cons {peer next after : Peer α} {reply : α} {rest : List α}
      (h : peer.reply = (some reply, next)) (hrest : Gives next rest after) :
      Gives peer (reply :: rest) after

/-- A far side without further replies repeats its last one. -/
theorem Peer.Gives.eq_last {last : α} (h : Gives (.replying [] last) replies after) :
    ∀ reply ∈ replies, reply = last := by
  induction replies with
  | nil => exact fun _ hmem => absurd hmem List.not_mem_nil
  | cons head rest ih =>
    cases h with
    | cons hreply hrest =>
      cases hreply
      intro reply hmem
      rcases List.mem_cons.1 hmem with rfl | hmem
      · rfl
      · exact ih hrest reply hmem

end CodeIndex.Network

namespace CodeIndex.Qdrant

open Network (Peer)
open Store (StoreError)

/-- What comes of an exchange on a connection. -/
def Exchange.on {α : Type} (x : Exchange α) (c : Connection) : Except StoreError α × Connection :=
  x.run c

variable {α β : Type} {c : Connection}

@[simp] theorem on_pure (a : α) : Exchange.on (pure a) c = (.ok a, c) := rfl

@[simp] theorem on_throw (e : StoreError) :
    Exchange.on (throw e : Exchange α) c = (.error e, c) := rfl

@[simp] theorem on_get : Exchange.on get c = (.ok c, c) := rfl

@[simp] theorem on_set (d : Connection) : Exchange.on (set d) c = (.ok (), d) := rfl

@[simp] theorem on_bind (x : Exchange α) (f : α → Exchange β) :
    Exchange.on (x >>= f) c =
      match Exchange.on x c with
      | (.ok a, after) => Exchange.on (f a) after
      | (.error e, after) => (.error e, after) := by
  have hbind : Exchange.on (x >>= f) c =
      ExceptT.bindCont f (Exchange.on x c).1 (Exchange.on x c).2 := rfl
  rw [hbind]
  obtain ⟨outcome, after⟩ := Exchange.on x c
  cases outcome <;> rfl

@[simp] theorem on_map (f : α → β) (x : Exchange α) :
    Exchange.on (f <$> x) c =
      match Exchange.on x c with
      | (.ok a, after) => (.ok (f a), after)
      | (.error e, after) => (.error e, after) := by
  rw [map_eq_pure_bind, on_bind]
  rfl

section

variable {peer after : Peer Reply} {sent : List Request} {reply : Reply} (r : Request)

theorem on_ask_ok (h : peer.reply = (some reply, after)) (hok : reply.failure = none) :
    Exchange.on (ask r) ⟨peer, sent⟩ = (.ok reply, ⟨after, sent ++ [r]⟩) := by
  simp [ask, h, hok]

theorem on_ask_error {text : String} (h : peer.reply = (some reply, after))
    (hfailure : reply.failure = some text) :
    Exchange.on (ask r) ⟨peer, sent⟩ = (.error (responseFault text), ⟨after, sent ++ [r]⟩) := by
  simp [ask, h, hfailure]

theorem on_ask_unreachable (sent : List Request) :
    ∃ text, Exchange.on (ask r) ⟨.unreachable, sent⟩ =
      (.error (responseFault text), ⟨.unreachable, sent⟩) :=
  ⟨_, rfl⟩

/-- Whatever the reply, the request has reached the far side. -/
theorem sent_on_tell (h : peer.reply = (some reply, after)) :
    (Exchange.on (tell r) ⟨peer, sent⟩).2 = ⟨after, sent ++ [r]⟩ := by
  cases hfailure : reply.failure with
  | none => simp [tell, on_ask_ok r h hfailure]
  | some text => simp [tell, on_ask_error r h hfailure]

end

end CodeIndex.Qdrant
