import CodeIndex.Proofs.Qdrant.Filtering
import CodeIndex.Proofs.Store.Memory

/-! Calls with nothing to work on: a batch without records, a list without identifiers, a filter
without conditions.  The client of a vector server answers them on its own, and no other call gets
by without a request.  The store in memory answers them in the same way, with the exception of an
empty batch for a collection that is missing. -/

namespace CodeIndex.Store

/-- A call has nothing to work on, and this is the answer to it. -/
inductive Call.Idle : (call : Call) → call.Answer → Prop
  | upsert (name : String) : Idle (.upsert name []) (.ok ())
  | deleteIds (name : String) : Idle (.deleteIds name []) (.ok ())
  | find (name : String) {f : Filter} (hf : f.conditions = []) :
      Idle (.find name f) (.error .emptyFilter)

namespace Memory

variable {m : Memory} {name : String}

theorem perform_upsert_nil (m : Memory) (name : String) :
    m.perform (.upsert name []) =
      (if m.contains name then .ok () else .error (.collectionNotFound name), m) := by
  cases hc : m.collections.get? name with
  | none =>
    have habsent : m.contains name = false := by rw [contains, Catalog.contains, hc]; rfl
    rw [perform, upsert, collection, hc, habsent]
    rfl
  | some c =>
    rw [perform_upsert hc, contains_eq_true_iff.2 ⟨c, hc⟩]
    exact congrArg (Prod.mk _) (set_of_get?_eq hc)

theorem perform_find_of_nil (m : Memory) (name : String) {f : Filter} (hf : f.conditions = []) :
    m.perform (.find name f) = (.error .emptyFilter, m) := by
  rw [perform, find, Filter.requiredConditions_of_nil hf]
  rfl

end Memory

end CodeIndex.Store

namespace CodeIndex.Qdrant

open Network (Peer)
open Store (Call Condition Filter Memory)
open Client (pages)

/-! ### Requests -/

/-- An exchange takes no request back. -/
def Exchange.Keeps {α : Type} (x : Exchange α) : Prop :=
  ∀ link, link.sent <+: (x.on link).2.sent

/-- An exchange with a far side that can be reached makes a request. -/
def Exchange.Asks {α : Type} (x : Exchange α) : Prop :=
  ∀ link, link.peer ≠ .unreachable → ∃ r, link.sent ++ [r] <+: (x.on link).2.sent

section

variable {α β : Type} {x : Exchange α} {f : α → Exchange β}

theorem keeps_pure (a : α) : Exchange.Keeps (pure a) := fun _ => List.prefix_rfl

theorem Exchange.Keeps.bind (hx : x.Keeps) (hf : ∀ a, (f a).Keeps) : (x >>= f).Keeps := by
  intro link
  have hfirst := hx link
  rw [on_bind]
  generalize x.on link = outcome at hfirst ⊢
  obtain ⟨found, after⟩ := outcome
  cases found with
  | error e => exact hfirst
  | ok a => exact hfirst.trans (hf a after)

theorem Exchange.Asks.bind (hx : x.Asks) (hf : ∀ a, (f a).Keeps) : (x >>= f).Asks := by
  intro link hpeer
  obtain ⟨r, hfirst⟩ := hx link hpeer
  refine ⟨r, ?_⟩
  rw [on_bind]
  generalize x.on link = outcome at hfirst ⊢
  obtain ⟨found, after⟩ := outcome
  cases found with
  | error e => exact hfirst
  | ok a => exact hfirst.trans (hf a after)

theorem keeps_ask (r : Request) : (ask r).Keeps := by
  rintro ⟨peer, sent⟩
  cases hreply : peer.reply with
  | mk reply after =>
    cases reply with
    | none => simp [ask, hreply]
    | some reply =>
      cases hfailure : reply.failure with
      | none => simp [on_ask_ok r hreply hfailure]
      | some text => simp [on_ask_error r hreply hfailure]

theorem asks_ask (r : Request) : (ask r).Asks := by
  rintro ⟨peer, sent⟩ hpeer
  refine ⟨r, ?_⟩
  cases peer with
  | unreachable => exact absurd rfl hpeer
  | replying replies last =>
    obtain ⟨reply, after, hreply⟩ : ∃ reply after,
        (Peer.replying replies last).reply = (some reply, after) := by
      cases replies <;> exact ⟨_, _, rfl⟩
    cases hfailure : reply.failure with
    | none => simp [on_ask_ok r hreply hfailure]
    | some text => simp [on_ask_error r hreply hfailure]

theorem asks_tell (r : Request) : (tell r).Asks := (asks_ask r).bind fun _ => keeps_pure ()

end

theorem keeps_pages (collection : String) (conditions : List Condition) (count : Nat)
    (offset : Option (Option PointId)) : (pages collection conditions count offset).Keeps := by
  induction count generalizing offset with
  | zero => exact keeps_pure []
  | succ count ih =>
    rw [pages]
    refine (keeps_ask _).bind fun reply => ?_
    dsimp only
    cases reply.next with
    | none => exact keeps_pure _
    | some next => exact (ih (some next)).bind fun _ => keeps_pure _

theorem asks_pages (collection : String) (conditions : List Condition) (count : Nat)
    (offset : Option (Option PointId)) : (pages collection conditions (count + 1) offset).Asks := by
  rw [pages]
  refine (asks_ask _).bind fun reply => ?_
  dsimp only
  cases reply.next with
  | none => exact keeps_pure _
  | some next => exact (keeps_pages _ _ count (some next)).bind fun _ => keeps_pure _

theorem asks_find (client : Client) (name : String) {f : Filter} (hf : f.conditions ≠ []) :
    (client.find name f).Asks := by
  rintro link hpeer
  rw [Client.find, Filter.requiredConditions_eq hf]
  exact asks_pages name f.conditions link.peer.remaining none link hpeer

theorem asks_query (client : Client) (name : String) (v : Store.HybridVector)
    (o : Store.QueryOptions) : (client.query name v o).Asks := by
  rw [Client.query]
  refine (asks_ask _).bind fun reply link => ?_
  rewrite [on_mapM_liftExcept]
  exact List.prefix_rfl

/-- A call is answered without a request only if it has nothing to work on. -/
theorem asks_of_not_idle (client : Client) {call : Call} (h : ∀ answer, ¬ call.Idle answer) :
    (client.perform call).Asks := by
  cases call with
  | contains name => exact (asks_ask _).bind fun _ => keeps_pure _
  | create name => exact asks_tell _
  | createIndex name field => exact asks_tell _
  | delete name => exact asks_tell _
  | query name v o => exact (asks_query client name v o).bind fun _ => keeps_pure _
  | find name f =>
    refine asks_find client name fun hf => ?_
    exact h _ (.find name hf)
  | upsert name rs =>
    cases rs with
    | nil => exact absurd (.upsert name) (h (.ok ()))
    | cons r rest => exact asks_tell _
  | deleteIds name ids =>
    cases ids with
    | nil => exact absurd (.deleteIds name) (h (.ok ()))
    | cons id rest => exact asks_tell _

/-! ### The two stores -/

theorem on_perform_of_idle (client : Client) (link : Connection) {call : Call}
    {answer : call.Answer} (h : call.Idle answer) :
    (client.perform call).on link = (answer, link) := by
  cases h with
  | upsert name => rfl
  | deleteIds name => rfl
  | find name hf =>
    rw [Client.perform, Client.find, Filter.requiredConditions_of_nil hf]
    rfl

theorem perform_of_idle_iff (m : Memory) {call : Call} {answer : call.Answer}
    (h : call.Idle answer) :
    (m.perform call).1 = answer ↔ ∀ name, call = .upsert name [] → m.contains name = true := by
  cases h with
  | upsert name =>
    rw [Memory.perform_upsert_nil]
    cases hcontains : m.contains name with
    | true =>
      refine iff_of_true rfl fun other hother => ?_
      cases hother
      exact hcontains
    | false =>
      refine iff_of_false (fun hsame => nomatch hsame) fun hall => ?_
      exact absurd (hcontains.symm.trans (hall name rfl)) Bool.false_ne_true
  | deleteIds name => exact iff_of_true rfl nofun
  | find name hf => exact iff_of_true (congrArg Prod.fst (m.perform_find_of_nil name hf)) nofun

theorem perform_of_idle_state (m : Memory) {call : Call} {answer : call.Answer}
    (h : call.Idle answer) : (m.perform call).2 = m := by
  cases h with
  | upsert name => rw [Memory.perform_upsert_nil]
  | deleteIds name => rfl
  | find name hf => rw [Memory.perform_find_of_nil m name hf]

/-- A call with nothing to work on is answered by the client of a vector server without a request,
on any connection, and no other call is.  The store in memory stays as it is and gives the same
answer, whether there is a collection of that name or not; only an empty batch for a missing
collection is refused there. -/
theorem idle_calls_agree_iff (client : Client) (link : Connection) (m : Memory) :
    (∀ (call : Call) (answer : call.Answer), call.Idle answer →
      (client.perform call).on link = (answer, link) ∧ (m.perform call).2 = m ∧
      ((m.perform call).1 = answer ↔ ∀ name, call = .upsert name [] → m.contains name = true)) ∧
    (∀ name, m.contains name = false →
      (m.perform (.upsert name [])).1 = .error (.collectionNotFound name)) ∧
    ∀ call : Call, (∀ answer, ¬ call.Idle answer) → link.peer ≠ .unreachable →
      ∃ r, link.sent ++ [r] <+: ((client.perform call).on link).2.sent := by
  refine ⟨fun call answer h => ⟨on_perform_of_idle client link h, perform_of_idle_state m h,
    perform_of_idle_iff m h⟩, fun name hmissing => ?_,
    fun call h hpeer => asks_of_not_idle client h link hpeer⟩
  rw [Memory.perform_upsert_nil, hmissing]
  rfl

/-- Nothing is found without a condition, and nothing is asked of the server, although the
collection is missing; a condition is sent. -/
theorem idle_calls_agree_iff_missing :
    (Memory.empty 2).perform (.find "code" {}) = (.error .emptyFilter, .empty 2) ∧
    (Client.perform ⟨2⟩ (.find "code" {})).on ⟨.replying [] {}, []⟩ =
      (.error .emptyFilter, ⟨.replying [] {}, []⟩) ∧
    ∃ r, [r] <+: ((Client.perform ⟨2⟩ (.find "code" (.forFile "a.js"))).on
      ⟨.replying [] {}, []⟩).2.sent := by
  obtain ⟨hidle, -, hasks⟩ := idle_calls_agree_iff ⟨2⟩ ⟨.replying [] {}, []⟩ (Memory.empty 2)
  obtain ⟨hserver, hstate, hanswer⟩ := hidle (.find "code" {}) _ (.find "code" rfl)
  refine ⟨Prod.ext (hanswer.2 nofun) hstate, hserver, ?_⟩
  refine hasks (.find "code" (.forFile "a.js")) (fun answer h => ?_) nofun
  cases h with
  | find name hf => cases hf

/-- The two stores differ in an empty batch for a missing collection: it is refused in memory, and
taken for done without a request by the client of a server. -/
theorem idle_calls_disagree_emptyBatch :
    Call.Idle (.upsert "code" []) (.ok ()) ∧
    ((Memory.empty 2).perform (.upsert "code" [])).1 = .error (.collectionNotFound "code") ∧
    (Client.perform ⟨2⟩ (.upsert "code" [])).on ⟨.replying [] {}, []⟩ =
      (.ok (), ⟨.replying [] {}, []⟩) :=
  ⟨.upsert "code", rfl, rfl⟩

end CodeIndex.Qdrant
