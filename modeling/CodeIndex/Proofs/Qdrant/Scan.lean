import CodeIndex.Proofs.Qdrant.Exchange
import CodeIndex.Proofs.Store.Memory

/-! The search for names page by page on a vector server.  Each request names the start that the
reply before it gave, up to the first reply that fails or names no further start, and what is found
is what the pages hold, one after the other.  A server that gives its pages as a collection in memory
does is searched with the same result. -/

namespace CodeIndex.Qdrant

open Network (Peer)
open Store (Collection Condition Filter Memory StoreError)
open Client (idTexts pageRequest pages)

/-- A reply after which no page is asked for: a failure, or the last page. -/
def Reply.Ends (reply : Reply) : Prop := reply.failure ≠ none ∨ reply.next = none

/-- The replies to a search: only the last one ends it. -/
inductive Scan : List Reply → Prop
  | last {reply : Reply} (h : reply.Ends) : Scan [reply]
  | more {reply : Reply} {next : Option PointId} {rest : List Reply} (hok : reply.failure = none)
      (hnext : reply.next = some next) (hrest : Scan rest) : Scan (reply :: rest)

/-- The requests of a search that got these replies.  The first one asks for the page at `offset`,
and each later one for the page that the reply before it names. -/
def scanRequests (collection : String) (conditions : List Condition) :
    Option (Option PointId) → List Reply → List Request
  | _, [] => []
  | offset, reply :: rest =>
    pageRequest collection conditions offset :: scanRequests collection conditions reply.next rest

theorem eq_scroll_of_mem_scanRequests {collection : String} {conditions : List Condition}
    {offset : Option (Option PointId)} {replies : List Reply} {r : Request}
    (h : r ∈ scanRequests collection conditions offset replies) :
    ∃ start, r = .scroll collection conditions start 100 false false := by
  induction replies generalizing offset with
  | nil => exact absurd h List.not_mem_nil
  | cons reply rest ih =>
    rcases List.mem_cons.1 h with rfl | h
    · exact ⟨offset, rfl⟩
    · exact ih h

/-- What a search finds that got these replies: what the first failure says, or the names that have
a value on all pages, in their order. -/
def scanned (replies : List Reply) : Except StoreError (List String) :=
  match replies.findSome? Reply.failure with
  | some text => .error (responseFault text)
  | none => .ok (replies.flatMap fun reply => idTexts reply.ids)

theorem scanned_cons {reply : Reply} {rest : List Reply} (hok : reply.failure = none) :
    scanned (reply :: rest) = (idTexts reply.ids ++ ·) <$> scanned rest := by
  rw [scanned, scanned, List.findSome?_cons, hok]
  cases rest.findSome? Reply.failure <;> rfl

section

variable {collection : String} {conditions : List Condition} {peer after : Peer Reply}
  {replies : List Reply} {sent : List Request}

theorem Scan.exists_ends (h : Scan replies) : ∃ reply ∈ replies, reply.Ends := by
  induction h with
  | last hends => exact ⟨_, List.mem_cons_self, hends⟩
  | more _ _ _ ih =>
    obtain ⟨reply, hmem, hends⟩ := ih
    exact ⟨reply, List.mem_cons_of_mem _ hmem, hends⟩

theorem Reply.not_ends {reply : Reply} {next : Option PointId} (hok : reply.failure = none)
    (hnext : reply.next = some next) : ¬ reply.Ends := by
  simp [Reply.Ends, hok, hnext]

/-- A far side that ends a search does so at the latest with its last reply. -/
theorem Scan.length_le (h : Scan replies) (hgives : peer.Gives replies after) :
    replies.length ≤ peer.remaining + 1 := by
  induction h generalizing peer with
  | last _ => simp
  | @more reply next rest hok hnext hrest ih =>
    cases hgives with
    | cons hreply hgives =>
      cases peer with
      | unreachable => cases hreply
      | replying queue last =>
        cases queue with
        | nil =>
          -- the last reply does not end the search, and no other reply follows
          cases hreply
          obtain ⟨final, hmem, hends⟩ := hrest.exists_ends
          rw [hgives.eq_last final hmem] at hends
          exact absurd hends (Reply.not_ends hok hnext)
        | cons head queue =>
          cases hreply
          have hrestlength := ih hgives
          simp only [Peer.remaining, List.length_cons] at hrestlength ⊢
          omega

/-- A search with pages enough asks for one page after the other until a reply ends it. -/
theorem on_pages (h : Scan replies) (hgives : peer.Gives replies after) {count : Nat}
    (hcount : replies.length ≤ count) (offset : Option (Option PointId)) :
    (pages collection conditions count offset).on ⟨peer, sent⟩ =
      (scanned replies, ⟨after, sent ++ scanRequests collection conditions offset replies⟩) := by
  induction h generalizing peer sent count offset with
  | @last reply hends =>
    cases count with
    | zero => simp at hcount
    | succ count =>
      cases hgives with
      | cons hreply hnone =>
        cases hnone
        cases hfailure : reply.failure with
        | some text =>
          simp [pages, on_ask_error _ hreply hfailure, scanned, hfailure, scanRequests]
        | none =>
          have hnext : reply.next = none := hends.resolve_left (· hfailure)
          simp [pages, on_ask_ok _ hreply hfailure, scanned, hfailure, scanRequests, hnext]
  | @more reply next rest hok hnext hrest ih =>
    cases count with
    | zero => simp at hcount
    | succ count =>
      cases hgives with
      | cons hreply hgives =>
        have hlength : rest.length ≤ count := by simpa using hcount
        rw [scanned_cons hok, scanRequests, hnext]
        simp only [pages, on_bind, on_ask_ok _ hreply hok, hnext, ih hgives hlength (some next),
          List.append_assoc, List.cons_append, List.nil_append]
        cases scanned rest <;> rfl

end

section

variable {client : Client} {name : String} {f : Filter} (hf : f.conditions ≠ [])
include hf

theorem on_find {replies : List Reply} (h : Scan replies) {peer after : Peer Reply}
    (hgives : peer.Gives replies after) (sent : List Request) :
    (client.find name f).on ⟨peer, sent⟩ =
      (scanned replies, ⟨after, sent ++ scanRequests name f.conditions none replies⟩) := by
  rw [Client.find, Filter.requiredConditions_eq hf]
  exact on_pages h hgives (h.length_le hgives) none

theorem on_find_unreachable (sent : List Request) :
    ∃ text, (client.find name f).on ⟨.unreachable, sent⟩ =
      (.error (responseFault text), ⟨.unreachable, sent⟩) := by
  rw [Client.find, Filter.requiredConditions_eq hf]
  obtain ⟨text, htext⟩ := on_ask_unreachable (pageRequest name f.conditions none) sent
  refine ⟨text, ?_⟩
  show (pages name f.conditions 1 none).on ⟨.unreachable, sent⟩ = _
  simp [pages, htext]

end

/-! ### A server that holds a collection -/

/-- The name of the point that a record is stored as. -/
def namedPoint (id : String) : Option PointId := some (.uuid id)

/-- The page of a collection in memory as a reply. -/
def pageReply (c : Collection) (f : Filter) (start : Option String) : Reply where
  ids := (c.page f Collection.pageSize start).1.map fun id => some (namedPoint id)
  next := (c.page f Collection.pageSize start).2.map namedPoint

/-- A server gives the pages that the collection in memory gives. -/
def ServesPages (serve : Request → Reply) (name : String) (c : Collection) (f : Filter) : Prop :=
  ∀ start : Option String,
    serve (pageRequest name f.conditions (start.map namedPoint)) = pageReply c f start

section

variable {serve : Request → Reply} {name : String} {c : Collection} {f : Filter}

theorem idTexts_namedPoint (ids : List String) :
    idTexts (ids.map fun id => some (namedPoint id)) = ids := by
  induction ids with
  | nil => rfl
  | cons id rest ih =>
    rw [idTexts] at ih ⊢
    rw [List.map_cons, List.filterMap_cons, ih]
    rfl

theorem idTexts_pageReply (start : Option String) :
    idTexts (pageReply c f start).ids = (c.idsFrom f start).take Collection.pageSize :=
  idTexts_namedPoint _

/-- A page that leaves nothing over is the last one. -/
theorem next_pageReply_of_nil {start : Option String}
    (h : (c.idsFrom f start).drop Collection.pageSize = []) :
    (pageReply c f start).next = none := by
  rw [pageReply, Collection.page_eq, h]
  rfl

theorem next_pageReply_of_cons {start : Option String} {id : String} {after : List String}
    (h : (c.idsFrom f start).drop Collection.pageSize = id :: after) :
    (pageReply c f start).next = some (namedPoint id) := by
  rw [pageReply, Collection.page_eq, h]
  rfl

variable (hserve : ServesPages serve name c f)
include hserve

/-- Replies that the server gave to the very requests of a search hold what there is to be found
from the start of the search on. -/
theorem scanned_of_served {replies : List Reply} (h : Scan replies) (start : Option String)
    (hreplies :
      (scanRequests name f.conditions (start.map namedPoint) replies).map serve = replies) :
    scanned replies = .ok (c.idsFrom f start) := by
  induction h generalizing start with
  | @last reply hends =>
    rw [scanRequests, List.map_cons, hserve start] at hreplies
    obtain ⟨rfl, -⟩ := List.cons.inj hreplies
    cases hdrop : (c.idsFrom f start).drop Collection.pageSize with
    | nil =>
      have hpage : (c.idsFrom f start).take Collection.pageSize = c.idsFrom f start :=
        List.take_of_length_le (List.drop_eq_nil_iff.1 hdrop)
      have hids : idTexts (pageReply c f start).ids = c.idsFrom f start :=
        (idTexts_pageReply start).trans hpage
      show Except.ok (idTexts (pageReply c f start).ids ++ []) = _
      rw [hids, List.append_nil]
    | cons id after => exact absurd hends (Reply.not_ends rfl (next_pageReply_of_cons hdrop))
  | @more reply next rest hok hnext hrest ih =>
    rw [scanRequests, List.map_cons, hserve start] at hreplies
    obtain ⟨rfl, hlater⟩ := List.cons.inj hreplies
    cases hdrop : (c.idsFrom f start).drop Collection.pageSize with
    | nil =>
      rw [next_pageReply_of_nil hdrop] at hnext
      cases hnext
    | cons id after =>
      rw [next_pageReply_of_cons hdrop] at hlater
      rw [scanned_cons hok, ih (some id) hlater, idTexts_pageReply, Collection.idsFrom_next hdrop,
        ← hdrop]
      exact congrArg Except.ok (List.take_append_drop ..)

/-- The pages that the search in memory goes through are the replies to a search. -/
theorem exists_served (start : Option String) :
    ∃ replies, Scan replies ∧
      (scanRequests name f.conditions (start.map namedPoint) replies).map serve = replies := by
  obtain ⟨pages, hpages, -⟩ := c.exists_paged f Collection.pageSize_pos start
  induction hpages with
  | @last start ids hpage =>
    have hnext : (pageReply c f start).next = none := by rw [pageReply, hpage]; rfl
    refine ⟨[pageReply c f start], .last (.inr hnext), ?_⟩
    rw [scanRequests, scanRequests, List.map_cons, hserve start, List.map_nil]
  | @next start ids id rest hpage _ ih =>
    have hnext : (pageReply c f start).next = some (namedPoint id) := by rw [pageReply, hpage]; rfl
    obtain ⟨replies, hscan, hreplies⟩ := ih
    refine ⟨pageReply c f start :: replies, .more rfl hnext hscan, ?_⟩
    rw [scanRequests, List.map_cons, hserve start, hnext]
    exact congrArg _ hreplies

end

/-- A search asks for one page after the other, always under the same conditions and for at most 100
points without their payloads, up to the first reply that fails or is the last page, and gives the
names on all pages or what the failure says.  A server that gives the pages of a collection in memory
is searched to the end, and the result is that of the search in memory. -/
theorem find_asks_page_after_page (client : Client) (name : String) {f : Filter}
    (hf : f.conditions ≠ []) :
    (∀ (replies : List Reply) (peer after : Peer Reply) (sent : List Request),
      Scan replies → peer.Gives replies after →
      (client.find name f).on ⟨peer, sent⟩ =
        (scanned replies, ⟨after, sent ++ scanRequests name f.conditions none replies⟩)) ∧
    (∀ replies, ∀ r ∈ scanRequests name f.conditions none replies,
      ∃ start, r = .scroll name f.conditions start 100 false false) ∧
    (∀ sent, ∃ text, (client.find name f).on ⟨.unreachable, sent⟩ =
      (.error (responseFault text), ⟨.unreachable, sent⟩)) ∧
    ∀ (m : Memory) (c : Collection) (serve : Request → Reply),
      m.collections.get? name = some c → ServesPages serve name c f →
      ∃ ids, m.find name f = .ok ids ∧
        (∃ replies, Scan replies ∧
          (scanRequests name f.conditions none replies).map serve = replies) ∧
        ∀ (replies : List Reply) (peer after : Peer Reply) (sent : List Request), Scan replies →
          (scanRequests name f.conditions none replies).map serve = replies →
          peer.Gives replies after → ((client.find name f).on ⟨peer, sent⟩).1 = .ok ids := by
  refine ⟨fun replies peer after sent h hgives => on_find hf h hgives sent,
    fun _ _ => eq_scroll_of_mem_scanRequests, on_find_unreachable hf,
    fun m c serve hc hserve => ⟨c.idsFrom f none, ?_, exists_served hserve none, ?_⟩⟩
  · have hfind := Memory.perform_find hc f _ (Filter.requiredConditions_eq hf)
    rw [Collection.idsFrom_none]
    exact congrArg Prod.fst hfind
  · intro replies peer after sent h hreplies hgives
    rw [on_find hf h hgives sent]
    exact scanned_of_served hserve h none hreplies

/-- A server that holds one collection and gives its pages for one filter. -/
def pageServer (c : Collection) (f : Filter) : Request → Reply
  | .scroll _ _ offset _ _ _ => pageReply c f (offset.join.map PointId.text)
  | _ => {}

/-- A collection with one record more than a page holds, under names of one character. -/
def overfullPage : Collection :=
  Collection.insertAll .empty <| (List.range 101).map fun n =>
    ⟨String.singleton (Char.ofNat (200 - n)), ⟨#[], .empty⟩, "text",
      ⟨"a.js", "a.js", "js", 4, 0, 1, 1⟩⟩

/-- Its two pages. -/
def overfullReplies : List Reply :=
  [pageReply overfullPage (.forFile "a.js") none,
    pageReply overfullPage (.forFile "a.js") (some (String.singleton (Char.ofNat 200)))]

theorem find_asks_page_after_page_twoPages :
    Exchange.on (Client.find ⟨0⟩ "code" (.forFile "a.js"))
      ⟨.replying [⟨none, false, [some (namedPoint "a")], some (namedPoint "b"), []⟩,
        ⟨none, false, [some (namedPoint "b"), none], none, []⟩] {}, []⟩ =
      (.ok ["a", "b"], ⟨.replying [] {},
        [.scroll "code" [(.filePath, "a.js")] none 100 false false,
          .scroll "code" [(.filePath, "a.js")] (some (namedPoint "b")) 100 false false]⟩) ∧
    overfullReplies.map (·.ids.length) = [100, 1] ∧
    (scanRequests "code" [(.filePath, "a.js")] none overfullReplies).map
      (pageServer overfullPage (.forFile "a.js")) = overfullReplies ∧
    ∃ ids, ((Memory.empty 0).set "code" overfullPage).find "code" (.forFile "a.js") = .ok ids ∧
      (Exchange.on (Client.find ⟨0⟩ "code" (.forFile "a.js"))
        ⟨.replying overfullReplies {}, []⟩).1 = .ok ids := by
  have hf : (Filter.forFile "a.js").conditions ≠ [] := by decide
  obtain ⟨hscan, -, -, hserved⟩ := find_asks_page_after_page ⟨0⟩ "code" hf
  have hpages : Scan [⟨none, false, [some (namedPoint "a")], some (namedPoint "b"), []⟩,
      ⟨none, false, [some (namedPoint "b"), none], none, []⟩] :=
    .more rfl rfl (.last (.inr rfl))
  have hserve : ServesPages (pageServer overfullPage (.forFile "a.js")) "code" overfullPage
      (.forFile "a.js") := by
    intro start
    cases start <;> rfl
  obtain ⟨ids, hids, -, hsame⟩ :=
    hserved ((Memory.empty 0).set "code" overfullPage) overfullPage _ Memory.get?_set_self hserve
  have hnext : (pageReply overfullPage (.forFile "a.js") none).next =
      some (namedPoint (String.singleton (Char.ofNat 200))) := by decide +kernel
  have hlast : (pageReply overfullPage (.forFile "a.js")
      (some (String.singleton (Char.ofNat 200)))).next = none := by decide +kernel
  have hreplies : (scanRequests "code" [(.filePath, "a.js")] none overfullReplies).map
      (pageServer overfullPage (.forFile "a.js")) = overfullReplies := by
    rw [overfullReplies, scanRequests, scanRequests, scanRequests, hnext]
    rfl
  exact ⟨hscan _ _ _ [] hpages (.cons rfl (.cons rfl (.nil _))), by decide +kernel, hreplies, ids,
    hids, hsame overfullReplies _ (.replying [] {}) [] (.more rfl hnext (.last (.inr hlast))) hreplies
      (.cons rfl (.cons rfl (.nil _)))⟩

end CodeIndex.Qdrant
