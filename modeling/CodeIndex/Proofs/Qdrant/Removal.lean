import CodeIndex.Proofs.Qdrant.Scan

/-! The removal of points that were found.  A name that was found is handed over as a text, and the
request to delete takes each text for a name in the form of a unique identifier.  So a point with
such a name is named again, but a point whose name is a number is not. -/

namespace CodeIndex.Qdrant

open Network (Peer)
open Store (Filter)
open Client (idTexts)

/-- The names on the pages of a search that have a value. -/
def foundIds (replies : List Reply) : List PointId :=
  replies.flatMap fun reply => reply.ids.filterMap Option.join

theorem idTexts_eq_map (ids : List (Option (Option PointId))) :
    idTexts ids = (ids.filterMap Option.join).map PointId.text := by
  rw [idTexts, List.map_filterMap]

theorem scanned_of_ok {replies : List Reply} (hok : ∀ reply ∈ replies, reply.failure = none) :
    scanned replies = .ok ((foundIds replies).map PointId.text) := by
  have hnone : replies.findSome? Reply.failure = none := List.findSome?_eq_none_iff.2 hok
  rw [scanned, hnone, foundIds, List.map_flatMap]
  simp only [idTexts_eq_map]

theorem sent_on_deleteIds (client : Client) (name : String) {ids : List String} (hids : ids ≠ [])
    {peer after : Peer Reply} {reply : Reply} (hreply : peer.reply = (some reply, after))
    (sent : List Request) :
    ((client.deleteIds name ids).on ⟨peer, sent⟩).2.sent =
      sent ++ [.deletePoints name (ids.map .uuid)] := by
  have hempty : ids.isEmpty = false := by simpa using hids
  rw [Client.deleteIds, hempty, if_neg Bool.false_ne_true, sent_on_tell _ hreply]

/-- The text of a name in the form of a unique identifier stands for that name, and the digits of a
number do not. -/
theorem uuid_text_eq_iff (id : PointId) : PointId.uuid id.text = id ↔ ∃ s, id = .uuid s := by
  cases id with
  | number n => simp
  | uuid s => simp [PointId.text]

/-- The request to delete what was found takes the text of each name that was found, in their order,
for a unique identifier.  This is the name that was found unless that is a number. -/
theorem deleteIds_after_find (client : Client) (name : String) {f : Filter}
    (hf : f.conditions ≠ []) {replies : List Reply} (h : Scan replies)
    (hok : ∀ reply ∈ replies, reply.failure = none) (hfound : foundIds replies ≠ [])
    {peer after rest : Peer Reply} {reply : Reply} (hgives : peer.Gives replies after)
    (hreply : after.reply = (some reply, rest)) (sent : List Request) :
    ((client.find name f).on ⟨peer, sent⟩).1 = .ok ((foundIds replies).map PointId.text) ∧
    (Exchange.on (client.find name f >>= client.deleteIds name) ⟨peer, sent⟩).2.sent =
      sent ++ scanRequests name f.conditions none replies ++
        [.deletePoints name ((foundIds replies).map fun id => .uuid id.text)] ∧
    ∀ id ∈ foundIds replies, PointId.uuid id.text = id ↔ ∃ s, id = .uuid s := by
  have hfind : (client.find name f).on ⟨peer, sent⟩ =
      (.ok ((foundIds replies).map PointId.text),
        ⟨after, sent ++ scanRequests name f.conditions none replies⟩) := by
    rw [on_find hf h hgives sent, scanned_of_ok hok]
  have htexts : (foundIds replies).map PointId.text ≠ [] := by simpa using hfound
  refine ⟨congrArg Prod.fst hfind, ?_, fun id _ => uuid_text_eq_iff id⟩
  rw [on_bind, hfind]
  show ((client.deleteIds name ((foundIds replies).map PointId.text)).on
    ⟨after, sent ++ scanRequests name f.conditions none replies⟩).2.sent = _
  rw [sent_on_deleteIds client name htexts hreply, List.map_map]
  rfl

/-- A page with a point under a unique identifier and a point under a number. -/
def mixedPage : Reply where
  ids := [some (some (.uuid "u")), some (some (.number 7))]

/-- Of the two points the first is named again. -/
theorem deleteIds_after_find_mixedPage :
    (Exchange.on (Client.find ⟨0⟩ "code" (.forFile "a.js") >>= Client.deleteIds ⟨0⟩ "code")
      ⟨.replying [mixedPage] {}, []⟩).2.sent =
      [.scroll "code" [(.filePath, "a.js")] none 100 false false,
        .deletePoints "code" [.uuid "u", .uuid "7"]] := by
  have hscan : Scan [mixedPage] := .last (.inr rfl)
  have hok : ∀ reply ∈ [mixedPage], reply.failure = none := by
    intro reply hmem
    rw [List.mem_singleton.1 hmem]
    rfl
  exact (deleteIds_after_find ⟨0⟩ "code" (by decide) hscan hok (by decide)
    (.cons rfl (.nil _)) rfl []).2.1

/-- The point numbered 7 is found under the text of its number, and what is to be deleted is another
point. -/
theorem deleteIds_renames_number :
    (Exchange.on (Client.find ⟨0⟩ "code" (.forFile "a.js"))
      ⟨.replying [⟨none, false, [some (some (.number 7))], none, []⟩] {}, []⟩).1 = .ok ["7"] ∧
    (Exchange.on (Client.deleteIds ⟨0⟩ "code" ["7"]) ⟨.replying [] {}, []⟩).2.sent =
      [.deletePoints "code" [.uuid "7"]] ∧
    PointId.uuid "7" ≠ .number 7 :=
  ⟨rfl, rfl, by decide⟩

end CodeIndex.Qdrant
