import CodeIndex.Proofs.Qdrant.Exchange
import CodeIndex.Proofs.Store.Memory

/-! What a filter means to the two stores.  The store in memory compares the fields of a record, and
a vector server is sent conditions on the payload's members: they let the same payloads pass. -/

namespace CodeIndex

/-- What is found in a value by following member names that are joined by dots. -/
def Json.Value.follow (v : Json.Value) (key : String) : Option Json.Value :=
  ((key.toList.splitOn '.').map String.ofList).foldlM Json.Value.get? v

namespace Store

def Field.of (m : Metadata) : Field → String
  | filePath => m.filePath
  | fileName => m.fileName
  | fileExtension => m.fileExtension

/-- A field's key leads to the field. -/
theorem Payload.follow_key (p : Payload) (field : Field) :
    p.toJson.follow field.key = some (.string (field.of p.metadata)) := by
  cases field <;> rfl

namespace Filter

variable {f : Filter} {m : Metadata}

theorem agrees_eq_true_iff {wanted : Option String} {found : String} :
    agrees wanted found = true ↔ ∀ v, wanted = some v → found = v := by
  cases wanted with
  | none => simp [agrees]
  | some v =>
    simp only [agrees, Option.all_some, beq_iff_eq, Option.some.injEq, forall_eq']
    exact eq_comm

theorem mem_conditions {field : Field} {v : String} :
    (field, v) ∈ f.conditions ↔
      match field with
      | .filePath => f.filePath = some v
      | .fileName => f.fileName = some v
      | .fileExtension => f.fileExtension = some v := by
  cases field <;> simp [conditions]

theorem matches_iff : f.matches_ m = true ↔ ∀ c ∈ f.conditions, c.1.of m = c.2 := by
  simp only [matches_, Bool.and_eq_true, agrees_eq_true_iff]
  constructor
  · rintro ⟨⟨hpath, hname⟩, hextension⟩ ⟨field, v⟩ hc
    rw [mem_conditions] at hc
    cases field with
    | filePath => exact hpath v hc
    | fileName => exact hname v hc
    | fileExtension => exact hextension v hc
  · intro h
    refine ⟨⟨fun v hv => ?_, fun v hv => ?_⟩, fun v hv => ?_⟩
    · exact h (.filePath, v) (mem_conditions.2 hv)
    · exact h (.fileName, v) (mem_conditions.2 hv)
    · exact h (.fileExtension, v) (mem_conditions.2 hv)

theorem requiredConditions_of_nil (hnone : f.conditions = []) :
    f.requiredConditions = .error .emptyFilter := by
  rw [requiredConditions, hnone]

/-- A condition keeps out the payloads with a longer text in its field. -/
theorem exists_not_matches (hf : f.conditions ≠ []) :
    ∃ p : Payload, f.matches_ p.metadata ≠ true := by
  obtain ⟨c, hc⟩ := List.exists_mem_of_ne_nil _ hf
  let s := c.2.push '.'
  refine ⟨⟨"", ⟨s, s, s, 0, 0, 0, 0⟩⟩, fun hmatches => ?_⟩
  have hsame : s = c.2 := by
    have := matches_iff.1 hmatches c hc
    cases hfield : c.1 <;> rw [hfield] at this <;> exact this
  have hlength := congrArg String.length hsame
  rw [String.length_push] at hlength
  omega

end Filter

end Store

namespace Qdrant

open Network (Peer)
open Store (Filter HybridVector Payload QueryOptions)

theorem queryFilter_eq_some_iff {o : QueryOptions} {cs : List Store.Condition} :
    Client.queryFilter o = some cs ↔
      ∃ f, o.filter = some f ∧ f.conditions = cs ∧ cs ≠ [] := by
  rw [Client.queryFilter, Option.filter_eq_some_iff, Option.map_eq_some_iff]
  constructor
  · rintro ⟨⟨f, hf, hcs⟩, hne⟩
    exact ⟨f, hf, hcs, by simpa using hne⟩
  · rintro ⟨f, hf, hcs, hne⟩
    exact ⟨⟨f, hf, hcs⟩, by simpa using hne⟩

theorem on_liftExcept {α : Type} (found : Except Store.StoreError α) (c : Connection) :
    Exchange.on (Client.query.liftExcept found) c = (found, c) := by
  cases found <;> rfl

/-- Reading what was found makes no further request. -/
theorem on_mapM_liftExcept {α β : Type} (read : α → Except Store.StoreError β) (as : List α)
    (c : Connection) :
    (Exchange.on (as.mapM fun a => Client.query.liftExcept (read a)) c).2 = c := by
  induction as with
  | nil => rfl
  | cons a rest ih =>
    rw [List.mapM_cons, on_bind, on_liftExcept]
    cases read a with
    | error e => rfl
    | ok b =>
      simp only [on_bind, on_pure]
      generalize Exchange.on (rest.mapM fun a => Client.query.liftExcept (read a)) c = found at ih
      obtain ⟨outcome, left⟩ := found
      cases outcome <;> exact ih

theorem sent_on_query (client : Client) (name : String) (v : HybridVector) (o : QueryOptions)
    {peer after : Peer Reply} {reply : Reply} (hreply : peer.reply = (some reply, after))
    (sent : List Request) :
    ((client.query name v o).on ⟨peer, sent⟩).2.sent =
      sent ++ [Client.queryRequest name v o] := by
  rw [Client.query, on_bind]
  cases hfailure : reply.failure with
  | some text => rw [on_ask_error _ hreply hfailure]
  | none =>
    rw [on_ask_ok _ hreply hfailure]
    exact congrArg Connection.sent (on_mapM_liftExcept _ _ _)

/-- A filter of the store in memory lets a payload pass if each of its conditions, with the key that
is sent to a vector server, leads to the wanted text in the payload; the filter that is refused where
a condition is required is the one that lets everything pass.  A query sends these conditions with
each of its two rankings, and sends no filter when there are none. -/
theorem filter_means_conditions :
    (∀ (f : Filter) (p : Payload), f.matches_ p.metadata = true ↔
      ∀ c ∈ f.conditions, p.toJson.follow c.1.key = some (.string c.2)) ∧
    (∀ f : Filter, (∃ e, f.requiredConditions = .error e) ↔
      ∀ p : Payload, f.matches_ p.metadata = true) ∧
    ∀ (client : Client) (name : String) (v : HybridVector) (o : QueryOptions)
      (peer after : Peer Reply) (reply : Reply) (sent : List Request),
      peer.reply = (some reply, after) →
      ∃ byDense bySparse : Branch,
        ((client.query name v o).on ⟨peer, sent⟩).2.sent =
          sent ++ [.query name [byDense, bySparse] o.limit o.scoreThreshold o.includePayload] ∧
        byDense.vectorName = "dense" ∧ bySparse.vectorName = "sparse" ∧
        ∀ b ∈ [byDense, bySparse],
          (∀ cs, b.filter = some cs ↔ ∃ f, o.filter = some f ∧ f.conditions = cs ∧ cs ≠ []) ∧
          (b.filter = none ↔ ∀ f, o.filter = some f → f.conditions = []) := by
  refine ⟨fun f p => ?_, fun f => ?_, ?_⟩
  · simp only [Filter.matches_iff, Payload.follow_key, Option.some.injEq, Json.Value.string.injEq]
  · constructor
    · rintro ⟨e, he⟩ p
      by_cases hf : f.conditions = []
      · rw [Filter.matches_iff, hf]
        exact fun c hc => absurd hc List.not_mem_nil
      · rw [Filter.requiredConditions_eq hf] at he
        cases he
    · intro hall
      by_cases hf : f.conditions = []
      · exact ⟨_, Filter.requiredConditions_of_nil hf⟩
      · obtain ⟨p, hp⟩ := Filter.exists_not_matches hf
        exact absurd (hall p) hp
  · intro client name v o peer after reply sent hreply
    refine ⟨_, _, sent_on_query client name v o hreply sent, rfl, rfl, fun b hb => ?_⟩
    have hfilter : b.filter = Client.queryFilter o := by
      simp only [List.mem_cons, List.not_mem_nil, or_false] at hb
      rcases hb with rfl | rfl <;> rfl
    rw [hfilter]
    refine ⟨fun cs => queryFilter_eq_some_iff, ?_⟩
    rw [Option.eq_none_iff_forall_ne_some]
    constructor
    · intro hnone f hf
      by_cases hconditions : f.conditions = []
      · exact hconditions
      · exact absurd (queryFilter_eq_some_iff.2 ⟨f, hf, rfl, hconditions⟩) (hnone _)
    · intro hnone cs hcs
      obtain ⟨f, hf, rfl, hne⟩ := queryFilter_eq_some_iff.1 hcs
      exact hne (hnone f hf)

/-- Both rankings of a query for the fragments of a file are filtered. -/
theorem filter_means_conditions_forFile : ∃ byDense bySparse : Branch,
    (Exchange.on (Client.query ⟨0⟩ "code" ⟨#[], .empty⟩ { filter := some (.forFile "a.js") })
      ⟨.replying [] {}, []⟩).2.sent = [.query "code" [byDense, bySparse] 10 0 true] ∧
    byDense.filter = some [(.filePath, "a.js")] ∧ bySparse.filter = some [(.filePath, "a.js")] := by
  obtain ⟨byDense, bySparse, hsent, -, -, hfilter⟩ := filter_means_conditions.2.2 ⟨0⟩ "code"
    ⟨#[], .empty⟩ { filter := some (.forFile "a.js") } (.replying [] {}) _ _ [] rfl
  refine ⟨byDense, bySparse, hsent, ?_, ?_⟩
  · exact ((hfilter byDense (by simp)).1 _).2 ⟨_, rfl, rfl, by decide⟩
  · exact ((hfilter bySparse (by simp)).1 _).2 ⟨_, rfl, rfl, by decide⟩

end Qdrant

end CodeIndex
