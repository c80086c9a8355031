import CodeIndex.Proofs.Embedding.Order

/-! Which text a vector of a reply belongs to.  When the entries name the places of the texts, each
once, these decide.  When an entry names none the order of the reply decides, and a place that
another entry names is not looked at. -/

namespace CodeIndex.Embedding

open Network (Peer)

/-- A batch that is embedded has a vector for each text.  If the entries of the reply name the
places of the texts, each once, then every vector stands at the place that its entry names; if one
names none, every vector stands at the place that its entry has in the reply. -/
theorem embed_attributes_vectors {c : Client} {texts : List String} {peer : Peer HttpReply}
    {vectors : List (Array Float32)} (hok : (c.embed texts peer).1 = .ok vectors) :
    vectors.length = texts.length ∧
    (texts ≠ [] → ∃ after es, Answered c texts peer after es) ∧
    ∀ after es, Answered c texts peer after es →
      (NamesEach es → ∀ e ∈ es, ∀ i, e.index = some i → vectors[i]? = some e.vector) ∧
      ((∃ e ∈ es, e.index = none) → ∀ i : Nat, vectors[i]? = es[i]?.map Embedded.vector) := by
  refine ⟨?_, fun htexts => exists_answered_of_ok htexts hok, fun after es h => ?_⟩
  · by_cases htexts : texts = []
    · subst htexts
      cases hok
      rfl
    · obtain ⟨after, es, h⟩ := exists_answered_of_ok htexts hok
      obtain ⟨hcount, rfl⟩ := h.eq_of_ok hok
      rw [List.length_map, (ordered_perm es).length_eq, hcount]
  · obtain ⟨-, rfl⟩ := h.eq_of_ok hok
    constructor
    · intro heach e he i hi
      rw [List.getElem?_map, heach.getElem?_ordered he hi, Option.map_some]
    · intro hnone i
      rw [ordered_of_unnamed hnone, List.getElem?_map]

theorem embed_attributes_vectors_turnedReply : ∃ vectors,
    (keyedClient.embed ["a", "b", "c"] (.replying [turnedReply] {})).1 = .ok vectors ∧
      ∀ i < 3, vectors[i]?.map Array.size = some i := by
  obtain ⟨es, hanswered, heach, hlength, hsizes⟩ := entries_turnedReply
  have hok : (keyedClient.embed ["a", "b", "c"] (.replying [turnedReply] {})).1 =
      .ok ((ordered es).map Embedded.vector) := by
    rw [hanswered.embed_eq]
    exact if_pos hlength
  refine ⟨_, hok, fun i hi => ?_⟩
  obtain ⟨e, he, hindex, hsize⟩ := hsizes i hi
  rw [((embed_attributes_vectors hok).2.2 _ es hanswered).1 heach e he i hindex, Option.map_some,
    hsize]

/-- A reply that names the second of two places for its first entry, and none for the other. -/
def halfNamedReply : HttpReply where
  body := "\x7b\"data\": [" ++
    "\x7b\"embedding\": [1], \"index\": 1\x7d, \x7b\"embedding\": [2, 3]\x7d]\x7d"

/-- The vector that is named for the second text is given for the first. -/
theorem embed_misattributes_halfNamedReply : ∃ es vectors,
    Answered keyedClient ["a", "b"] (.replying [halfNamedReply] {}) (.replying [] {}) es ∧
      (keyedClient.embed ["a", "b"] (.replying [halfNamedReply] {})).1 = .ok vectors ∧
      ∃ e ∈ es, e.index = some 1 ∧ vectors[0]? = some e.vector ∧ vectors[1]? ≠ some e.vector := by
  have hbody : (readReply? halfNamedReply.body).map (·.map fun e => (e.index, e.vector.size)) =
      some [(some 1, 1), (none, 2)] := by decide +kernel
  obtain ⟨es, hread, hes⟩ := Option.map_eq_some_iff.1 hbody
  obtain ⟨e, f, rfl⟩ := List.length_eq_two.1 (by simpa using congrArg List.length hes)
  simp only [List.map_cons, List.map_nil, List.cons.injEq, Prod.mk.injEq, and_true] at hes
  obtain ⟨⟨he, hesize⟩, hf, hfsize⟩ := hes
  have hanswered : Answered keyedClient ["a", "b"] (.replying [halfNamedReply] {})
      (.replying [] {}) [e, f] :=
    ⟨by decide, by decide +kernel, halfNamedReply, rfl, by decide, by decide, hread⟩
  refine ⟨_, [e.vector, f.vector], hanswered, ?_, e, by simp, he, rfl, ?_⟩
  · rw [hanswered.embed_eq, ordered_of_unnamed ⟨f, by simp, hf⟩]
    rfl
  · intro hsame
    have hsize := congrArg Array.size (Option.some.inj hsame)
    omega

end CodeIndex.Embedding
