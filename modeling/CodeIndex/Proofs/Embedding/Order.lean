import CodeIndex.Embedding.Client
import CodeIndex.Proofs.Sorting.Insertion

/-! The order of the vectors of a reply.  When all entries name a place they are put into the order
of their places, however the server has listed them; when one names none they stay as they came. -/

namespace CodeIndex.Embedding

open Network (Peer)

/-- All entries name a place, and no two the same. -/
structure Placed (es : List Embedded) : Prop where
  named : ∀ e ∈ es, e.index ≠ none
  distinct : (es.map Embedded.index).Nodup

/-- The entries name the places of as many texts, each of them once. -/
def NamesEach (es : List Embedded) : Prop :=
  (es.map Embedded.index).Perm ((List.range es.length).map some)

/-- Both are places, and the first is the smaller. -/
def Earlier (a b : Option Nat) : Prop := ∃ i j, a = some i ∧ b = some j ∧ i < j

theorem Earlier.asymm {a b : Option Nat} (h : Earlier a b) : ¬ Earlier b a := by
  rintro ⟨k, l, hk, hl, hkl⟩
  obtain ⟨i, j, hi, hj, hij⟩ := h
  obtain rfl : i = l := Option.some.inj (hi.symm.trans hl)
  obtain rfl : j = k := Option.some.inj (hj.symm.trans hk)
  omega

section

variable {es fs : List Embedded}

/-! ### Sorting by place -/

/-- An entry goes behind one with the same place, so it stands behind those that came earlier. -/
theorem insertByIndex_eq (e : Embedded) (es : List Embedded) :
    insertByIndex e es =
      Sorting.insertLast (fun a b => decide (b.index.getD 0 ≤ a.index.getD 0)) e es := by
  induction es with
  | nil => rfl
  | cons f rest ih => simp only [insertByIndex, Sorting.insertLast, ih, decide_eq_true_eq]

theorem ordered_of_unnamed (h : ∃ e ∈ es, e.index = none) : ordered es = es := by
  obtain ⟨e, he, hnone⟩ := h
  apply if_neg
  intro hall
  have hsome := List.all_eq_true.1 hall e he
  rw [hnone] at hsome
  cases hsome

theorem ordered_of_named (h : ∀ e ∈ es, e.index ≠ none) :
    ordered es =
      Sorting.insertAll (fun a b => decide (b.index.getD 0 ≤ a.index.getD 0)) [] es := by
  have hall : es.all (·.index.isSome) = true := by simpa [Option.ne_none_iff_isSome] using h
  rw [ordered, if_pos hall]
  simp only [insertByIndex_eq]
  rfl

theorem ordered_perm (es : List Embedded) : (ordered es).Perm es := by
  by_cases h : ∃ e ∈ es, e.index = none
  · rw [ordered_of_unnamed h]
  · rw [ordered_of_named fun e he hnone => h ⟨e, he, hnone⟩]
    exact (Sorting.insertAll_perm [] es).trans (by rw [List.append_nil])

theorem ordered_pairwise_le (h : ∀ e ∈ es, e.index ≠ none) :
    (ordered es).Pairwise fun e f => e.index.getD 0 ≤ f.index.getD 0 := by
  have hlinked : ∀ a b : Embedded,
      Sorting.Linked (fun a b => decide (b.index.getD 0 ≤ a.index.getD 0)) a b := by
    intro a b
    simp only [Sorting.Linked, decide_eq_true_eq]
    exact Nat.le_total _ _
  have hgoes : Sorting.GoesOn (fun a b : Embedded => decide (b.index.getD 0 ≤ a.index.getD 0))
      fun _ => True := by
    intro a b c _ _ _ hab hbc
    simp only [decide_eq_true_eq] at *
    exact Nat.le_trans hbc hab
  rw [ordered_of_named h]
  refine List.Pairwise.imp (fun hle => of_decide_eq_true hle) (Sorting.insertAll_pairwise hgoes
    (fun _ _ => trivial) (List.pairwise_of_forall hlinked) List.Pairwise.nil)

theorem Placed.perm (h : Placed es) (hperm : fs.Perm es) : Placed fs where
  named e he := h.named e (hperm.mem_iff.1 he)
  distinct := (hperm.map _).nodup_iff.2 h.distinct

/-- Distinct places come in ascending order. -/
theorem Placed.ascending (h : Placed es) :
    ((ordered es).map Embedded.index).Pairwise Earlier := by
  have hsame := h.perm (ordered_perm es)
  have hne : (ordered es).Pairwise fun e f => e.index ≠ f.index :=
    List.pairwise_map.1 hsame.distinct
  rw [List.pairwise_map]
  refine ((ordered_pairwise_le h.named).and hne).imp_of_mem ?_
  intro e f he hf hlt
  obtain ⟨i, hi⟩ := Option.ne_none_iff_exists'.1 (hsame.named e he)
  obtain ⟨j, hj⟩ := Option.ne_none_iff_exists'.1 (hsame.named f hf)
  rw [hi, hj] at hlt
  have hle : i ≤ j := hlt.1
  have hdiffer : i ≠ j := fun heq => hlt.2 (congrArg some heq)
  exact ⟨i, j, hi, hj, by omega⟩

/-- The order of the reply makes no difference. -/
theorem Placed.ordered_eq (h : Placed es) (hperm : fs.Perm es) : ordered fs = ordered es := by
  have hfs := List.pairwise_map.1 (h.perm hperm).ascending
  have hes := List.pairwise_map.1 h.ascending
  have hsame : (ordered fs).Perm (ordered es) :=
    (ordered_perm fs).trans (hperm.trans (ordered_perm es).symm)
  exact hsame.eq_of_pairwise (fun _ _ _ _ hab hba => absurd hba hab.asymm) hfs hes

theorem NamesEach.placed (h : NamesEach es) : Placed es where
  named e he := by
    have hmem := h.mem_iff.1 (List.mem_map_of_mem he)
    obtain ⟨i, -, hi⟩ := List.mem_map.1 hmem
    rw [← hi]
    exact Option.some_ne_none i
  distinct := by
    rw [h.nodup_iff]
    exact List.Nodup.map (fun _ _ => Option.some.inj) List.nodup_range

/-- Each entry is put at the place that it names. -/
theorem NamesEach.getElem?_ordered (h : NamesEach es) {e : Embedded} (he : e ∈ es) {i : Nat}
    (hi : e.index = some i) : (ordered es)[i]? = some e := by
  have hplaces : (ordered es).map Embedded.index = (List.range es.length).map some := by
    have hrange : ((List.range es.length).map some).Pairwise Earlier := by
      rw [List.pairwise_map]
      exact List.pairwise_lt_range.imp fun hlt => ⟨_, _, rfl, rfl, hlt⟩
    exact (((ordered_perm es).map _).trans h).eq_of_pairwise
      (fun _ _ _ _ hab hba => absurd hba hab.asymm) h.placed.ascending hrange
  obtain ⟨k, hk⟩ := List.mem_iff_getElem?.1 ((ordered_perm es).mem_iff.2 he)
  have hindex := congrArg (·[k]?) hplaces
  simp only [List.getElem?_map, hk, Option.map_some, hi] at hindex
  obtain ⟨j, hj, hji⟩ := Option.map_eq_some_iff.1 hindex.symm
  obtain ⟨_, hkj⟩ := List.getElem?_eq_some_iff.1 hj
  rw [List.getElem_range] at hkj
  obtain rfl : k = i := hkj.trans (Option.some.inj hji)
  exact hk

end

/-! ### Answers of a server -/

section

variable {c : Client} {texts : List String} {peer after : Peer HttpReply} {es : List Embedded}

/-- A batch is sent, and answered with success by a reply that holds these entries. -/
structure Answered (c : Client) (texts : List String) (peer after : Peer HttpReply)
    (es : List Embedded) : Prop where
  nonempty : texts ≠ []
  header : isHeaderText (c.request texts).authorization = true
  reply : ∃ reply, peer.reply = (some reply, after) ∧ 200 ≤ reply.status ∧ reply.status < 300 ∧
    readReply? reply.body = some es

theorem Answered.embed_eq (h : Answered c texts peer after es) :
    c.embed texts peer =
      (if es.length = texts.length then .ok ((ordered es).map Embedded.vector)
        else .error (.countMismatch texts.length es.length), [c.request texts], after) := by
  obtain ⟨reply, hreply, hlow, hhigh, hread⟩ := h.reply
  have hempty : texts.isEmpty = false := by simpa using h.nonempty
  have hstatus : ¬ (reply.status < 200 ∨ 300 ≤ reply.status) := by omega
  have hlength : ((ordered es).map Embedded.vector).length = es.length := by
    rw [List.length_map, (ordered_perm es).length_eq]
  simp only [Client.embed, hempty, h.header, hreply, vectorsOf, hread, hlength, if_neg hstatus,
    Bool.not_true, Bool.false_eq_true, if_false]

/-- What a batch with texts gives comes from a successful reply. -/
theorem exists_answered_of_ok {vectors : List (Array Float32)} (htexts : texts ≠ [])
    (hok : (c.embed texts peer).1 = .ok vectors) : ∃ after es, Answered c texts peer after es := by
  have hempty : texts.isEmpty = false := by simpa using htexts
  simp only [Client.embed, hempty, Bool.false_eq_true, if_false] at hok
  split at hok
  · cases hok
  next hheader =>
    split at hok
    · cases hok
    next reply after hreply =>
      simp only [vectorsOf] at hok
      split at hok
      · cases hok
      next hstatus =>
        split at hok
        · cases hok
        next es hread =>
          exact ⟨after, es, htexts, by simpa using hheader, reply, hreply, by omega, by omega,
            hread⟩

theorem Answered.eq_of_ok (h : Answered c texts peer after es) {vectors : List (Array Float32)}
    (hok : (c.embed texts peer).1 = .ok vectors) :
    es.length = texts.length ∧ vectors = (ordered es).map Embedded.vector := by
  rw [h.embed_eq] at hok
  by_cases hcount : es.length = texts.length
  · rw [if_pos hcount] at hok
    exact ⟨hcount, (Except.ok.inj hok).symm⟩
  · rw [if_neg hcount] at hok
    cases hok

/-- A successful reply gives its vectors if there is one for each text, and else none.  They come in
the order of the reply when an entry names no place.  When all entries name places, and no two the
same, the order of the reply makes no difference: the vectors come in the order of the places, each
at its own place if these are the places of the texts.  For no texts nothing is sent. -/
theorem embed_orders_vectors (c : Client) (texts : List String) (peer : Peer HttpReply) :
    c.embed [] peer = (.ok [], [], peer) ∧
    ∀ after es, Answered c texts peer after es →
      (es.length ≠ texts.length →
        (c.embed texts peer).1 = .error (.countMismatch texts.length es.length)) ∧
      (es.length = texts.length → ∃ sorted : List Embedded, sorted.Perm es ∧
        (c.embed texts peer).1 = .ok (sorted.map Embedded.vector) ∧
        ((∃ e ∈ es, e.index = none) → sorted = es) ∧
        (Placed es → (sorted.map Embedded.index).Pairwise Earlier ∧
          ∀ other left fs, Answered c texts other left fs → fs.Perm es →
            (c.embed texts other).1 = (c.embed texts peer).1) ∧
        (NamesEach es → ∀ e ∈ es, ∀ i, e.index = some i → sorted[i]? = some e)) := by
  refine ⟨rfl, fun after es h => ⟨fun hcount => ?_, fun hcount => ?_⟩⟩
  · rw [h.embed_eq, if_neg hcount]
  have hvectors : (c.embed texts peer).1 = .ok ((ordered es).map Embedded.vector) := by
    rw [h.embed_eq, if_pos hcount]
  refine ⟨ordered es, ordered_perm es, hvectors, ordered_of_unnamed, fun hplaced => ?_,
    fun heach e he i hi => heach.getElem?_ordered he hi⟩
  refine ⟨hplaced.ascending, fun other left fs hother hperm => ?_⟩
  rw [hvectors, hother.embed_eq, if_pos (hperm.length_eq.trans hcount), hplaced.ordered_eq hperm]

end

def keyedClient : Client := ⟨"key", "http://localhost", "model"⟩

/-- A reply whose vectors have as many components as their places say, the last first. -/
def turnedReply : HttpReply where
  body := "\x7b\"data\": [" ++
    "\x7b\"embedding\": [1, 1], \"index\": 2\x7d, \x7b\"embedding\": [], \"index\": 0\x7d, " ++
    "\x7b\"embedding\": [1], \"index\": 1\x7d]\x7d"

theorem entries_turnedReply : ∃ es : List Embedded,
    Answered keyedClient ["a", "b", "c"] (.replying [turnedReply] {}) (.replying [] {}) es ∧
      NamesEach es ∧ es.length = 3 ∧ ∀ i < 3, ∃ e ∈ es, e.index = some i ∧ e.vector.size = i := by
  have hbody : (readReply? turnedReply.body).map (·.map fun e => (e.index, e.vector.size)) =
      some [(some 2, 2), (some 0, 0), (some 1, 1)] := by decide +kernel
  obtain ⟨es, hread, hes⟩ := Option.map_eq_some_iff.1 hbody
  obtain ⟨a, b, c, rfl⟩ := List.length_eq_three.1 (by simpa using congrArg List.length hes)
  simp only [List.map_cons, List.map_nil, List.cons.injEq, Prod.mk.injEq, and_true] at hes
  obtain ⟨⟨ha, hasize⟩, ⟨hb, hbsize⟩, hc, hcsize⟩ := hes
  refine ⟨[a, b, c], ?_, ?_, rfl, fun i hi => ?_⟩
  · exact ⟨by decide, by decide +kernel, turnedReply, rfl, by decide, by decide, hread⟩
  · simp only [NamesEach, List.map_cons, List.map_nil, ha, hb, hc]
    show [some 2, some 0, some 1].Perm ((List.range 3).map some)
    decide
  · have hcases : i = 0 ∨ i = 1 ∨ i = 2 := by omega
    rcases hcases with rfl | rfl | rfl
    · exact ⟨b, by simp, hb, hbsize⟩
    · exact ⟨c, by simp, hc, hcsize⟩
    · exact ⟨a, by simp, ha, hasize⟩

theorem embed_orders_vectors_turnedReply : ∃ sorted : List Embedded,
    (keyedClient.embed ["a", "b", "c"] (.replying [turnedReply] {})).1 =
        .ok (sorted.map Embedded.vector) ∧
      ∀ i < 3, sorted[i]?.map (·.vector.size) = some i := by
  obtain ⟨es, hanswered, heach, hlength, hsizes⟩ := entries_turnedReply
  obtain ⟨sorted, -, hvectors, -, -, hplaces⟩ :=
    ((embed_orders_vectors keyedClient ["a", "b", "c"] _).2 _ es hanswered).2 hlength
  refine ⟨sorted, hvectors, fun i hi => ?_⟩
  obtain ⟨e, he, hindex, hsize⟩ := hsizes i hi
  rw [hplaces heach e he i hindex, Option.map_some, hsize]

end CodeIndex.Embedding
