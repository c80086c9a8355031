import CodeIndex.Proofs.Index.Interleaving
import CodeIndex.Proofs.Index.Progress
import CodeIndex.Proofs.Index.Replacement

/-! The track of a caller: where it stands, and what it has done so far.  A caller that holds its
lock stands at a stage of the replacement; what it has drawn and stored by then follows from its
plan, however many others are at work. -/

namespace CodeIndex.Index

open CodeIndex.Embedding (EmbedError)
open Files (Entry IoError)
open Store (Collection Memory Metadata Record)

/-- Where a caller stands between asking for its lock and giving it up. -/
inductive Phase where
  | idle
  | queued (lock : LockId)
  | inside (lock : LockId) (progress : Progress)
  | leaving (lock : LockId) (outcome : Except IndexError FileReport)
  | left (outcome : Except IndexError FileReport)

namespace Phase

def kept : Phase → Option LockId
  | idle => none
  | queued lock => some lock
  | inside lock _ => some lock
  | leaving lock _ => some lock
  | left _ => none

def held : Phase → Option LockId
  | inside lock _ => some lock
  | _ => none

/-- The lock was taken, if only for a time. -/
def entered : Phase → Bool
  | idle => false
  | queued _ => false
  | _ => true

/-- What is left to do when the outcome is known. -/
def closing (lock : LockId) (outcome : Except IndexError FileReport) :
    Job (Except IndexError FileReport) :=
  .ask (.release lock) fun _ => .ask (.forget lock) fun _ => .done outcome

/-- What is left to do. -/
def job (o : Chunk.Options) (name path : String) : Phase → Job (Except IndexError FileReport)
  | idle => reconcileFile o name path
  | queued lock => .ask (.acquire lock) fun _ => (replace o name path).run >>= closing lock
  | inside lock progress => (progress.job o name path).run >>= closing lock
  | leaving lock outcome => .ask (.forget lock) fun _ => .done outcome
  | left outcome => .done outcome

end Phase

/-- A caller with its phase, and with what it has done. -/
structure Track where
  name : String
  path : String
  files : Entry
  embed : Embedder
  phase : Phase
  /-- The identifiers that it has drawn, by their numbers. -/
  drawn : List Nat
  /-- The records of the file when its lock was taken. -/
  prior : List Record
  /-- What it has stored in place of them, if it has touched them. -/
  effect : Option (List Record)

namespace Track

/-- A call for a file of a collection that has not begun. -/
def unbegun (files : Entry) (call : String × String) : Track :=
  ⟨call.1, call.2, files, fun _ => .ok [], .idle, [], [], none⟩

def slot (t : Track) : String × String := (t.name, t.path)

def key (t : Track) : String := lockKey t.name t.path

theorem key_eq_of_slot_eq {t u : Track} (h : t.slot = u.slot) : t.key = u.key := by
  obtain ⟨hname, hpath⟩ := Prod.mk.inj h
  rw [key, key, hname, hpath]

def caller (o : Chunk.Options) (t : Track) : Caller :=
  ⟨t.name, t.path, t.files, t.embed, t.phase.job o t.name t.path⟩

/-- The plan that follows from what the caller met. -/
def plan (o : Chunk.Options) (w : World Memory) (t : Track) : Plan :=
  Index.plan o t.name t.path (w.state.contains t.name) (readSource t.files t.path) t.embed

/-- What is stored when the store is given records. -/
def stored (m : Memory) (rs : List Record) : List Record :=
  match m.refusal rs with
  | some _ => []
  | none => rs

/-- Nothing was drawn and nothing was touched. -/
def Untouched (t : Track) : Prop := t.drawn = [] ∧ t.effect = none

/-- The records are those that the plan asks for, under the identifiers that were drawn. -/
def Ready (o : Chunk.Options) (w : World Memory) (t : Track) (rs : List Record) : Prop :=
  ∃ file pairs, t.plan o w = .swap file pairs ∧ t.drawn.length = pairs.length ∧
    rs = recordsUnder file pairs (t.drawn.map w.ids)

/-- The plan was carried out, and this came of it. -/
def Settled (o : Chunk.Options) (w : World Memory) (t : Track)
    (outcome : Except IndexError FileReport) : Prop :=
  (t.plan o w = .keep outcome ∧ t.Untouched) ∨
    ∃ rs, t.Ready o w rs ∧ outcome = swapOutcome w.state rs t.prior.length ∧
      t.effect = some (stored w.state rs)

/-- What holds of a caller at a stage of its replacement. -/
def At (o : Chunk.Options) (w : World Memory) (t : Track) : Progress → Prop
  | .check => t.Untouched
  | .read => t.Untouched ∧ w.state.contains t.name = true
  | .embed file f fs => t.Untouched ∧ ∀ embed : Embedder,
    Index.plan o t.name t.path (w.state.contains t.name) (readSource t.files t.path) embed =
      .renewing embed file (.ok (f :: fs))
  | .name file named pair todo => t.effect = none ∧ ∃ before,
    t.plan o w = .swap file (before ++ pair :: todo) ∧ t.drawn.length = before.length ∧
      named = recordsUnder file before (t.drawn.map w.ids)
  | .find rs => t.effect = none ∧ t.Ready o w rs
  | .delete rs stale => t.effect = none ∧ t.Ready o w rs ∧ stale.Perm (t.prior.map Record.id)
  | .store rs removed => t.effect = some [] ∧ t.Ready o w rs ∧ removed = t.prior.length
  | .finished outcome => t.Settled o w outcome

/-- What holds of a caller in its phase. -/
def Valid (o : Chunk.Options) (w : World Memory) (t : Track) : Prop :=
  match t.phase with
  | .idle => t.Untouched
  | .queued _ => t.Untouched
  | .inside _ progress => t.At o w progress
  | .leaving _ outcome => t.Settled o w outcome
  | .left outcome => t.Settled o w outcome

variable {o : Chunk.Options} {w : World Memory} {t : Track} {rs : List Record}

theorem Ready.contains (h : t.Ready o w rs) : w.state.contains t.name = true := by
  obtain ⟨file, pairs, hplan, -⟩ := h
  exact (plan_eq_swap_iff.1 hplan).1

theorem Ready.ids (h : t.Ready o w rs) : rs.map Record.id = t.drawn.map w.ids := by
  obtain ⟨file, pairs, -, hlength, rfl⟩ := h
  exact recordsUnder_ids (by rw [List.length_map, hlength])

theorem Ready.filePath (h : t.Ready o w rs) : ∀ r ∈ rs, r.payload.metadata.filePath = t.path := by
  obtain ⟨file, pairs, hplan, -, rfl⟩ := h
  intro r hr
  obtain ⟨-, source, -, -, hfile, -⟩ := plan_eq_swap_iff.1 hplan
  rw [filePath_of_mem_recordsUnder hr, hfile]
  rfl

theorem At.valid {progress : Progress} (h : t.At o w progress) (lock : LockId) :
    Track.Valid o w { t with phase := .inside lock progress } := by
  cases progress <;> exact h

theorem mem_of_mem_stored {m : Memory} {r : Record} (h : r ∈ stored m rs) : r ∈ rs := by
  unfold stored at h
  cases hrefusal : m.refusal rs with
  | some e =>
    rw [hrefusal] at h
    exact absurd h List.not_mem_nil
  | none =>
    rw [hrefusal] at h
    exact h

/-- What a caller has stored stands under identifiers that it has drawn. -/
theorem Valid.mem_drawn_of_effect (h : t.Valid o w) (heffect : t.effect = some rs) {r : Record}
    (hr : r ∈ rs) : r.id ∈ t.drawn.map w.ids := by
  have huntouched : ¬ t.Untouched := fun hno => by rw [hno.2] at heffect; cases heffect
  have hsettled : ∀ outcome, t.Settled o w outcome → r.id ∈ t.drawn.map w.ids := by
    rintro outcome (⟨-, hno⟩ | ⟨all, hready, -, hstored⟩)
    · exact absurd hno huntouched
    · rw [hstored] at heffect
      obtain rfl := Option.some.inj heffect
      exact hready.ids ▸ List.mem_map_of_mem (mem_of_mem_stored hr)
  unfold Valid at h
  cases hphase : t.phase with
  | idle => rw [hphase] at h; exact absurd h huntouched
  | queued lock => rw [hphase] at h; exact absurd h huntouched
  | leaving lock outcome => rw [hphase] at h; exact hsettled outcome h
  | left outcome => rw [hphase] at h; exact hsettled outcome h
  | inside lock progress =>
    rw [hphase] at h
    cases progress with
    | check => exact absurd h huntouched
    | read => exact absurd h.1 huntouched
    | embed file f fs => exact absurd h.1 huntouched
    | name file named pair todo => rw [h.1] at heffect; cases heffect
    | find all => rw [h.1] at heffect; cases heffect
    | delete all stale => rw [h.1] at heffect; cases heffect
    | store all removed =>
      rw [h.1] at heffect
      obtain rfl := Option.some.inj heffect
      exact absurd hr List.not_mem_nil
    | finished outcome => exact hsettled outcome h

/-! ### From stage to stage -/

theorem at_naming {file : Metadata} (before : List Pair) {todo : List Pair} {named : List Record}
    (heffect : t.effect = none) (hplan : t.plan o w = .swap file (before ++ todo))
    (hlength : t.drawn.length = before.length)
    (hnamed : named = recordsUnder file before (t.drawn.map w.ids)) :
    t.At o w (.naming file named todo) := by
  cases todo with
  | nil =>
    rw [List.append_nil] at hplan
    exact ⟨heffect, file, before, hplan, hlength, hnamed⟩
  | cons pair todo => exact ⟨heffect, before, hplan, hlength, hnamed⟩

theorem at_naming_of_name {file : Metadata} {named : List Record} {pair : Pair} {todo : List Pair}
    (h : t.At o w (.name file named pair todo)) (i : Nat) :
    Track.At o w { t with drawn := t.drawn ++ [i] }
      (.naming file (named ++ [fragmentRecord file pair.1 pair.2 (w.ids i)]) todo) := by
  obtain ⟨heffect, before, hplan, hlength, hnamed⟩ := h
  refine at_naming (t := { t with drawn := t.drawn ++ [i] }) (before ++ [pair]) heffect ?_ ?_ ?_
  · rw [List.append_assoc]
    exact hplan
  · simp [hlength]
  · rw [hnamed, recordsUnder, recordsUnder, List.map_append,
      List.zipWith_append (by simp [hlength])]
    rfl

theorem at_ofPlan (h : t.Untouched) : t.At o w (.ofPlan (t.plan o w)) := by
  cases hplan : t.plan o w with
  | keep outcome => exact .inl ⟨hplan, h⟩
  | swap file pairs =>
    exact at_naming [] h.2 hplan (congrArg List.length h.1) (by rw [h.1]; rfl)

theorem at_afterCheck (h : t.Untouched) :
    t.At o w (.afterCheck t.name (.ok (w.state.contains t.name))) := by
  rw [Progress.afterCheck]
  cases hpresent : w.state.contains t.name with
  | true => exact ⟨h, hpresent⟩
  | false =>
    refine .inl ⟨?_, h⟩
    unfold plan Index.plan
    rw [hpresent]
    rfl

theorem at_afterFound (h : t.Untouched) {file : Metadata}
    {found : Except IndexError (List Chunk.Fragment)}
    (hplan : ∀ embed : Embedder, Index.plan o t.name t.path (w.state.contains t.name)
      (readSource t.files t.path) embed = .renewing embed file found) :
    t.At o w (.afterFound file found) := by
  cases found with
  | error e => exact .inl ⟨hplan t.embed, h⟩
  | ok fs =>
    cases fs with
    | nil => exact ⟨h.2, file, [], hplan t.embed, by rw [h.1]; rfl, rfl⟩
    | cons f fs => exact ⟨h, hplan⟩

theorem at_afterRead (h : t.Untouched) (hpresent : w.state.contains t.name = true) :
    t.At o w (.afterRead o t.path (readSource t.files t.path)) := by
  cases hread : readSource t.files t.path with
  | error e =>
    refine .inl ⟨?_, h⟩
    unfold plan Index.plan
    rw [hpresent, hread]
    rfl
  | ok source =>
    by_cases htext : source.text = ""
    · have hempty : source.text.isEmpty = true := by simpa using htext
      simp only [Progress.afterRead, hempty, if_true]
      refine .inl ⟨?_, h⟩
      unfold plan Index.plan
      rw [hpresent, hread]
      simp only [Bool.not_true, Bool.false_eq_true, if_false, hempty, if_true]
    · have hempty : source.text.isEmpty = false := by simpa using htext
      simp only [Progress.afterRead, hempty, Bool.false_eq_true, if_false]
      refine at_afterFound h fun embed => ?_
      rw [hpresent, hread]
      exact plan_of_text o t.name t.path embed htext

theorem at_afterEmbed {file : Metadata} {f : Chunk.Fragment} {fs : List Chunk.Fragment}
    (h : t.At o w (.embed file f fs)) (embed : Embedder) :
    Track.At o w { t with embed }
      (.afterEmbed file (f :: fs) (embed ((f :: fs).map fragmentText))) := by
  have hplan : Track.plan o w { t with embed } =
      .renewing (fun _ => embed ((f :: fs).map fragmentText)) file (.ok (f :: fs)) := h.2 embed
  rw [Progress.afterEmbed, ← hplan]
  exact at_ofPlan h.1

end Track

end CodeIndex.Index
