import CodeIndex.Proofs.Index.Exclusion
import Mathlib.Data.List.Nodup

/-! Clients at work with locks.  A client asks for the lock of its file, waits for it, takes it,
gives it up and forgets it; of any number of clients, each takes its next step at any time.  What a
client keeps is known for its file as long as the client keeps it, and what nobody keeps is
forgotten as soon as anybody asks for a lock. -/

namespace CodeIndex.Index

namespace Locks

variable {l : Locks} {key : String} {e : String × LockId}

/-- Besides the lock that was asked for, those are known that were known before and that somebody
keeps. -/
theorem mem_entries_lockFor (he : e ∈ (l.lockFor key).2.entries)
    (hne : e ≠ (key, (l.lockFor key).1)) : e ∈ l.entries ∧ e.2 ∈ l.keepers := by
  have hpruned : e ∈ l.prune.entries := by
    cases hlookup : l.prune.entries.lookup key with
    | some lock =>
      rw [lockFor_of_known hlookup] at he
      exact he
    | none =>
      rw [lockFor_of_unknown hlookup] at he hne
      exact (List.mem_cons.1 he).resolve_left hne
  obtain ⟨hmem, hkeeper⟩ := List.mem_filter.1 hpruned
  exact ⟨hmem, List.contains_iff_mem.1 hkeeper⟩

theorem mem_of_lookup {entries : List (String × LockId)} {lock : LockId}
    (h : entries.lookup key = some lock) : (key, lock) ∈ entries := by
  obtain ⟨before, after, rfl, -⟩ := List.lookup_eq_some_iff.1 h
  exact List.mem_append_right _ List.mem_cons_self

end Locks

/-- The books of the locks: who is listed as keeping a lock keeps it, and the locks that are known
are apart from each other. -/
structure Tallied (l : Locks) (kept : Nat → Option LockId) : Prop where
  keepers : ∃ ks : List Nat, ks.Nodup ∧ (∀ k, k ∈ ks ↔ kept k ≠ none) ∧
    l.keepers.Perm (ks.filterMap kept)
  ids : (l.entries.map Prod.snd).Nodup
  below : ∀ e ∈ l.entries, e.2 < l.next

namespace Tallied

variable {l : Locks} {kept : Nat → Option LockId} {k : Nat} {key : String} {lock : LockId}

theorem init : Tallied {} fun _ => none where
  keepers := ⟨[], List.nodup_nil, fun _ => by simp, .nil⟩
  ids := List.nodup_nil
  below _ he := absurd he List.not_mem_nil

theorem exists_keeper (h : Tallied l kept) (hlock : lock ∈ l.keepers) :
    ∃ k, kept k = some lock := by
  obtain ⟨ks, -, -, hperm⟩ := h.keepers
  obtain ⟨k, -, hk⟩ := List.mem_filterMap.1 (hperm.mem_iff.1 hlock)
  exact ⟨k, hk⟩

/-- A lock is known for one key only. -/
theorem entry_eq (h : Tallied l kept) {e f : String × LockId} (he : e ∈ l.entries)
    (hf : f ∈ l.entries) (hid : e.2 = f.2) : e = f :=
  List.inj_on_of_nodup_map h.ids he hf hid

theorem prune (h : Tallied l kept) : Tallied l.prune kept where
  keepers := h.keepers
  ids := h.ids.sublist (List.filter_sublist.map _)
  below e he := h.below e (List.mem_of_mem_filter he)

theorem below_succ (h : Tallied l kept) {e : String × LockId}
    (he : e ∈ (key, l.next) :: l.entries) : e.2 < l.next + 1 := by
  rcases List.mem_cons.1 he with rfl | he
  · exact Nat.lt_succ_self _
  · exact Nat.lt_succ_of_lt (h.below e he)

/-- The number of a new lock is greater than those that are known. -/
theorem nodup_new (h : Tallied l kept) (key : String) :
    (((key, l.next) :: l.entries).map Prod.snd).Nodup := by
  refine List.nodup_cons.2 ⟨fun hmem => ?_, h.ids⟩
  obtain ⟨e, he, hsame⟩ := List.mem_map.1 hmem
  exact absurd hsame (Nat.ne_of_lt (h.below e he))

/-- One more keeps a lock. -/
theorem listed (h : Tallied l kept) (hnone : kept k = none) (lock : LockId) :
    ∃ ks : List Nat, ks.Nodup ∧ (∀ j, j ∈ ks ↔ Function.update kept k (some lock) j ≠ none) ∧
      (lock :: l.keepers).Perm (ks.filterMap (Function.update kept k (some lock))) := by
  obtain ⟨ks, hks, hmem, hperm⟩ := h.keepers
  have hout : k ∉ ks := fun hk => (hmem k).1 hk hnone
  have hothers : ks.filterMap (Function.update kept k (some lock)) = ks.filterMap kept := by
    refine List.filterMap_congr fun j hj => Function.update_of_ne ?_ _ _
    rintro rfl
    exact hout hj
  refine ⟨k :: ks, List.nodup_cons.2 ⟨hout, hks⟩, fun j => ?_, ?_⟩
  · by_cases hjk : j = k
    · subst hjk
      simp
    · rw [Function.update_of_ne hjk, ← hmem j, List.mem_cons, or_iff_right hjk]
  · rw [List.filterMap_cons_some (Function.update_self _ _ _), hothers]
    exact hperm.cons lock

theorem lockFor (h : Tallied l kept) (hnone : kept k = none) (key : String) :
    Tallied (l.lockFor key).2 (Function.update kept k (some (l.lockFor key).1)) := by
  have hkeepers := h.listed hnone (l.lockFor key).1
  rw [← l.keepers_lockFor key] at hkeepers
  cases hlookup : l.prune.entries.lookup key with
  | some lock =>
    rw [Locks.lockFor_of_known hlookup] at hkeepers ⊢
    exact ⟨hkeepers, h.prune.ids, h.prune.below⟩
  | none =>
    rw [Locks.lockFor_of_unknown hlookup] at hkeepers ⊢
    exact ⟨hkeepers, h.prune.nodup_new key, fun _ he => h.prune.below_succ he⟩

theorem forget (h : Tallied l kept) (hk : kept k = some lock) :
    Tallied (l.forget lock) (Function.update kept k none) := by
  obtain ⟨ks, hks, hmem, hperm⟩ := h.keepers
  have hin : k ∈ ks := (hmem k).2 (by rw [hk]; exact Option.some_ne_none lock)
  refine ⟨⟨ks.erase k, hks.erase k, fun j => ?_, ?_⟩, h.ids, h.below⟩
  · by_cases hjk : j = k
    · subst hjk
      simp [hks.not_mem_erase]
    · rw [Function.update_of_ne hjk, List.mem_erase_of_ne hjk, hmem j]
  · have hothers : (ks.erase k).filterMap (Function.update kept k none) =
        (ks.erase k).filterMap kept :=
      List.filterMap_congr fun j hj => Function.update_of_ne (hks.mem_erase_iff.1 hj).1 _ _
    have hfirst : (ks.filterMap kept).Perm (lock :: (ks.erase k).filterMap kept) := by
      have := (List.perm_cons_erase hin).filterMap kept
      rwa [List.filterMap_cons_some hk] at this
    rw [hothers]
    have := (hperm.trans hfirst).erase lock
    rwa [List.erase_cons_head] at this

end Tallied

/-! ### Clients step by step -/

namespace Clients

/-- Where a client stands with the lock of its file. -/
inductive Stage where
  | outside
  | waiting (lock : LockId)
  | inside (lock : LockId)
  | leaving (lock : LockId)
  | gone
  deriving DecidableEq, Repr

def Stage.kept : Stage → Option LockId
  | outside => none
  | waiting lock => some lock
  | inside lock => some lock
  | leaving lock => some lock
  | gone => none

def Stage.held : Stage → Option LockId
  | inside lock => some lock
  | _ => none

/-- What can happen next. -/
inductive Move where
  /-- A client takes its next step. -/
  | advance (k : Nat)
  /-- A client that waits for its lock waits no longer. -/
  | giveUp (k : Nat)
  deriving DecidableEq, Repr

end Clients

/-- The locks, and the stages of those who use them. -/
structure Clients where
  locks : Locks := {}
  stage : Nat → Clients.Stage := fun _ => .outside

namespace Clients

/-- The files of collections that the clients work on, by the numbers of the clients. -/
abbrev Slots := Nat → String × String

def key (slot : Slots) (k : Nat) : String := lockKey (slot k).1 (slot k).2

def kept (s : Clients) (k : Nat) : Option LockId := (s.stage k).kept

def held (s : Clients) (k : Nat) : Option LockId := (s.stage k).held

/-- A client goes to a stage and leaves the locks so. -/
def put (s : Clients) (k : Nat) (locks : Locks) (stage : Stage) : Clients :=
  ⟨locks, Function.update s.stage k stage⟩

/-- The next step of a client.  It stays where it is while another holds the lock. -/
def advance (slot : Slots) (s : Clients) (k : Nat) : Clients :=
  match s.stage k with
  | .outside =>
    let (lock, locks) := s.locks.lockFor (key slot k)
    s.put k locks (.waiting lock)
  | .waiting lock =>
    if s.locks.isFree lock then s.put k (s.locks.acquire lock) (.inside lock) else s
  | .inside lock => s.put k (s.locks.release lock) (.leaving lock)
  | .leaving lock => s.put k (s.locks.forget lock) .gone
  | .gone => s

def giveUp (s : Clients) (k : Nat) : Clients :=
  match s.stage k with
  | .waiting lock => s.put k (s.locks.forget lock) .gone
  | _ => s

def step (slot : Slots) (s : Clients) : Move → Clients
  | .advance k => s.advance slot k
  | .giveUp k => s.giveUp k

def run (slot : Slots) (s : Clients) (moves : List Move) : Clients := moves.foldl (step slot) s

variable {slot : Slots} {s : Clients} {j k : Nat} {locks : Locks} {stage : Stage}
  {lock other : LockId}

theorem run_append (slot : Slots) (s : Clients) (before after : List Move) :
    s.run slot (before ++ after) = (s.run slot before).run slot after :=
  List.foldl_append

theorem key_eq_of_slot_eq (h : slot j = slot k) : key slot j = key slot k := by
  rw [key, key, h]

@[simp] theorem stage_put_self : (s.put k locks stage).stage k = stage := Function.update_self ..

theorem stage_put_of_ne (h : j ≠ k) : (s.put k locks stage).stage j = s.stage j :=
  Function.update_of_ne h ..

theorem kept_put : (s.put k locks stage).kept = Function.update s.kept k stage.kept :=
  Function.comp_update Stage.kept s.stage k stage

theorem held_put : (s.put k locks stage).held = Function.update s.held k stage.held :=
  Function.comp_update Stage.held s.stage k stage

theorem kept_put_same (h : stage.kept = s.kept k) : (s.put k locks stage).kept = s.kept := by
  rw [kept_put, h, Function.update_eq_self]

theorem held_put_same (h : stage.held = s.held k) : (s.put k locks stage).held = s.held := by
  rw [held_put, h, Function.update_eq_self]

/-- The locks are guarded, and the books are right. -/
structure Sound (slot : Slots) (s : Clients) : Prop where
  guarded : Guarded s.locks (key slot) s.kept s.held
  tallied : Tallied s.locks s.kept

namespace Sound

theorem init (slot : Slots) : Sound slot {} := ⟨Guarded.init _ _, Tallied.init⟩

theorem ask (h : Sound slot s) (hk : s.stage k = .outside) :
    Sound slot (s.put k (s.locks.lockFor (key slot k)).2
      (.waiting (s.locks.lockFor (key slot k)).1)) := by
  have hkept : s.kept k = none := by rw [kept, hk]; rfl
  have hheld : Stage.held (.waiting (s.locks.lockFor (key slot k)).1) = s.held k := by
    rw [held, hk]; rfl
  constructor
  · rw [kept_put, held_put_same hheld]
    exact h.guarded.lockFor hkept
  · rw [kept_put]
    exact h.tallied.lockFor hkept _

theorem acquire (h : Sound slot s) (hk : s.stage k = .waiting lock)
    (hfree : s.locks.isFree lock = true) :
    Sound slot (s.put k (s.locks.acquire lock) (.inside lock)) := by
  have hkept : Stage.kept (.inside lock) = s.kept k := by rw [kept, hk]; rfl
  constructor
  · rw [kept_put_same hkept, held_put]
    exact h.guarded.acquire hkept.symm hfree
  · rw [kept_put_same hkept]
    exact { h.tallied with }

theorem release (h : Sound slot s) (hk : s.stage k = .inside lock) :
    Sound slot (s.put k (s.locks.release lock) (.leaving lock)) := by
  have hkept : Stage.kept (.leaving lock) = s.kept k := by rw [kept, hk]; rfl
  have hheld : s.held k = some lock := by rw [held, hk]; rfl
  constructor
  · rw [kept_put_same hkept, held_put]
    exact h.guarded.release hheld
  · rw [kept_put_same hkept]
    exact { h.tallied with }

theorem forget (h : Sound slot s) (hkept : s.kept k = some lock) (hheld : s.held k = none) :
    Sound slot (s.put k (s.locks.forget lock) .gone) := by
  have hgone : Stage.held .gone = s.held k := hheld.symm
  constructor
  · rw [kept_put, held_put_same hgone]
    exact h.guarded.forget hkept hheld
  · rw [kept_put]
    exact h.tallied.forget hkept

theorem step (h : Sound slot s) (move : Move) : Sound slot (s.step slot move) := by
  cases move with
  | advance k =>
    rw [Clients.step, advance]
    cases hk : s.stage k with
    | outside => exact h.ask hk
    | waiting lock =>
      dsimp only
      split
      · next hfree => exact h.acquire hk hfree
      · exact h
    | inside lock => exact h.release hk
    | leaving lock => exact h.forget (by rw [kept, hk]; rfl) (by rw [held, hk]; rfl)
    | gone => exact h
  | giveUp k =>
    rw [Clients.step, giveUp]
    cases hk : s.stage k with
    | waiting lock => exact h.forget (by rw [kept, hk]; rfl) (by rw [held, hk]; rfl)
    | _ => exact h

theorem run (h : Sound slot s) (moves : List Move) : Sound slot (s.run slot moves) := by
  induction moves generalizing s with
  | nil => exact h
  | cons move moves ih => exact ih (h.step move)

/-- Two who keep locks keep the same one if and only if they asked for the same key. -/
theorem lock_eq_iff (h : Sound slot s) (hj : s.kept j = some lock) (hk : s.kept k = some other) :
    lock = other ↔ key slot j = key slot k := by
  have hfirst := h.guarded.known j lock hj
  have hsecond := h.guarded.known k other hk
  constructor
  · intro hsame
    have hentry := h.tallied.entry_eq (Locks.mem_of_lookup hfirst)
      (Locks.mem_of_lookup hsecond) hsame
    exact congrArg Prod.fst hentry
  · intro hkey
    rw [hkey, hsecond] at hfirst
    exact (Option.some.inj hfirst).symm

/-- Forgetting what nobody keeps leaves everybody the lock that they keep. -/
theorem known_lockFor (h : Sound slot s) (hk : s.kept k = some lock) (name : String) :
    (s.locks.lockFor name).2.entries.lookup (key slot k) = some lock :=
  Locks.lookup_lockFor (h.guarded.known_prune hk) name

/-- Whatever else is known after somebody has asked for a lock is kept by a client. -/
theorem exists_client (h : Sound slot s) {name : String} {e : String × LockId}
    (he : e ∈ (s.locks.lockFor name).2.entries) (hne : e ≠ (name, (s.locks.lockFor name).1)) :
    ∃ k, key slot k = e.1 ∧ s.kept k = some e.2 := by
  obtain ⟨hbefore, hkeeper⟩ := Locks.mem_entries_lockFor he hne
  obtain ⟨k, hk⟩ := h.tallied.exists_keeper hkeeper
  have hentry := h.tallied.entry_eq (Locks.mem_of_lookup (h.guarded.known k e.2 hk)) hbefore rfl
  exact ⟨k, congrArg Prod.fst hentry, hk⟩

end Sound

/-- Locks exclude and expire.  After any moves, whoever keeps a lock finds it under the key for
which it was asked, also after a lock is asked for, whatever the key.  Of those who keep locks for
one file, all keep the same one, and no two are inside.  Once a lock is asked for, each of the others
that are known is kept by somebody who asked for its key. -/
theorem locks_exclude_and_expire (slot : Slots) (moves : List Move) {s : Clients}
    (hs : run slot {} moves = s) :
    (∀ k lock, s.kept k = some lock → s.locks.entries.lookup (key slot k) = some lock ∧
      ∀ name, (s.locks.lockFor name).2.entries.lookup (key slot k) = some lock) ∧
    (∀ j k lock other, slot j = slot k → s.kept j = some lock → s.kept k = some other →
      lock = other ∧ (j ≠ k → s.held j = none ∨ s.held k = none)) ∧
    ∀ name, ∀ e ∈ (s.locks.lockFor name).2.entries, e ≠ (name, (s.locks.lockFor name).1) →
      ∃ k, key slot k = e.1 ∧ s.kept k = some e.2 := by
  have hsound : Sound slot s := hs ▸ (Sound.init slot).run moves
  refine ⟨fun k lock hk => ?_, fun j k lock other hslot hj hk => ?_, fun name e he hne => ?_⟩
  · exact ⟨hsound.guarded.known k lock hk, hsound.known_lockFor hk⟩
  · have hkey : key slot j = key slot k := key_eq_of_slot_eq hslot
    refine ⟨(hsound.lock_eq_iff hj hk).2 hkey, fun hjk => ?_⟩
    cases hheld : s.held j with
    | none => exact .inl rfl
    | some first =>
      cases hother : s.held k with
      | none => exact .inr rfl
      | some second => exact absurd (hsound.guarded.exclusive hheld hother hkey) hjk
  · exact hsound.exists_client he hne

/-- Two clients at one file and a third at another. -/
def crowd : Slots
  | 0 => ("docs", "a.js")
  | 1 => ("docs", "a.js")
  | _ => ("docs", "b.js")

/-- The first is inside and the second waits for it; the third has come and gone. -/
theorem locks_exclude_and_expire_crowd :
    let s := run crowd {} [.advance 0, .advance 1, .advance 2, .advance 2, .advance 0, .advance 1,
      .advance 2, .advance 2]
    (s.locks.entries.lookup "docs\x00a.js" = some 0 ∧
      ∀ name, (s.locks.lockFor name).2.entries.lookup "docs\x00a.js" = some 0) ∧
    (s.held 0 = some 0 ∧ s.kept 1 = some 0 ∧ (s.held 0 = none ∨ s.held 1 = none)) ∧
    ∃ k, key crowd k = "docs\x00a.js" ∧ s.kept k = some 0 := by
  intro s
  have h := locks_exclude_and_expire crowd _ (rfl : _ = s)
  refine ⟨h.1 0 0 (by decide), ⟨by decide, by decide, ?_⟩, ?_⟩
  · exact (h.2.1 0 1 0 0 rfl (by decide) (by decide)).2 (by decide)
  · exact h.2.2 "docs\x00c.js" ("docs\x00a.js", 0) (by decide) (by decide)

end Clients

end CodeIndex.Index
