import CodeIndex.Index.Locks
import Mathlib.Logic.Function.Basic

/-! Mutual exclusion.  Whoever keeps a lock finds it under the key for which it was asked, so that two
who keep locks for one key keep the same lock, and of these only one can hold it. -/

namespace CodeIndex.Index

namespace Locks

variable {l : Locks} {key name : String} {lock : LockId}

theorem lockFor_of_known (h : l.prune.entries.lookup key = some lock) :
    l.lockFor key = (lock, { l.prune with keepers := lock :: l.keepers }) := by
  rw [lockFor, h]
  rfl

theorem lockFor_of_unknown (h : l.prune.entries.lookup key = none) :
    l.lockFor key = (l.next, { l.prune with
      entries := (key, l.next) :: l.prune.entries
      keepers := l.next :: l.keepers
      next := l.next + 1 }) := by
  rw [lockFor, h]
  rfl

theorem keepers_lockFor (l : Locks) (key : String) :
    (l.lockFor key).2.keepers = (l.lockFor key).1 :: l.keepers := by
  cases h : l.prune.entries.lookup key with
  | some lock => rw [lockFor_of_known h]
  | none => rw [lockFor_of_unknown h]

theorem held_lockFor (l : Locks) (key : String) : (l.lockFor key).2.held = l.held := by
  cases h : l.prune.entries.lookup key with
  | some lock => rw [lockFor_of_known h]; rfl
  | none => rw [lockFor_of_unknown h]; rfl

theorem lookup_lockFor_self (l : Locks) (key : String) :
    (l.lockFor key).2.entries.lookup key = some (l.lockFor key).1 := by
  cases h : l.prune.entries.lookup key with
  | some lock =>
    rw [lockFor_of_known h]
    exact h
  | none =>
    rw [lockFor_of_unknown h]
    exact List.lookup_cons_self

/-- A lock that somebody keeps is found as before. -/
theorem lookup_lockFor (h : l.prune.entries.lookup name = some lock) (key : String) :
    (l.lockFor key).2.entries.lookup name = some lock := by
  cases hlookup : l.prune.entries.lookup key with
  | some found =>
    rw [lockFor_of_known hlookup]
    exact h
  | none =>
    have hname : (name == key) = false := by
      refine beq_eq_false_iff_ne.2 fun hsame => ?_
      rw [← hsame, h] at hlookup
      cases hlookup
    rw [lockFor_of_unknown hlookup]
    dsimp only
    rw [List.lookup_cons, hname]
    exact h

end Locks

/-- The locks that clients keep and hold: `kept` tells the lock that a client asked for, for its
`key`, and `held` the lock that it has taken. -/
structure Guarded (l : Locks) (key : Nat → String) (kept held : Nat → Option LockId) : Prop where
  known : ∀ k lock, kept k = some lock → l.entries.lookup (key k) = some lock
  /-- A lock is listed as often as there are clients who keep it. -/
  counted : ∀ lock (ks : List Nat), ks.Nodup → (∀ k ∈ ks, kept k = some lock) →
    ks.length ≤ l.keepers.count lock
  kept_of_held : ∀ k lock, held k = some lock → kept k = some lock
  taken : ∀ k lock, held k = some lock → lock ∈ l.held
  sole : ∀ j k lock, held j = some lock → held k = some lock → j = k

namespace Guarded

variable {l : Locks} {key : Nat → String} {kept held : Nat → Option LockId} {j k : Nat}
  {lock other : LockId}

theorem init (l : Locks) (key : Nat → String) : Guarded l key (fun _ => none) fun _ => none where
  known _ _ h := nomatch h
  counted lock ks _ h := by
    cases ks with
    | nil => exact Nat.zero_le _
    | cons k ks => exact nomatch h k List.mem_cons_self
  kept_of_held _ _ h := nomatch h
  taken _ _ h := nomatch h
  sole _ _ _ h := nomatch h

theorem mem_keepers (h : Guarded l key kept held) (hk : kept k = some lock) :
    lock ∈ l.keepers := by
  have hcount := h.counted lock [k] (by simp) (by simpa using hk)
  exact List.count_pos_iff.1 hcount

/-- Two who hold locks for one key are the same. -/
theorem exclusive (h : Guarded l key kept held) (hj : held j = some lock)
    (hk : held k = some other) (hkey : key j = key k) : j = k := by
  have hfirst := h.known j lock (h.kept_of_held j lock hj)
  have hsecond := h.known k other (h.kept_of_held k other hk)
  rw [hkey, hsecond] at hfirst
  obtain rfl := Option.some.inj hfirst
  exact h.sole j k other hj hk

/-- The lock of a client is not free while another holds a lock for the same key. -/
theorem not_isFree (h : Guarded l key kept held) (hj : kept j = some lock)
    (hk : held k = some other) (hkey : key j = key k) : l.isFree lock = false := by
  have hfirst := h.known j lock hj
  have hsecond := h.known k other (h.kept_of_held k other hk)
  rw [hkey, hsecond] at hfirst
  obtain rfl := Option.some.inj hfirst
  simpa [Locks.isFree] using h.taken k other hk

theorem lookup_filter {entries : List (String × LockId)} {name : String} {p : String × LockId → Bool}
    (h : entries.lookup name = some lock) (hp : p (name, lock) = true) :
    (entries.filter p).lookup name = some lock := by
  induction entries with
  | nil => cases h
  | cons e rest ih =>
    obtain ⟨first, id⟩ := e
    by_cases hname : name = first
    · subst hname
      rw [List.lookup_cons_self] at h
      obtain rfl := Option.some.inj h
      rw [List.filter_cons_of_pos hp, List.lookup_cons_self]
    · have hskip : (name == first) = false := beq_eq_false_iff_ne.2 hname
      rw [List.lookup_cons, hskip] at h
      rw [List.filter_cons]
      split
      · rw [List.lookup_cons, hskip]
        exact ih h
      · exact ih h

theorem known_prune (h : Guarded l key kept held) (hk : kept k = some lock) :
    l.prune.entries.lookup (key k) = some lock :=
  lookup_filter (h.known k lock hk) (List.contains_iff_mem.2 (h.mem_keepers hk))

/-- One more keeps a lock, once it is listed and found under the key. -/
theorem obtained (h : Guarded l key kept held) (hnone : kept k = none) {l' : Locks}
    (hknown : ∀ j other, kept j = some other → l'.entries.lookup (key j) = some other)
    (hself : l'.entries.lookup (key k) = some lock) (hkeepers : l'.keepers = lock :: l.keepers)
    (hheld : l'.held = l.held) :
    Guarded l' key (Function.update kept k (some lock)) held where
  known j other hj := by
    by_cases hjk : j = k
    · subst hjk
      rw [Function.update_self] at hj
      obtain rfl := Option.some.inj hj
      exact hself
    · rw [Function.update_of_ne hjk] at hj
      exact hknown j other hj
  counted other ks hks hkept := by
    -- without the new client, those in the list kept the lock before
    have hbefore : ∀ j ∈ ks.erase k, kept j = some other := fun j hj => by
      have hjk : j ≠ k := ((List.Nodup.mem_erase_iff hks).1 hj).1
      have := hkept j (List.mem_of_mem_erase hj)
      rwa [Function.update_of_ne hjk] at this
    have hcount := h.counted other (ks.erase k) (hks.erase k) hbefore
    rw [hkeepers, List.count_cons]
    by_cases hk : k ∈ ks
    · have hsame := hkept k hk
      rw [Function.update_self] at hsame
      rw [List.length_erase_of_mem hk] at hcount
      simp only [Option.some.inj hsame, beq_self_eq_true, if_true]
      omega
    · rw [List.erase_of_not_mem hk] at hcount
      omega
  kept_of_held j other hj := by
    have hjk : j ≠ k := by
      rintro rfl
      rw [h.kept_of_held j other hj] at hnone
      cases hnone
    rw [Function.update_of_ne hjk]
    exact h.kept_of_held j other hj
  taken j other hj := hheld ▸ h.taken j other hj
  sole := h.sole

/-- Whoever asks for a lock keeps the lock that the others keep for the same key. -/
theorem lockFor (h : Guarded l key kept held) (hnone : kept k = none) :
    Guarded (l.lockFor (key k)).2 key (Function.update kept k (some (l.lockFor (key k)).1)) held :=
  h.obtained hnone (fun _ _ hj => Locks.lookup_lockFor (h.known_prune hj) (key k))
    (l.lookup_lockFor_self (key k)) (l.keepers_lockFor (key k)) (l.held_lockFor (key k))

theorem acquire (h : Guarded l key kept held) (hk : kept k = some lock)
    (hfree : l.isFree lock = true) :
    Guarded (l.acquire lock) key kept (Function.update held k (some lock)) := by
  have hout : lock ∉ l.held := by simpa [Locks.isFree] using hfree
  refine ⟨h.known, h.counted, ?_, ?_, ?_⟩
  · intro j other hj
    by_cases hjk : j = k
    · subst hjk
      rw [Function.update_self] at hj
      rw [hk, hj]
    · rw [Function.update_of_ne hjk] at hj
      exact h.kept_of_held j other hj
  · intro j other hj
    by_cases hjk : j = k
    · subst hjk
      rw [Function.update_self] at hj
      obtain rfl := Option.some.inj hj
      exact List.mem_cons_self
    · rw [Function.update_of_ne hjk] at hj
      exact List.mem_cons_of_mem _ (h.taken j other hj)
  · intro i j other hi hj
    by_cases hik : i = k <;> by_cases hjk : j = k
    · rw [hik, hjk]
    · subst hik
      rw [Function.update_self] at hi
      rw [Function.update_of_ne hjk] at hj
      exact absurd (Option.some.inj hi ▸ h.taken j other hj) hout
    · subst hjk
      rw [Function.update_self] at hj
      rw [Function.update_of_ne hik] at hi
      exact absurd (Option.some.inj hj ▸ h.taken i other hi) hout
    · rw [Function.update_of_ne hik] at hi
      rw [Function.update_of_ne hjk] at hj
      exact h.sole i j other hi hj

theorem release (h : Guarded l key kept held) (hk : held k = some lock) :
    Guarded (l.release lock) key kept (Function.update held k none) := by
  -- those who still hold a lock are others, and it is another lock
  have hothers : ∀ j other, Function.update held k none j = some other →
      held j = some other ∧ j ≠ k := by
    intro j other hj
    by_cases hjk : j = k
    · rw [hjk, Function.update_self] at hj
      cases hj
    · rw [Function.update_of_ne hjk] at hj
      exact ⟨hj, hjk⟩
  refine ⟨h.known, h.counted, ?_, ?_, ?_⟩
  · exact fun j other hj => h.kept_of_held j other (hothers j other hj).1
  · intro j other hj
    obtain ⟨hheld, hjk⟩ := hothers j other hj
    have hne : other ≠ lock := by
      rintro rfl
      exact hjk (h.sole j k other hheld hk)
    exact (List.mem_erase_of_ne hne).2 (h.taken j other hheld)
  · exact fun i j other hi hj => h.sole i j other (hothers i other hi).1 (hothers j other hj).1

theorem forget (h : Guarded l key kept held) (hk : kept k = some lock) (hfree : held k = none) :
    Guarded (l.forget lock) key (Function.update kept k none) held := by
  have hothers : ∀ j other, Function.update kept k none j = some other →
      kept j = some other ∧ j ≠ k := by
    intro j other hj
    by_cases hjk : j = k
    · rw [hjk, Function.update_self] at hj
      cases hj
    · rw [Function.update_of_ne hjk] at hj
      exact ⟨hj, hjk⟩
  refine ⟨fun j other hj => h.known j other (hothers j other hj).1, ?_, ?_, h.taken, h.sole⟩
  · intro other ks hks hkept
    by_cases hlock : other = lock
    · subst hlock
      -- together with the one who forgets the lock, there was one keeper more
      have hout : k ∉ ks := fun hk => (hothers k other (hkept k hk)).2 rfl
      have hcount := h.counted other (k :: ks) (List.nodup_cons.2 ⟨hout, hks⟩) (by
        intro j hj
        rcases List.mem_cons.1 hj with rfl | hj
        · exact hk
        · exact (hothers j other (hkept j hj)).1)
      rw [List.length_cons] at hcount
      show ks.length ≤ (l.keepers.erase other).count other
      rw [List.count_erase_self]
      omega
    · show ks.length ≤ (l.keepers.erase lock).count other
      rw [List.count_erase_of_ne hlock]
      exact h.counted other ks hks fun j hj => (hothers j other (hkept j hj)).1
  · intro j other hj
    have hjk : j ≠ k := by
      rintro rfl
      rw [hfree] at hj
      cases hj
    rw [Function.update_of_ne hjk]
    exact h.kept_of_held j other hj

end Guarded

end CodeIndex.Index
