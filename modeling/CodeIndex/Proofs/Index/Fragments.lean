import CodeIndex.Index.Reconcile
import CodeIndex.Proofs.Chunk.Basic
import CodeIndex.Proofs.JavaScript.Gap

/-! The fragments of a text: there are some, or the text does not follow the grammar, or the limits
for their sizes do not fit. -/

namespace CodeIndex.Index

open Chunk (chunked sizeBound)

variable {o : Chunk.Options} {text : String} {fs : List Chunk.Fragment} {e : IndexError}

theorem fragmentsOf_of_parse {tree : Syntax.Tree}
    (hparse : JavaScript.parse text.toList = .ok tree) :
    fragmentsOf o text = (Chunk.chunk o text.toList tree).mapError .fault := by
  rw [fragmentsOf, hparse]
  rfl

theorem fragmentsOf_of_unparsable {place : Syntax.Position}
    (hparse : JavaScript.parse text.toList = .error place) :
    fragmentsOf o text = .error (.chunk place) := by
  rw [fragmentsOf, hparse]
  rfl

theorem fragmentsOf_of_lt {tree : Syntax.Tree} (hparse : JavaScript.parse text.toList = .ok tree)
    (hsize : o.maxSize * 6 < sizeBound) :
    fragmentsOf o text = .ok (chunked o text.toList tree) := by
  rw [fragmentsOf_of_parse hparse, Chunk.chunk_of_lt hsize]
  rfl

theorem fragmentsOf_of_le {tree : Syntax.Tree} (hparse : JavaScript.parse text.toList = .ok tree)
    (hsize : sizeBound ≤ o.maxSize * 6) : fragmentsOf o text = .error (.fault .overflow) := by
  rw [fragmentsOf_of_parse hparse, Chunk.chunk_of_le hsize]
  rfl

theorem fragmentsOf_eq_ok_iff :
    fragmentsOf o text = .ok fs ↔ ∃ tree, JavaScript.parse text.toList = .ok tree ∧
      o.maxSize * 6 < sizeBound ∧ chunked o text.toList tree = fs := by
  cases hparse : JavaScript.parse text.toList with
  | error place => simp [fragmentsOf_of_unparsable hparse]
  | ok tree =>
    by_cases hsize : o.maxSize * 6 < sizeBound
    · simp [fragmentsOf_of_lt hparse hsize, hsize]
    · simp [fragmentsOf_of_le hparse (Nat.not_lt.1 hsize), hsize]

/-- A syntax error comes before a limit that does not fit. -/
theorem fragmentsOf_eq_error_iff :
    fragmentsOf o text = .error e ↔
      (∃ place, JavaScript.parse text.toList = .error place ∧ e = .chunk place) ∨
      (∃ tree, JavaScript.parse text.toList = .ok tree) ∧ sizeBound ≤ o.maxSize * 6 ∧
        e = .fault .overflow := by
  cases hparse : JavaScript.parse text.toList with
  | error place => simp [fragmentsOf_of_unparsable hparse, eq_comm]
  | ok tree =>
    by_cases hsize : o.maxSize * 6 < sizeBound
    · simp [fragmentsOf_of_lt hparse hsize, hsize]
    · simp [fragmentsOf_of_le hparse (Nat.not_lt.1 hsize), Nat.not_lt.1 hsize, eq_comm]

theorem fragmentsOf_ne_store {reason : Store.StoreError} :
    fragmentsOf o text ≠ .error (.store reason) := by
  intro h
  rcases fragmentsOf_eq_error_iff.1 h with ⟨_, -, he⟩ | ⟨-, -, he⟩ <;> cases he

theorem fragmentsOf_blank (hblank : Text.isAllBlank text.toList = true)
    (h : fragmentsOf o text = .ok fs) : fs = [] := by
  obtain ⟨tree, -, -, rfl⟩ := fragmentsOf_eq_ok_iff.1 h
  rw [chunked, Chunk.fragments_eq_nil_of_blank hblank]
  rfl

/-- A file with nothing but a byte order mark is one fragment, since the mark is not blank. -/
theorem fragmentsOf_mark :
    fragmentsOf {} "\uFEFF" = .ok [⟨0, ['\uFEFF'], 1, 1, .code, "program"⟩] := by
  have hparse : JavaScript.parse "\uFEFF".toList = .ok JavaScript.emptyProgram :=
    JavaScript.parse_gap (List.cons_ne_nil _ _) (List.forall_mem_singleton.2 (by decide))
  rw [fragmentsOf_of_lt hparse (by decide), Except.ok.injEq]
  decide +kernel

/-- The fragments of a text, with those of a byte order mark at hand: the parser is too large a
computation for a proof. -/
def knownFragments (text : String) : Except IndexError (List Chunk.Fragment) :=
  if text = "\uFEFF" then .ok [⟨0, ['\uFEFF'], 1, 1, .code, "program"⟩] else fragmentsOf {} text

theorem fragmentsOf_eq_known (text : String) : fragmentsOf {} text = knownFragments text := by
  unfold knownFragments
  split
  next h => rw [h, fragmentsOf_mark]
  next => rfl

end CodeIndex.Index
