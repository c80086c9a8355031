import CodeIndex.Proofs.Sorting.Insertion
import CodeIndex.Proofs.Store.Contents
import CodeIndex.Proofs.Store.Refinement
import Mathlib.Data.Multiset.Sort
import Mathlib.Data.Prod.Lex
import Mathlib.Data.String.Basic

/-! The texts of a file's records.  They are listed in the order of the lines that they span and of
the texts themselves.  What this order leaves undecided are records with the same lines and the same
text, so that neither the identifiers of the records nor what was stored before has a part in the
list. -/

namespace CodeIndex.Store

/-- What the texts of a file are ordered by: first line, last line, and text. -/
abbrev Excerpt := ℕ ×ₗ ℕ ×ₗ String

def Excerpt.text (e : Excerpt) : String := (ofLex (ofLex e).2).2

def Record.excerpt (r : Record) : Excerpt :=
  toLex (r.payload.metadata.startLine.toNat,
    toLex (r.payload.metadata.endLine.toNat, r.payload.code))

theorem Record.spanBefore_iff (a b : Record) :
    a.spanBefore b = true ↔ a.excerpt < b.excerpt := by
  simp only [spanBefore, excerpt, Prod.Lex.toLex_lt_toLex, Bool.or_eq_true, Bool.and_eq_true,
    decide_eq_true_eq, beq_iff_eq, UInt64.lt_iff_toNat_lt, UInt64.toNat_inj]

namespace Memory

variable {m n : Memory} {name other path file : String}

/-- The excerpts that the records of a file hold, each as often as there are such records. -/
def excerpts (m : Memory) (name path : String) : Multiset Excerpt :=
  (m.fileRecords name path).map Record.excerpt

theorem contents_eq (m : Memory) (name path : String) :
    m.contents name path =
      (Sorting.insertionSort Record.spanBefore (m.fileRecords name path)).map (·.payload.code) := by
  rw [contents, fileRecords]
  cases m.collections.get? name with
  | none => rfl
  | some c => rfl

theorem count?_getD (m : Memory) (name path : String) :
    (m.count? name path).getD 0 = (m.fileRecords name path).length := by
  rw [count?, fileRecords]
  cases m.collections.get? name with
  | none => rfl
  | some c => rfl

/-- The excerpts in ascending order. -/
def listing (m : Memory) (name path : String) : List Excerpt :=
  (Sorting.insertionSort Record.spanBefore (m.fileRecords name path)).map Record.excerpt

theorem listing_pairwise (m : Memory) (name path : String) :
    (m.listing name path).Pairwise (· ≤ ·) :=
  List.pairwise_map.2 (Sorting.insertionSort_keys Record.spanBefore_iff _)

theorem coe_listing (m : Memory) (name path : String) :
    (m.listing name path : Multiset Excerpt) = m.excerpts name path :=
  Multiset.coe_eq_coe.2 ((Sorting.insertionSort_perm _).map _)

theorem contents_eq_texts (m : Memory) (name path : String) :
    m.contents name path = (m.listing name path).map Excerpt.text := by
  rw [contents_eq, listing, List.map_map]
  rfl

/-- The listing is determined by what it lists. -/
theorem listing_eq_sort (m : Memory) (name path : String) :
    m.listing name path = (m.excerpts name path).sort := by
  refine List.Perm.eq_of_pairwise (fun a b _ _ => le_antisymm) (m.listing_pairwise name path)
    (Multiset.pairwise_sort _ _) (Multiset.coe_eq_coe.1 ?_)
  rw [coe_listing, Multiset.sort_eq]

/-- Two stores whose records of a file hold the same excerpts list the same texts for it, whatever
identifiers the records have and whatever was stored and taken away before.  There are as many texts
as records, in the order of their lines and then of the texts. -/
theorem contents_forget_history (h : m.excerpts name path = n.excerpts other file) :
    m.contents name path = n.contents other file ∧
    (m.contents name path).length = (m.count? name path).getD 0 ∧
    ∃ es : List Excerpt, es.Pairwise (· ≤ ·) ∧ (es : Multiset Excerpt) = m.excerpts name path ∧
      m.contents name path = es.map Excerpt.text := by
  refine ⟨?_, ?_, m.listing name path, m.listing_pairwise name path, m.coe_listing name path,
    m.contents_eq_texts name path⟩
  · rw [contents_eq_texts, contents_eq_texts, listing_eq_sort, listing_eq_sort, h]
  · rw [contents_eq, count?_getD, List.length_map, (Sorting.insertionSort_perm _).length_eq]

end Memory

/-- A record of a file, of one line and without vectors. -/
def lineRecord (id : String) (line : UInt64) (text : String) : Record :=
  ⟨id, ⟨#[], .empty⟩, text, ⟨"m.js", "m.js", "js", 4, 0, line, line⟩⟩

/-- Two records with the same lines, stored at once. -/
def storedAtOnce : List Operation := [.call (.create "code"),
  .call (.upsert "code" [lineRecord "a" 1 "export class X", lineRecord "b" 1 "class X"])]

/-- The same texts, under identifiers in the other order, after others that were overwritten and
taken away. -/
def storedInTurn : List Operation := [.call (.create "code"),
  .call (.upsert "code" [lineRecord "z" 7 "let y", lineRecord "c" 1 "class"]),
  .call (.deleteIds "code" ["z"]),
  .call (.upsert "code" [lineRecord "c" 1 "export class X"]),
  .call (.upsert "code" [lineRecord "0" 1 "class X"])]

theorem Memory.contents_forget_history_sameLines :
    (run 0 storedAtOnce).excerpts "code" "m.js" = (run 0 storedInTurn).excerpts "code" "m.js" ∧
    (run 0 storedAtOnce).contents "code" "m.js" = (run 0 storedInTurn).contents "code" "m.js" ∧
    (run 0 storedAtOnce).contents "code" "m.js" = ["class X", "export class X"] := by
  have hsame : (run 0 storedAtOnce).excerpts "code" "m.js" =
      (run 0 storedInTurn).excerpts "code" "m.js" := by decide
  exact ⟨hsame, (contents_forget_history hsame).1, by decide⟩

end CodeIndex.Store
