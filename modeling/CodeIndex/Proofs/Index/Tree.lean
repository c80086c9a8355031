import CodeIndex.Proofs.Index.Listing
import CodeIndex.Proofs.Index.Rejection

/-! Bringing the files of a directory up to date.  The files have their turns one after the other,
each in the world that those before it have left, and the report adds up what came of them.  A file
that fails is a line of the report: its turn has done what bringing it up to date does on its own,
and the turns of the files after it come all the same.  A limit that does not fit breaks off the
whole of it. -/

namespace CodeIndex.Index

open Numeric (total total_append total_cons total_nil)
open Store (Collection Memory)

/-- A file and what came of bringing it up to date. -/
abbrev FileOutcome := String × Except IndexError FileReport

/-- The line of a report on a file that failed. -/
def FileOutcome.line? : FileOutcome → Option String
  | (_, .ok _) => none
  | (path, .error e) => some s!"{path}: {e.message}"

/-- The reports on the files that did not fail. -/
def succeeded (done : List FileOutcome) : List FileReport := done.filterMap (·.2.toOption)

/-- The report adds up what came of the files. -/
structure TreeReport.Tallies (report : TreeReport) (done : List FileOutcome) : Prop where
  filesScanned : report.filesScanned = done.length
  filesIndexed : report.filesIndexed = (succeeded done).countP (0 < ·.fragments)
  fragments : report.fragments = total FileReport.fragments (succeeded done)
  removed : report.removed = total FileReport.removed (succeeded done)
  errors : report.errors = done.filterMap FileOutcome.line?

theorem succeeded_append (front back : List FileOutcome) :
    succeeded (front ++ back) = succeeded front ++ succeeded back := List.filterMap_append

theorem TreeReport.Tallies.add {report : TreeReport} {done : List FileOutcome}
    (h : report.Tallies done) (path : String) (outcome : Except IndexError FileReport) :
    (report.add path outcome).Tallies (done ++ [(path, outcome)]) := by
  have hscanned : (done ++ [(path, outcome)]).length = done.length + 1 := List.length_append
  cases outcome with
  | error e =>
    have hsame : succeeded (done ++ [(path, .error e)]) = succeeded done := by
      rw [succeeded_append]
      exact List.append_nil _
    constructor
    · rw [hscanned, ← h.filesScanned]; rfl
    · rw [hsame, ← h.filesIndexed]; rfl
    · rw [hsame, ← h.fragments]; rfl
    · rw [hsame, ← h.removed]; rfl
    · rw [List.filterMap_append, ← h.errors]; rfl
  | ok file =>
    have hmore : succeeded (done ++ [(path, .ok file)]) = succeeded done ++ [file] :=
      succeeded_append _ _
    constructor
    · rw [hscanned, ← h.filesScanned]; rfl
    · rw [hmore, List.countP_append, ← h.filesIndexed, List.countP_singleton]
      simp [TreeReport.add]
    · rw [hmore, total_append, ← h.fragments, total_cons, total_nil, Nat.add_zero]; rfl
    · rw [hmore, total_append, ← h.removed, total_cons, total_nil, Nat.add_zero]; rfl
    · rw [List.filterMap_append, ← h.errors]
      exact (List.append_nil _).symm

/-- Files are brought up to date one after the other, with these outcomes. -/
inductive Sweep {σ : Type} (o : Chunk.Options) (name : String) :
    World σ → List FileOutcome → World σ → Prop
  | nil (w : World σ) : Sweep o name w [] w
  | cons {w next last : World σ} {path : String} {outcome : Except IndexError FileReport}
      {rest : List FileOutcome}
      (hfirst : World.finish (reconcileFile o name path) w = (outcome, next))
      (hgoes : faultOf outcome = none)
      (hrest : Sweep o name next rest last) : Sweep o name w ((path, outcome) :: rest) last

namespace World

variable {σ α ε : Type} {w : World σ} {o : Chunk.Options} {name path : String}

theorem services_carryOut (action : Action) : (carryOut action w).2.services = w.services := by
  cases action <;> rfl

theorem services_finish (job : Job α) : (finish job w).2.services = w.services := by
  induction job generalizing w with
  | done a => rfl
  | ask action next ih =>
    rw [finish_ask, ih, services_carryOut]

end World

namespace Sweep

open World

variable {σ : Type} {o : Chunk.Options} {name path : String} {w last : World σ}
  {front done : List FileOutcome} {report : TreeReport}

theorem services_eq (h : Sweep o name w done last) : last.services = w.services := by
  induction h with
  | nil w => rfl
  | @cons w _ _ path _ _ hfirst hgoes hrest ih =>
    have hnext : (finish (reconcileFile o name path) w).2.services = w.services := services_finish _
    rw [ih, ← hnext, hfirst]

/-- A file that has its turn in the middle has it in the world that those before it have left. -/
theorem split {outcome : Except IndexError FileReport} {back : List FileOutcome}
    (h : Sweep o name w (front ++ (path, outcome) :: back) last) :
    ∃ before after, Sweep o name w front before ∧
      finish (reconcileFile o name path) before = (outcome, after) ∧
      Sweep o name after back last := by
  induction front generalizing w with
  | nil =>
    cases h with
    | cons hfirst hgoes hrest => exact ⟨w, _, .nil w, hfirst, hrest⟩
  | cons first front ih =>
    cases h with
    | cons hfirst hgoes hrest =>
      obtain ⟨before, after, hfront, hcall, hback⟩ := ih hrest
      exact ⟨before, after, .cons hfirst hgoes hfront, hcall, hback⟩

end Sweep

namespace World

variable {σ ε : Type} {o : Chunk.Options} {name path root : String} {e : IndexError}

end World

end CodeIndex.Index
