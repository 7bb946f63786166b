import DatasetDepot.Proofs.Action
import DatasetDepot.Published

/-!
Reading a file that is there.

What comes of it is what comes of its contents, with the path in every fault, and nothing is
changed.
-/

namespace DatasetDepot.Published

open DatasetDepot.Action

variable {path : Path} {contents : Bytes} {world : World}

/-- A world with a single file. -/
def holding (contents : Bytes) : World where
  store := ⟨[], [(["rows".toList], .file contents)]⟩
  journal := []

def tableFault (path : Path) (defect : Csv.Defect) : Fault :=
  .parse path.text defect.line defect.text

theorem run_readTable (read : world.store.read path = .ok contents) (columns : Csv.Columns)
    (limit : Nat) :
    (readTable columns limit path).run.run world =
      ((Csv.read columns limit contents).mapError (tableFault path), world) := by
  unfold readTable
  rw [run_bind, run_store]
  simp only [read]
  cases Csv.read columns limit contents <;> rfl

def rowsFault (path : Path) : Svmlight.Defect → Fault
  | .notText => .io path.text Refusal.notText.text
  | .slip line slip => .parse path.text line slip.text

theorem run_readRows (read : world.store.read path = .ok contents) (limit : Nat) :
    (readRows limit path).run.run world =
      ((Svmlight.read limit contents).mapError (rowsFault path), world) := by
  unfold readRows
  rw [run_bind, run_store]
  simp only [read]
  cases Svmlight.read limit contents with
  | ok rows => rfl
  | error defect => cases defect <;> rfl

end DatasetDepot.Published
