import DatasetDepot.Fault
import DatasetDepot.Split

/-!
Learning exercises: a split, the kind of problem it poses, and for ranking
problems the query group of every row.
-/

namespace DatasetDepot

/-- The kind of learning problem. -/
inductive Problem where
  | regression
  | classification
  | multiclass
  deriving DecidableEq, Repr

structure Exercise where
  problem : Problem
  split : Split
  trainQueries? : Option (List Int)
  testQueries? : Option (List Int)

namespace Exercise

def ofSplit (split : Split) (problem : Problem) : Exercise :=
  ⟨problem, split, none, none⟩

/-- There has to be one query group per row. -/
def checkQueries (rows : Nat) (queries : List Int) : Except Fault Unit :=
  if queries.length = rows then .ok () else .error (.shapeMismatch rows queries.length)

/-- Attaches query groups as they are, after checking that they go with the rows. -/
def withQueries (exercise : Exercise) (train? test? : Option (List Int)) :
    Except Fault Exercise := do
  if let some queries := train? then
    checkQueries exercise.split.trainX.rows queries
  if let some queries := test? then
    match exercise.split.testX? with
    | none => throw (.invalidParameter "qid_test" "no test partition to annotate")
    | some features => checkQueries features.rows queries
  return { exercise with trainQueries? := train?, testQueries? := test? }

end Exercise

end DatasetDepot
