import ShopTables.Context
import ShopTables.Value

/-!
# Statements — reading and deleting over any table

What a statement asks of a table is a record of calls: a `Source` can be read partition by
partition, a `Target` also opens a `Deleter`. `Source.scan` reads everything;
`Target.deleteMatching` reads, chooses and deletes.

The protocol of a delete is the same for every table: begin; delete each row; complete; close. If
deleting or completing fails, the changes are discarded with the failure as their cause, the
deleter is closed, and that first failure is the outcome, whatever the cleaning up does. A deleter
that does not begin is left alone.
-/

namespace ShopTables

/-- The calls by which rows are read; `π` names a partition. -/
structure Source (ε σ π : Type) where
  partitions : Step ε σ (List π)
  rows : π → Step ε σ (List Row)

/-- The calls of one delete statement; they change a state `τ`. -/
structure Deleter (ε τ : Type) where
  begin : Step ε τ Unit
  delete : Row → Step ε τ Unit
  /-- Takes back the deletes since `begin`, because of a failure. -/
  discard : ε → Step ε τ Unit
  complete : Step ε τ Unit
  close : Step ε τ Unit

/-- The calls by which rows are read and deleted; `δ` is the state of an open deleter. -/
structure Target (ε σ π δ : Type) extends Source ε σ π where
  openDeleter : Step ε σ δ
  deleter : Deleter ε (σ × δ)

variable {ε σ τ π δ : Type}

def Source.scan (t : Source ε σ π) : Step ε σ (List Row) := do
  return (← (← t.partitions).mapM t.rows).flatten

/-- The rows that a predicate accepts. The predicate may change the state but cannot fail. -/
def accepted (accept : Row → StateM σ Bool) : List Row → Step ε σ (List Row)
  | [] => return []
  | row :: rest => do
    let chosen ← liftM (accept row)
    let others ← accepted accept rest
    return if chosen then row :: others else others

def Deleter.run (d : Deleter ε τ) (rows : List Row) : Step ε τ Unit := do
  d.begin
  match ← Step.attempt (do rows.forM d.delete; d.complete) with
  | .ok () => d.close
  | .error cause =>
    let _ ← Step.attempt (d.discard cause)
    let _ ← Step.attempt d.close
    throw cause

/-- Runs a step of a deleter that starts as `d`, and lets the deleter go. -/
def withDeleter (d : δ) (x : Step ε (σ × δ) α) : Step ε σ α :=
  Step.ofFn fun s => let (r, s, _) := x.runFrom (s, d); (r, s)

/-- Runs one delete statement, and counts the rows it deleted. -/
def Target.deleteMatching (t : Target ε σ π δ) (accept : Row → StateM σ Bool) :
    Step ε σ Nat := do
  let rows ← accepted accept (← t.scan)
  let d ← t.openDeleter
  withDeleter d (t.deleter.run rows)
  return rows.length

end ShopTables
