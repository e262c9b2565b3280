/-!
# Workers

The number of workers is the one asked for, and otherwise half the number of cores.
-/

namespace StatementTable

/-- The number of workers to use on a machine with so many cores. -/
def workerCount : Option Nat → Nat → Nat
  | some (count + 1), _ => count + 1
  | _, cores => max 1 (cores / 2)

/-- There is always a worker. -/
theorem one_le_workerCount (requested : Option Nat) (cores : Nat) :
    1 ≤ workerCount requested cores := by
  unfold workerCount
  split
  · exact Nat.le_add_left 1 _
  · exact Nat.le_max_left 1 _

end StatementTable
