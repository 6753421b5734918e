import Ziggurat.Nwk.Addresses
import Ziggurat.Nwk.LinkStatus

/-!
# Updates of the neighbor table

`Removes` says which entries an update takes away.
-/

namespace Ziggurat

namespace Neighbors

variable {neighbors : Neighbors}

/-! ## Removed entries -/

/-- The entries of some devices are gone, and the others are as before. -/
def Removes (neighbors neighbors' : Neighbors) (removed : List Eui64) : Prop :=
  ∀ key, neighbors'.table.get key =
    if key ∈ removed then none else neighbors.table.get key

theorem removes_nil (neighbors : Neighbors) : neighbors.Removes neighbors [] :=
  fun _ => rfl

theorem removes_remove (neighbors : Neighbors) (eui64 : Eui64) :
    neighbors.Removes (neighbors.remove eui64) [eui64] := by
  intro key
  unfold remove
  rw [FlatMap.get_remove]
  simp only [List.mem_singleton]

/-- One entry more is removed first. -/
theorem Removes.cons {neighbors neighbors' : Neighbors} {eui64 : Eui64} {removed : List Eui64}
    (h : (neighbors.remove eui64).Removes neighbors' removed) :
    neighbors.Removes neighbors' (eui64 :: removed) := by
  intro key
  rw [h key, removes_remove neighbors eui64 key]
  by_cases heq : key = eui64
  · simp [heq]
  · simp [heq]

theorem removes_takeChild (neighbors : Neighbors) (eui64 : Eui64) :
    neighbors.Removes (neighbors.takeChild eui64).2
      ((neighbors.takeChild eui64).1.map fun _ => eui64).toList := by
  unfold takeChild
  split
  next => exact removes_nil neighbors
  next =>
    split
    next => exact removes_nil neighbors
    next => exact removes_remove neighbors eui64

theorem removes_removeClaimedChildren (claimed : List Eui64) (neighbors : Neighbors) :
    neighbors.Removes (neighbors.removeClaimedChildren claimed).2
      ((neighbors.removeClaimedChildren claimed).1.map Prod.fst) := by
  induction claimed generalizing neighbors with
  | nil => exact removes_nil neighbors
  | cons eui64 claimed ih =>
    unfold removeClaimedChildren
    split
    next => exact ih neighbors
    next =>
      split
      next => exact ih neighbors
      next => exact (ih (neighbors.remove eui64)).cons

theorem removes_processParentAnnce (announced : List Eui64) (neighbors : Neighbors) :
    neighbors.Removes (neighbors.processParentAnnce announced).2.2
      ((neighbors.processParentAnnce announced).2.1.map Prod.fst) := by
  induction announced generalizing neighbors with
  | nil => exact removes_nil neighbors
  | cons eui64 announced ih =>
    unfold processParentAnnce
    split
    next => exact ih neighbors
    next =>
      split
      next => exact ih neighbors
      next =>
        split
        next => exact ih neighbors
        next => exact (ih (neighbors.remove eui64)).cons

theorem removes_evictTimedOutChildren (neighbors : Neighbors) (now : Instant) :
    neighbors.Removes (neighbors.evictTimedOutChildren now).2
      ((neighbors.evictTimedOutChildren now).1.map Prod.fst) := by
  intro key
  unfold evictTimedOutChildren
  rw [← FlatMap.get_foldl_remove, List.foldl_map]

end Neighbors

end Ziggurat
