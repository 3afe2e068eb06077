import Mathlib.Algebra.Order.Ring.Rat
import Logix.Js.Number
import Logix.Spec.Grouping
import Logix.Spec.NearestFirst

/-!
# Delivery tours

A vehicle goes from the depot to a nearest stop among those that are left, until none is left, and
back. The distance of two positions is a parameter, with rational values.

* `DijkstraVrpRouteOptimizer.optimizeTrajectory`: the code;
* `visitAll_nearestFirst`: its loop visits the stops nearest first;
* `NearestNeighbourTour`: what the route promises;
* **`optimizeTrajectory_tour`**: every route with a stop keeps it.
-/

namespace Logix.Logistics

open Spec

/-- `{ lat, lon }`. -/
structure Position where
  lat : ℚ
  lon : ℚ
  deriving DecidableEq, Repr

/-- `IRouteWaypoint`: what the optimizer reads of it, and its id. -/
structure IRouteWaypoint where
  waypointId : String
  latitude : ℚ
  longitude : ℚ
  deriving DecidableEq, Repr

/-- `IOptimizedRoute`. -/
structure IOptimizedRoute where
  vehicleId : String
  totalDistanceKm : ℚ
  estimatedDurationHours : ℚ
  orderedWaypoints : List IRouteWaypoint
  fuelEstimateLiters : ℚ
  deriving DecidableEq, Repr

/-- The position of a waypoint. -/
def IRouteWaypoint.position (w : IRouteWaypoint) : Position := ⟨w.latitude, w.longitude⟩

namespace DijkstraVrpRouteOptimizer

variable (calculateDistance : Position → Position → ℚ)

/-- The distance of two waypoints. -/
def legDistance (w w' : IRouteWaypoint) : ℚ := calculateDistance w.position w'.position

/-- **The loop**: `unvisited.splice(nearestIdx, 1)[0]` becomes `current`, as long as there is
one. -/
def visitAll (current : IRouteWaypoint) (unvisited : List IRouteWaypoint) : List IRouteWaypoint :=
  let nearestIdx := minIdx (legDistance calculateDistance current) unvisited
  if h : nearestIdx < unvisited.length then
    let next := unvisited[nearestIdx]
    next :: visitAll next (unvisited.eraseIdx nearestIdx)
  else []
termination_by unvisited.length
decreasing_by
  rw [List.length_eraseIdx_of_lt h]
  exact Nat.sub_lt (Nat.zero_lt_of_lt h) Nat.one_pos

/-- `totalDist`. -/
def totalDist (ordered : List IRouteWaypoint) : ℚ :=
  (ordered.zip ordered.tail).foldl
    (fun totalDist leg => totalDist + legDistance calculateDistance leg.1 leg.2) 0

/-- **`optimizeTrajectory(vehicleId, depot, stops)`.** -/
def optimizeTrajectory (vehicleId : String) (depot : IRouteWaypoint)
    (stops : List IRouteWaypoint) : IOptimizedRoute :=
  if stops.length = 0 then
    { vehicleId := vehicleId
      totalDistanceKm := 0
      estimatedDurationHours := 0
      orderedWaypoints := [depot]
      fuelEstimateLiters := 0 }
  else
    let ordered := depot :: visitAll calculateDistance depot stops ++ [depot]
    let total := totalDist calculateDistance ordered
    { vehicleId := vehicleId
      totalDistanceKm := total
      estimatedDurationHours := toFixed 2 (total / 65)
      orderedWaypoints := ordered
      fuelEstimateLiters := toFixed 2 (total * (28 / 100)) }

end DijkstraVrpRouteOptimizer

open DijkstraVrpRouteOptimizer

variable {calculateDistance : Position → Position → ℚ}

/-- **The loop visits the stops nearest first.** -/
theorem visitAll_nearestFirst (calculateDistance : Position → Position → ℚ)
    (current : IRouteWaypoint) (unvisited : List IRouteWaypoint) :
    NearestFirst (legDistance calculateDistance) current unvisited
      (visitAll calculateDistance current unvisited) := by
  induction hlen : unvisited.length generalizing current unvisited with
  | zero =>
    obtain rfl := List.eq_nil_of_length_eq_zero hlen
    rw [visitAll]
    exact .stop current
  | succ n ih =>
    have hne : unvisited ≠ [] := List.ne_nil_of_length_eq_add_one hlen
    obtain ⟨next, hnext, hmin⟩ := minIdx_spec (legDistance calculateDistance current) hne
    obtain ⟨hlt, rfl⟩ := List.getElem?_eq_some_iff.mp hnext
    rw [visitAll, dif_pos hlt]
    refine .visit (List.getElem_cons_eraseIdx_perm hlt).symm hmin (ih _ _ ?_)
    rw [List.length_eraseIdx_of_lt hlt, hlen, Nat.add_sub_cancel]

/-- **A nearest-neighbour tour**: from the depot through every stop once and back, each stop nearest
to the waypoint before it among those that are not visited yet. -/
structure NearestNeighbourTour (calculateDistance : Position → Position → ℚ)
    (depot : IRouteWaypoint) (stops tour : List IRouteWaypoint) (route : IOptimizedRoute) :
    Prop where
  ends : route.orderedWaypoints = depot :: tour ++ [depot]
  once : tour.Perm stops
  nearest : ∀ visited stop unvisited, tour = visited ++ stop :: unvisited →
    ∀ other ∈ unvisited, legDistance calculateDistance (visited.getLastD depot) stop ≤
      legDistance calculateDistance (visited.getLastD depot) other
  total : route.totalDistanceKm = (route.orderedWaypoints.zipWith (legDistance calculateDistance)
    route.orderedWaypoints.tail).sum

theorem totalDist_eq (ordered : List IRouteWaypoint) : totalDist calculateDistance ordered =
    (ordered.zipWith (legDistance calculateDistance) ordered.tail).sum := by
  rw [totalDist, foldl_add_eq, zero_add, ← List.map_uncurry_zip_eq_zipWith]
  rfl

/-- **Every route with a stop is a nearest-neighbour tour.** -/
theorem optimizeTrajectory_tour (calculateDistance : Position → Position → ℚ) (vehicleId : String)
    (depot : IRouteWaypoint) (stops : List IRouteWaypoint) (h : stops ≠ []) :
    ∃ tour, NearestNeighbourTour calculateDistance depot stops tour
      (optimizeTrajectory calculateDistance vehicleId depot stops) := by
  have htour := visitAll_nearestFirst calculateDistance depot stops
  rw [optimizeTrajectory, if_neg (mt List.eq_nil_of_length_eq_zero h)]
  refine ⟨visitAll calculateDistance depot stops, rfl, htour.perm, ?_, totalDist_eq _⟩
  intro visited stop unvisited hsplit other hother
  exact htour.nearest hsplit other (List.mem_cons_of_mem stop hother)

/-- A case: stops on a line. -/
theorem optimizeTrajectory_tour_line :
    ∃ tour, NearestNeighbourTour (fun p q => |p.lat - q.lat|) ⟨"DEPOT", 0, 0⟩
      [⟨"A", 5, 0⟩, ⟨"B", 2, 0⟩] tour
      (optimizeTrajectory (fun p q => |p.lat - q.lat|) "TRK-1" ⟨"DEPOT", 0, 0⟩
        [⟨"A", 5, 0⟩, ⟨"B", 2, 0⟩]) :=
  optimizeTrajectory_tour (fun p q => |p.lat - q.lat|) "TRK-1" ⟨"DEPOT", 0, 0⟩
    [⟨"A", 5, 0⟩, ⟨"B", 2, 0⟩] (by decide)

end Logix.Logistics
