import Mathlib.Algebra.Order.Ring.Rat
import Mathlib.Data.Nat.Bits
import Mathlib.Tactic.FieldSimp
import Mathlib.Tactic.Ring
import Logix.Spec.ClosedPaths

/-!
# Geofences

A point is inside a polygon when the ray from it to the east crosses an odd number of edges.
Coordinates are rational.

* `PolygonGeofenceMatcher.isPointInsidePolygon`: the code;
* `crossings`: how often the ray crosses an edge, the same in both directions;
* **`isPointInsidePolygon_eq`**: the parity of the crossings along the closed path of the vertices;
* `OfRegion`: the answer does not depend on where the list of vertices starts, in which direction it
  goes, and adds up over the two parts that a chord makes;
* **`isPointInsidePolygon_ofRegion`**: this holds of every polygon.
-/

namespace Logix.Logistics

open Spec

/-- A point, or a vertex. -/
structure LatLon where
  lat : ℚ
  lon : ℚ
  deriving DecidableEq, Repr

/-- `IGeofencePolygon`: what the matcher reads of it. -/
structure IGeofencePolygon where
  vertices : List LatLon
  deriving DecidableEq, Repr

namespace PolygonGeofenceMatcher

/-- `intersect`, of the vertices `vs[i]` and `vs[j]`. -/
def intersect (point vi vj : LatLon) : Bool :=
  (decide (point.lat < vi.lat) != decide (point.lat < vj.lat)) &&
    decide (point.lon < (vj.lon - vi.lon) * (point.lat - vi.lat) / (vj.lat - vi.lat) + vi.lon)

/-- One round of the loop: `inside`, and `vs[j]`, the vertex of the round before. -/
def castRay (point : LatLon) (st : Bool × LatLon) (vi : LatLon) : Bool × LatLon :=
  (if intersect point vi st.2 then !st.1 else st.1, vi)

/-- **`isPointInsidePolygon(point, polygon)`**; the loop starts with the last vertex as `vs[j]`. -/
def isPointInsidePolygon (point : LatLon) (polygon : IGeofencePolygon) : Bool :=
  match polygon.vertices.getLast? with
  | none => false
  | some last => (polygon.vertices.foldl (castRay point) (false, last)).1

end PolygonGeofenceMatcher

open PolygonGeofenceMatcher

/-! ## Crossings -/

variable {point vi vj : LatLon}

theorem intersect_comm (point vi vj : LatLon) : intersect point vi vj = intersect point vj vi := by
  by_cases hsides : decide (point.lat < vi.lat) = decide (point.lat < vj.lat)
  · rw [intersect, intersect, hsides, bne_self_eq_false, Bool.false_and, Bool.false_and]
  · -- the edge is not level, so it meets the latitude of the point in one place
    have hlat : vi.lat ≠ vj.lat := fun h => hsides (by rw [h])
    have hij : vi.lat - vj.lat ≠ 0 := sub_ne_zero.mpr hlat
    have hji : vj.lat - vi.lat ≠ 0 := sub_ne_zero.mpr (Ne.symm hlat)
    have hmeets : (vj.lon - vi.lon) * (point.lat - vi.lat) / (vj.lat - vi.lat) + vi.lon =
        (vi.lon - vj.lon) * (point.lat - vj.lat) / (vi.lat - vj.lat) + vj.lon := by
      field_simp
      ring
    rw [intersect, intersect, hmeets, bne_comm]

/-- How often the ray crosses the edge from `v` to `w`. -/
def crossings (point v w : LatLon) : ℕ := if intersect point w v then 1 else 0

theorem crossings_comm (point v w : LatLon) : crossings point v w = crossings point w v := by
  rw [crossings, crossings, intersect_comm]

theorem bodd_crossings (point v w : LatLon) : (crossings point v w).bodd = intersect point w v := by
  rw [crossings]
  split_ifs with h
  · exact h.symm
  · exact (Bool.eq_false_iff.mpr h).symm

theorem foldl_castRay (point v : LatLon) (inside : Bool) (vs : List LatLon) :
    (vs.foldl (castRay point) (inside, v)).1 =
      (inside ^^ (pathSum (crossings point) v vs).bodd) := by
  induction vs generalizing v inside with
  | nil => rw [List.foldl_nil, pathSum, Nat.bodd_zero, Bool.xor_false]
  | cons w vs ih =>
    rw [List.foldl_cons, castRay, ih, pathSum, Nat.bodd_add, bodd_crossings, ← Bool.xor_assoc]
    cases intersect point w v <;> simp

/-- **The answer is the parity of the crossings** along the closed path of the vertices. -/
theorem isPointInsidePolygon_eq (point : LatLon) (vs : List LatLon) :
    isPointInsidePolygon point ⟨vs⟩ = (cycleSum (crossings point) vs).bodd := by
  rcases List.eq_nil_or_concat vs with rfl | ⟨vs, last, rfl⟩
  · rw [cycleSum, Nat.bodd_zero]
    rfl
  · rw [List.concat_eq_append, isPointInsidePolygon, List.getLast?_concat, cycleSum_concat]
    exact (foldl_castRay point last false _).trans (Bool.false_xor _)

/-! ## Regions -/

/-- **The answers are those of a region**: they do not depend on where the list of vertices starts
and in which direction it goes, and the two parts that a chord makes of a polygon add up to it. -/
structure OfRegion (inside : IGeofencePolygon → Bool) : Prop where
  rotate : ∀ vs n, inside ⟨vs.rotate n⟩ = inside ⟨vs⟩
  reverse : ∀ vs, inside ⟨vs.reverse⟩ = inside ⟨vs⟩
  chord : ∀ pre u mid w post, inside ⟨pre ++ u :: mid ++ w :: post⟩ =
    (inside ⟨u :: mid ++ [w]⟩ ^^ inside ⟨pre ++ u :: w :: post⟩)

/-- **Geofence membership is a property of the region**, for every point. -/
theorem isPointInsidePolygon_ofRegion (point : LatLon) : OfRegion (isPointInsidePolygon point) where
  rotate vs n := by
    rw [isPointInsidePolygon_eq, isPointInsidePolygon_eq, cycleSum_rotate]
  reverse vs := by
    rw [isPointInsidePolygon_eq, isPointInsidePolygon_eq, cycleSum_reverse (crossings_comm point)]
  chord pre u mid w post := by
    have hchord := congrArg Nat.bodd (cycleSum_chord (f := crossings point) pre mid post u w)
    -- the two steps along the chord cancel
    rw [Nat.bodd_add, Nat.bodd_add, Nat.bodd_add, crossings_comm point w u, Bool.xor_self,
      Bool.xor_false] at hchord
    rw [isPointInsidePolygon_eq, isPointInsidePolygon_eq, isPointInsidePolygon_eq, hchord]

/-- A triangle around the origin. -/
example : isPointInsidePolygon ⟨0, 0⟩ ⟨[⟨-1, -1⟩, ⟨-1, 2⟩, ⟨2, -1⟩]⟩ = true := by decide +kernel

end Logix.Logistics
