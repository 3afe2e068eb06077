import Logix.Common.RouteOptimization
import Logix.Spec.GreatCircle
import Logix.Spec.Walks
import Mathlib.Tactic.FieldSimp
import Mathlib.Tactic.Positivity

/-!
# Do distance and bearing find the way?

Stops have a latitude and a longitude in degrees. `haversineDistanceKm` is the length of the great
circle between two stops, `computeBearingDegrees` the direction in which it starts.

* `haversineDistanceKm`, `computeBearingDegrees`: the code, for any functions of trigonometry;
* `stopPlace`, `destination`: a stop on the globe, and the place at a distance in a direction;
* **`polar_coordinates`**: going the distance in the direction of the bearing leads to the other
  stop;
* **`route_lengths`**: leaving stops out does not lengthen a route, no route is shorter than the
  distance of its ends, and this holds of what 2-opt makes of it.

The numbers are the real ones: rounding in the functions of trigonometry is left out.
-/

namespace Logix.MathOptimizationEngine

open Spec Real
open scoped Numerals

/-! ## The code -/

section Code

variable {K : Type} [Field K] (T : Trigonometry K)

/-- `EARTH_RADIUS_KM`. -/
def EARTH_RADIUS_KM : K := 63710088 / 10000

/-- **`toRadians`.** -/
def toRadians (degrees : K) : K := degrees * T.pi / 180

/-- **`toDegrees`.** -/
def toDegrees (radians : K) : K := radians * 180 / T.pi

/-- **`haversineDistanceKm(coord1, coord2)`.** -/
def haversineDistanceKm (coord1 coord2 : GeoCoordinate K) : K :=
  let dLat := toRadians T (coord2.latitude - coord1.latitude)
  let dLon := toRadians T (coord2.longitude - coord1.longitude)
  let lat1 := toRadians T coord1.latitude
  let lat2 := toRadians T coord2.latitude
  let a := T.sin (dLat / 2) * T.sin (dLat / 2) +
    T.sin (dLon / 2) * T.sin (dLon / 2) * T.cos lat1 * T.cos lat2
  let c := 2 * T.atan2 (T.sqrt a) (T.sqrt (1 - a))
  EARTH_RADIUS_KM * c

variable [LinearOrder K] [FloorRing K]

/-- `x % y`: the quotient is cut off towards zero. -/
def remainder (x y : K) : K := x - y * (if 0 ≤ x / y then ⌊x / y⌋ else ⌈x / y⌉ : ℤ)

/-- **`computeBearingDegrees(from, to)`.** -/
def computeBearingDegrees (start stop : GeoCoordinate K) : K :=
  let lat1 := toRadians T start.latitude
  let lat2 := toRadians T stop.latitude
  let dLon := toRadians T (stop.longitude - start.longitude)
  let y := T.sin dLon * T.cos lat2
  let x := T.cos lat1 * T.sin lat2 - T.sin lat1 * T.cos lat2 * T.cos dLon
  let initialBearing := T.atan2 y x
  remainder (toDegrees T initialBearing + 360) 360

end Code

/-! ## On the globe -/

/-- Radians of degrees. -/
noncomputable abbrev rad (degrees : ℝ) : ℝ := toRadians realTrigonometry degrees

/-- A stop on the globe. -/
noncomputable def stopPlace (p : GeoCoordinate ℝ) : EuclideanSpace ℝ (Fin 3) :=
  onSphere (rad p.latitude) (rad p.longitude)

/-- **The place at a distance**, along the great circle that starts at a stop in a direction. -/
noncomputable def destination (p : GeoCoordinate ℝ) (distanceKm bearingDegrees : ℝ) :
    EuclideanSpace ℝ (Fin 3) :=
  cos (distanceKm / EARTH_RADIUS_KM) • stopPlace p +
    sin (distanceKm / EARTH_RADIUS_KM) •
      (cos (rad bearingDegrees) • north (rad p.latitude) (rad p.longitude) +
        sin (rad bearingDegrees) • east (rad p.longitude))

variable (p q r : GeoCoordinate ℝ)

theorem rad_sub (x y : ℝ) : rad (x - y) = rad x - rad y := by
  simp only [rad, toRadians]
  ring

theorem earthRadius_pos : (0 : ℝ) < EARTH_RADIUS_KM := by
  rw [EARTH_RADIUS_KM]
  positivity

theorem haversineDistanceKm_eq : haversineDistanceKm realTrigonometry p q =
    EARTH_RADIUS_KM * centralAngle realTrigonometry (rad p.latitude) (rad p.longitude)
      (rad q.latitude) (rad q.longitude) := by
  have h (s t u v : ℝ) : s * s + t * t * u * v = s ^ 2 + u * v * t ^ 2 := by ring
  rw [centralAngle, haversine, ← rad_sub, ← rad_sub]
  simp only [haversineDistanceKm, h]

theorem remainder_eq {x y : ℝ} (h : 0 ≤ x / y) : remainder x y = x - y * ⌊x / y⌋ := by
  rw [remainder, if_pos h]

theorem computeBearingDegrees_eq : 0 ≤ computeBearingDegrees realTrigonometry p q ∧
    computeBearingDegrees realTrigonometry p q < 360 ∧ ∃ k : ℤ,
      rad (computeBearingDegrees realTrigonometry p q) =
        bearing realTrigonometry (rad p.latitude) (rad p.longitude) (rad q.latitude)
          (rad q.longitude) + k * (2 * π) := by
  have hpi := pi_pos
  obtain ⟨θ, hθ⟩ : ∃ θ, θ = bearing realTrigonometry (rad p.latitude) (rad p.longitude)
    (rad q.latitude) (rad q.longitude) := ⟨_, rfl⟩
  have hlo : -π < θ := hθ ▸ Complex.neg_pi_lt_arg _
  have hdeg : computeBearingDegrees realTrigonometry p q = remainder (θ * 180 / π + 360) 360 := by
    rw [hθ, bearing, ← rad_sub]
    rfl
  have hpos : 0 ≤ (θ * 180 / π + 360) / 360 := by
    have : -180 ≤ θ * 180 / π := by
      rw [le_div_iff₀ hpi]
      linarith
    linarith
  rw [hdeg, remainder_eq hpos, ← hθ]
  have hfloor := Int.floor_le ((θ * 180 / π + 360) / 360)
  have hlt := Int.lt_floor_add_one ((θ * 180 / π + 360) / 360)
  refine ⟨by linarith, by linarith, 1 - ⌊(θ * 180 / π + 360) / 360⌋, ?_⟩
  simp only [rad, toRadians, realTrigonometry]
  push_cast
  field_simp
  ring

/-- **Distance and bearing are the polar coordinates of the other stop**: the bearing is in
`[0, 360)`, the distance at most half of the circumference, and going that far in that direction
leads there. -/
theorem polar_coordinates :
    (0 ≤ haversineDistanceKm realTrigonometry p q ∧
      haversineDistanceKm realTrigonometry p q ≤ EARTH_RADIUS_KM * π) ∧
    (0 ≤ computeBearingDegrees realTrigonometry p q ∧
      computeBearingDegrees realTrigonometry p q < 360) ∧
    destination p (haversineDistanceKm realTrigonometry p q)
      (computeBearingDegrees realTrigonometry p q) = stopPlace q := by
  obtain ⟨hlo, hhi, k, hk⟩ := computeBearingDegrees_eq p q
  have hpolar := onSphere_eq_polar (rad p.latitude) (rad p.longitude) (rad q.latitude)
    (rad q.longitude)
  refine ⟨?_, ⟨hlo, hhi⟩, ?_⟩
  · rw [haversineDistanceKm_eq]
    exact ⟨mul_nonneg earthRadius_pos.le (centralAngle_nonneg _ _ _ _),
      mul_le_mul_of_nonneg_left (centralAngle_le_pi _ _ _ _) earthRadius_pos.le⟩
  · rw [haversineDistanceKm_eq, destination, mul_div_cancel_left₀ _ earthRadius_pos.ne', hk,
      cos_add_int_mul_two_pi, sin_add_int_mul_two_pi]
    exact hpolar.symm

/-! ## Routes -/

theorem haversineDistanceKm_nonneg : 0 ≤ haversineDistanceKm realTrigonometry p q := by
  rw [haversineDistanceKm_eq]
  exact mul_nonneg earthRadius_pos.le (centralAngle_nonneg _ _ _ _)

theorem haversineDistanceKm_comm :
    haversineDistanceKm realTrigonometry p q = haversineDistanceKm realTrigonometry q p := by
  rw [haversineDistanceKm_eq, haversineDistanceKm_eq, centralAngle_comm]

theorem haversineDistanceKm_self : haversineDistanceKm realTrigonometry p p = 0 := by
  rw [haversineDistanceKm_eq, centralAngle_self, mul_zero]

theorem haversineDistanceKm_triangle : haversineDistanceKm realTrigonometry p r ≤
    haversineDistanceKm realTrigonometry p q + haversineDistanceKm realTrigonometry q r := by
  rw [haversineDistanceKm_eq, haversineDistanceKm_eq, haversineDistanceKm_eq, ← mul_add]
  exact mul_le_mul_of_nonneg_left (centralAngle_triangle _ _ _ _ _ _) earthRadius_pos.le

variable (route : List (GeoCoordinate ℝ))

theorem exists_twoOptOptimization (maxIterations : WithTop ℝ) : ∃ N result,
    (∀ fuel ≥ N, twoOptOptimization (haversineDistanceKm realTrigonometry) route maxIterations
      fuel = some result) ∧
    Reroutes route result.optimizedRoute ∧
    result.totalDistanceKm =
      computeTotalRouteDistanceKm (haversineDistanceKm realTrigonometry) result.optimizedRoute ∧
    result.totalDistanceKm ≤
      computeTotalRouteDistanceKm (haversineDistanceKm realTrigonometry) route := by
  by_cases hlen : route.length ≤ 3
  · exact ⟨0, ⟨route, _⟩, fun fuel _ => if_pos hlen, .refl route, rfl, le_rfl⟩
  · obtain ⟨N, stopped, htracks, hstop⟩ :=
      exists_twoOptLoop haversineDistanceKm_nonneg route maxIterations
    refine ⟨N, ⟨stopped.state.bestRoute, stopped.state.bestDistance⟩, fun fuel hfuel => ?_,
      htracks.reroutes, htracks.distance, htracks.shorter⟩
    simp only [twoOptOptimization, if_neg hlen, hstop fuel hfuel, Option.map_some]

/-- **The lengths of routes**: backwards a route is as long, leaving stops out does not lengthen it,
and 2-opt ends with a route no longer than the given one and no shorter than the way from its first
to its last stop. -/
theorem route_lengths :
    computeTotalRouteDistanceKm (haversineDistanceKm realTrigonometry) route.reverse =
      computeTotalRouteDistanceKm (haversineDistanceKm realTrigonometry) route ∧
    (∀ stops, List.Sublist stops route →
      computeTotalRouteDistanceKm (haversineDistanceKm realTrigonometry) stops ≤
        computeTotalRouteDistanceKm (haversineDistanceKm realTrigonometry) route) ∧
    ∀ first last, route.head? = some first → route.getLast? = some last → ∀ maxIterations,
      ∃ N result, (∀ fuel ≥ N, twoOptOptimization (haversineDistanceKm realTrigonometry) route
          maxIterations fuel = some result) ∧
        Reroutes route result.optimizedRoute ∧
        haversineDistanceKm realTrigonometry first last ≤ result.totalDistanceKm ∧
        result.totalDistanceKm ≤
          computeTotalRouteDistanceKm (haversineDistanceKm realTrigonometry) route := by
  refine ⟨walk_reverse haversineDistanceKm_comm route,
    fun stops => walk_sublist haversineDistanceKm_nonneg haversineDistanceKm_triangle,
    fun first last hfirst hlast maxIterations => ?_⟩
  obtain ⟨N, result, hruns, hreroutes, htotal, hshorter⟩ :=
    exists_twoOptOptimization route maxIterations
  refine ⟨N, result, hruns, hreroutes, ?_, hshorter⟩
  rw [htotal]
  exact dist_le_walk haversineDistanceKm_nonneg haversineDistanceKm_triangle
    haversineDistanceKm_self (hreroutes.first.trans hfirst) (hreroutes.last.trans hlast)

/-- A way along the equator, over two stops in the wrong order. -/
def detour : List (GeoCoordinate ℝ) := [⟨0, 0⟩, ⟨0, 60⟩, ⟨0, 30⟩, ⟨0, 90⟩]

theorem route_lengths_equator :
    computeTotalRouteDistanceKm (haversineDistanceKm realTrigonometry)
        ([⟨0, 0⟩, ⟨0, 90⟩] : List (GeoCoordinate ℝ)) ≤
      computeTotalRouteDistanceKm (haversineDistanceKm realTrigonometry) detour ∧
    ∃ N result, (∀ fuel ≥ N,
        twoOptOptimization (haversineDistanceKm realTrigonometry) detour ⊤ fuel = some result) ∧
      Reroutes detour result.optimizedRoute ∧
      haversineDistanceKm realTrigonometry ⟨0, 0⟩ ⟨0, 90⟩ ≤ result.totalDistanceKm ∧
      result.totalDistanceKm ≤
        computeTotalRouteDistanceKm (haversineDistanceKm realTrigonometry) detour :=
  ⟨(route_lengths detour).2.1 _ (.cons_cons _ (.cons _ (.cons _ (.cons_cons _ .slnil)))),
    (route_lengths detour).2.2 _ _ rfl rfl ⊤⟩

end Logix.MathOptimizationEngine
