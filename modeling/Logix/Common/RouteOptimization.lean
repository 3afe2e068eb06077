import Mathlib.Algebra.BigOperators.Group.List.Basic
import Mathlib.Algebra.Order.Archimedean.Basic
import Mathlib.Algebra.Order.BigOperators.Group.List
import Mathlib.Algebra.Order.WithTop.Untop0
import Mathlib.Data.Rat.Floor
import Logix.Spec.Improvement

/-!
# Route optimization

`twoOptOptimization` reverses segments of a route as long as this shortens it by more than a metre.
The distance of two stops is a parameter.

* `MathOptimizationEngine.twoOptOptimization`: the code, an instance of local search;
* `twoOptSwap_eq`: the three copy loops reverse a segment;
* `findImprovement_eq_some`, `findImprovement_eq_none`: what the two inner loops find;
* `Reroutes`: the same stops between the same ends;
* **`twoOptOptimization_sound`**: the loop ends, with a route that is no longer, and that no
  reversal shortens if it might have gone on.
-/

namespace Logix

open Spec

/-- A stop. -/
structure GeoCoordinate (K : Type) where
  latitude : K
  longitude : K
  deriving DecidableEq, Repr

/-- `bestRoute` and `bestDistance`. -/
structure BestRoute (K : Type) where
  bestRoute : List (GeoCoordinate K)
  bestDistance : K

/-- What `twoOptOptimization` returns. -/
structure OptimizedRoute (K : Type) where
  optimizedRoute : List (GeoCoordinate K)
  totalDistanceKm : K

namespace MathOptimizationEngine

variable {K : Type} [Field K] [LinearOrder K]
  (haversineDistanceKm : GeoCoordinate K → GeoCoordinate K → K)

/-- **`computeTotalRouteDistanceKm`**. -/
def computeTotalRouteDistanceKm (route : List (GeoCoordinate K)) : K :=
  (route.zipWith haversineDistanceKm route.tail).sum

/-- The stops of `route` at the positions `cs`, in this order: a loop with
`newRoute.push(route[c])`. -/
def copyStops {α : Type} (route : List α) (cs : List ℕ) : List α := cs.filterMap (route[·]?)

/-- **`twoOptSwap`**: the positions before `i`, those from `k` down to `i`, and those behind `k`. -/
def twoOptSwap {α : Type} (route : List α) (i k : ℕ) : List α :=
  copyStops route (List.range i) ++ copyStops route (List.range' i (k + 1 - i)).reverse ++
    copyStops route (List.range' (k + 1) (route.length - (k + 1)))

/-- One pair of the two inner loops: the route with `i..j` reversed, where it is better. -/
def tryReversal (best : BestRoute K) (i j : ℕ) : Option (BestRoute K) :=
  let newRoute := twoOptSwap best.bestRoute i j
  let newDistance := computeTotalRouteDistanceKm haversineDistanceKm newRoute
  if newDistance < best.bestDistance - 1 / 1000 then some ⟨newRoute, newDistance⟩ else none

/-- The two inner loops, `1 ≤ i < n - 2` and `i < j < n - 1`: both end at the first improvement. -/
def findImprovement (best : BestRoute K) : Option (BestRoute K) :=
  (List.range' 1 (best.bestRoute.length - 3)).findSome? fun i =>
    (List.range' (i + 1) (best.bestRoute.length - 1 - (i + 1))).findSome? fun j =>
      tryReversal haversineDistanceKm best i j

/-- The outer loop, in at most `fuel` tests. -/
def twoOptLoop (maxIterations : WithTop K) (fuel : ℕ) (best : BestRoute K) :
    Option (Stopped (BestRoute K)) :=
  improveLoop (findImprovement haversineDistanceKm)
    (fun iterations => decide (((iterations : K) : WithTop K) < maxIterations)) fuel 0 true best

/-- **`twoOptOptimization`**; `maxIterations` may be `Infinity`. -/
def twoOptOptimization (route : List (GeoCoordinate K)) (maxIterations : WithTop K) (fuel : ℕ) :
    Option (OptimizedRoute K) :=
  let total := computeTotalRouteDistanceKm haversineDistanceKm route
  if route.length ≤ 3 then some ⟨route, total⟩
  else
    (twoOptLoop haversineDistanceKm maxIterations fuel ⟨route, total⟩).map fun stopped =>
      ⟨stopped.state.bestRoute, stopped.state.bestDistance⟩

/-! ## Reversing a segment -/

variable {α : Type}

theorem copyStops_range' (route : List α) (a n : ℕ) :
    copyStops route (List.range' a n) = (route.drop a).take n := by
  induction n generalizing a with
  | zero => rw [List.take_zero]; rfl
  | succ n ih =>
    rw [List.range'_succ, copyStops, List.filterMap_cons, ← copyStops, ih]
    rcases Nat.lt_or_ge a route.length with ha | ha
    · rw [List.getElem?_eq_getElem ha, List.drop_eq_getElem_cons ha, List.take_succ_cons]
    · rw [List.getElem?_eq_none ha, List.drop_eq_nil_of_le ha, List.take_nil,
        List.drop_eq_nil_of_le (Nat.le_succ_of_le ha), List.take_nil]

theorem copyStops_reverse (route : List α) (cs : List ℕ) :
    copyStops route cs.reverse = (copyStops route cs).reverse := List.filterMap_reverse

/-- **The three copy loops reverse a segment.** -/
theorem twoOptSwap_eq (pre seg post : List α) (hseg : seg ≠ []) :
    twoOptSwap (pre ++ seg ++ post) pre.length (pre.length + seg.length - 1) =
      pre ++ seg.reverse ++ post := by
  have hpos := List.length_pos_iff.mpr hseg
  have hk : pre.length + seg.length - 1 + 1 = pre.length + seg.length := by omega
  rw [twoOptSwap, hk, List.range_eq_range', copyStops_reverse, copyStops_range',
    copyStops_range', copyStops_range']
  simp only [List.append_assoc, List.drop_zero, List.take_left', List.drop_left',
    List.length_append]
  simp
  omega

theorem exists_segment {route : List α} {i j : ℕ} (hi : 1 ≤ i) (hij : i < j)
    (hj : j + 1 < route.length) : ∃ pre seg post, route = pre ++ seg ++ post ∧ pre ≠ [] ∧
      2 ≤ seg.length ∧ post ≠ [] ∧ i = pre.length ∧ j = pre.length + seg.length - 1 := by
  refine ⟨route.take i, (route.drop i).take (j + 1 - i), (route.drop i).drop (j + 1 - i), ?_, ?_⟩
  · rw [List.append_assoc, List.take_append_drop, List.take_append_drop]
  · have hpre : (route.take i).length = i := by rw [List.length_take]; omega
    have hseg : ((route.drop i).take (j + 1 - i)).length = j + 1 - i := by
      rw [List.length_take, List.length_drop]; omega
    have hpost : 0 < ((route.drop i).drop (j + 1 - i)).length := by
      rw [List.length_drop, List.length_drop]; omega
    refine ⟨List.length_pos_iff.mp ?_, ?_, List.length_pos_iff.mp hpost, hpre.symm, ?_⟩ <;> omega

end MathOptimizationEngine

open MathOptimizationEngine

/-- **The same stops between the same ends.** -/
structure Reroutes {α : Type} (route route' : List α) : Prop where
  perm : route'.Perm route
  first : route'.head? = route.head?
  last : route'.getLast? = route.getLast?

theorem Reroutes.refl {α : Type} (route : List α) : Reroutes route route :=
  ⟨List.Perm.refl _, rfl, rfl⟩

theorem Reroutes.trans {α : Type} {r₁ r₂ r₃ : List α} (h : Reroutes r₁ r₂) (h' : Reroutes r₂ r₃) :
    Reroutes r₁ r₃ :=
  ⟨h'.perm.trans h.perm, h'.first.trans h.first, h'.last.trans h.last⟩

theorem reroutes_reverse {α : Type} {pre seg post : List α} (hpre : pre ≠ []) (hpost : post ≠ []) :
    Reroutes (pre ++ seg ++ post) (pre ++ seg.reverse ++ post) where
  perm := ((List.reverse_perm seg).append_left pre).append_right post
  first := by
    rw [List.append_assoc, List.append_assoc, List.head?_append_of_ne_nil _ hpre,
      List.head?_append_of_ne_nil _ hpre]
  last := by
    rw [List.getLast?_append_of_ne_nil _ hpost, List.getLast?_append_of_ne_nil _ hpost]

/-! ## One round -/

section Round

variable {K : Type} [Field K] [LinearOrder K] {dist : GeoCoordinate K → GeoCoordinate K → K}
  {route : List (GeoCoordinate K)} {best best' : BestRoute K}

theorem tryReversal_eq_some {i j : ℕ} (h : tryReversal dist best i j = some best') :
    best'.bestRoute = twoOptSwap best.bestRoute i j ∧
      best'.bestDistance = computeTotalRouteDistanceKm dist best'.bestRoute ∧
      best'.bestDistance < best.bestDistance - 1 / 1000 := by
  simp only [tryReversal] at h
  split_ifs at h with hshorter
  obtain rfl := Option.some.inj h
  exact ⟨rfl, rfl, hshorter⟩

/-- What an improvement is: a reversal inside the route. -/
theorem findImprovement_eq_some (h : findImprovement dist best = some best') :
    ∃ i j, 1 ≤ i ∧ i < j ∧ j + 1 < best.bestRoute.length ∧
      tryReversal dist best i j = some best' := by
  obtain ⟨i, hi, h⟩ := List.exists_of_findSome?_eq_some h
  obtain ⟨j, hj, h⟩ := List.exists_of_findSome?_eq_some h
  rw [List.mem_range'_1] at hi hj
  exact ⟨i, j, hi.1, hj.1, by omega, h⟩

/-- Without an improvement, all reversals have been tried. -/
theorem findImprovement_eq_none (h : findImprovement dist best = none) {i j : ℕ} (hi : 1 ≤ i)
    (hij : i < j) (hj : j + 1 < best.bestRoute.length) : tryReversal dist best i j = none := by
  have hi' := List.findSome?_eq_none_iff.mp h i (List.mem_range'_1.mpr ⟨hi, by omega⟩)
  exact List.findSome?_eq_none_iff.mp hi' j (List.mem_range'_1.mpr ⟨hij, by omega⟩)

/-- What the loop keeps. -/
structure Tracks (dist : GeoCoordinate K → GeoCoordinate K → K) (route : List (GeoCoordinate K))
    (best : BestRoute K) : Prop where
  reroutes : Reroutes route best.bestRoute
  distance : best.bestDistance = computeTotalRouteDistanceKm dist best.bestRoute
  shorter : best.bestDistance ≤ computeTotalRouteDistanceKm dist route

theorem Tracks.start : Tracks dist route ⟨route, computeTotalRouteDistanceKm dist route⟩ :=
  ⟨.refl route, rfl, le_rfl⟩

theorem Tracks.improve [IsStrictOrderedRing K] (h : Tracks dist route best)
    (himp : findImprovement dist best = some best') : Tracks dist route best' := by
  obtain ⟨i, j, hi, hij, hj, htry⟩ := findImprovement_eq_some himp
  obtain ⟨hroute, hdistance, hshorter⟩ := tryReversal_eq_some htry
  obtain ⟨pre, seg, post, hsplit, hpre, hseg, hpost, rfl, rfl⟩ := exists_segment hi hij hj
  refine ⟨h.reroutes.trans ?_, hdistance, ?_⟩
  · rw [hroute, hsplit, twoOptSwap_eq _ _ _ (List.length_pos_iff.mp (by omega))]
    exact reroutes_reverse hpre hpost
  · exact (hshorter.le.trans (sub_le_self _ (by positivity))).trans h.shorter

/-- **No reversal inside the route shortens it by more than a metre.** -/
def LocallyOptimal (dist : GeoCoordinate K → GeoCoordinate K → K)
    (route : List (GeoCoordinate K)) : Prop :=
  ∀ pre seg post, route = pre ++ seg ++ post → pre ≠ [] → 2 ≤ seg.length → post ≠ [] →
    ¬ computeTotalRouteDistanceKm dist (pre ++ seg.reverse ++ post) <
      computeTotalRouteDistanceKm dist route - 1 / 1000

theorem locallyOptimal_of_length_le (h : route.length ≤ 3) : LocallyOptimal dist route := by
  rintro pre seg post rfl hpre hseg hpost
  have hpre' := List.length_pos_iff.mpr hpre
  have hpost' := List.length_pos_iff.mpr hpost
  rw [List.length_append, List.length_append] at h
  omega

theorem Tracks.locallyOptimal (h : Tracks dist route best)
    (hnone : findImprovement dist best = none) : LocallyOptimal dist best.bestRoute := by
  intro pre seg post hsplit hpre hseg hpost hshorter
  have hlen := congrArg List.length hsplit
  have hpre' := List.length_pos_iff.mpr hpre
  have hpost' := List.length_pos_iff.mpr hpost
  rw [List.length_append, List.length_append] at hlen
  have htry := findImprovement_eq_none (j := pre.length + seg.length - 1) hnone hpre'
    (by omega) (by omega)
  have hswap : twoOptSwap best.bestRoute pre.length (pre.length + seg.length - 1) =
      pre ++ seg.reverse ++ post := by
    rw [hsplit, twoOptSwap_eq _ _ _ (List.length_pos_iff.mp (by omega))]
  rw [← h.distance] at hshorter
  rw [tryReversal, hswap, if_pos hshorter] at htry
  cases htry

end Round

/-! ## The optimization -/

/-- **What `twoOptOptimization` promises of its result.** -/
structure TwoOptSound {K : Type} [Field K] [LinearOrder K]
    (dist : GeoCoordinate K → GeoCoordinate K → K) (route : List (GeoCoordinate K))
    (maxIterations : WithTop K) (result : OptimizedRoute K) : Prop where
  reroutes : Reroutes route result.optimizedRoute
  total : result.totalDistanceKm = computeTotalRouteDistanceKm dist result.optimizedRoute
  shorter : result.totalDistanceKm ≤ computeTotalRouteDistanceKm dist route
  /-- The loop stopped before `maxIterations`. -/
  locallyOptimal : ∀ fuel stopped, twoOptLoop dist maxIterations fuel
      ⟨route, computeTotalRouteDistanceKm dist route⟩ = some stopped →
    ((stopped.iterations : K) : WithTop K) < maxIterations →
    LocallyOptimal dist result.optimizedRoute

section Sound

variable {K : Type} [Field K] [LinearOrder K] [IsStrictOrderedRing K]
  {dist : GeoCoordinate K → GeoCoordinate K → K}

theorem computeTotalRouteDistanceKm_nonneg (hdist : ∀ a b, 0 ≤ dist a b)
    (route : List (GeoCoordinate K)) : 0 ≤ computeTotalRouteDistanceKm dist route := by
  rw [computeTotalRouteDistanceKm, ← List.map_uncurry_zip_eq_zipWith]
  exact List.sum_nonneg (List.forall_mem_map.mpr fun leg _ => hdist leg.1 leg.2)

theorem exists_twoOptLoop [Archimedean K] (hdist : ∀ a b, 0 ≤ dist a b)
    (route : List (GeoCoordinate K)) (maxIterations : WithTop K) :
    ∃ N stopped, Tracks dist route stopped.state ∧
      ∀ fuel ≥ N, twoOptLoop dist maxIterations fuel
        ⟨route, computeTotalRouteDistanceKm dist route⟩ = some stopped := by
  have hgain : ∀ best best', Tracks dist route best → findImprovement dist best = some best' →
      best'.bestDistance + 1 / 1000 ≤ best.bestDistance := fun best best' _ himp => by
    obtain ⟨i, j, -, -, -, htry⟩ := findImprovement_eq_some himp
    exact (lt_sub_iff_add_lt.mp (tryReversal_eq_some htry).2.2).le
  obtain ⟨N, stopped, hstop⟩ : ∃ N stopped, ∀ fuel ≥ N, twoOptLoop dist maxIterations fuel
      ⟨route, computeTotalRouteDistanceKm dist route⟩ = some stopped :=
    exists_improveLoop (fun _ _ h himp => h.improve himp)
      (fun best h => h.distance ▸ computeTotalRouteDistanceKm_nonneg hdist best.bestRoute)
      (by positivity) hgain .start
  refine ⟨N, stopped, ?_, hstop⟩
  exact improveLoop_invariant (fun _ _ h himp => h.improve himp) .start (hstop N le_rfl)

/-- **2-opt ends**, with the same stops between the same ends and no longer way; when its loop
stopped before `maxIterations`, no reversal shortens the route by more than a metre. -/
theorem twoOptOptimization_sound [Archimedean K] (hdist : ∀ a b, 0 ≤ dist a b)
    (route : List (GeoCoordinate K)) (maxIterations : WithTop K) :
    ∃ N result, (∀ fuel ≥ N, twoOptOptimization dist route maxIterations fuel = some result) ∧
      TwoOptSound dist route maxIterations result := by
  by_cases hlen : route.length ≤ 3
  · refine ⟨0, ⟨route, computeTotalRouteDistanceKm dist route⟩, fun fuel _ => if_pos hlen,
      ⟨.refl route, rfl, le_rfl, fun _ _ _ _ => ?_⟩⟩
    exact locallyOptimal_of_length_le hlen
  · obtain ⟨N, stopped, htracks, hstop⟩ := exists_twoOptLoop hdist route maxIterations
    refine ⟨N, ⟨stopped.state.bestRoute, stopped.state.bestDistance⟩, fun fuel hfuel => ?_,
      ⟨htracks.reroutes, htracks.distance, htracks.shorter, fun fuel stopped' hrun hgo => ?_⟩⟩
    · simp only [twoOptOptimization, if_neg hlen, hstop fuel hfuel, Option.map_some]
    · obtain rfl := improveLoop_unique hrun (hstop N le_rfl)
      exact htracks.locallyOptimal (improveLoop_stopped (fun h => absurd h.symm Bool.false_ne_true)
        hrun (decide_eq_true hgo))

/-- A case: stops on a line, and no bound on the iterations. -/
theorem twoOptOptimization_sound_line :
    ∃ N result, (∀ fuel ≥ N, twoOptOptimization (fun a b => |a.latitude - b.latitude|)
        [⟨0, 0⟩, ⟨5, 0⟩, ⟨1, 0⟩, ⟨6, 0⟩] (⊤ : WithTop ℚ) fuel = some result) ∧
      TwoOptSound (fun a b => |a.latitude - b.latitude|)
        [⟨0, 0⟩, ⟨5, 0⟩, ⟨1, 0⟩, ⟨6, 0⟩] ⊤ result :=
  twoOptOptimization_sound (fun _ _ => abs_nonneg _) _ ⊤

end Sound


end Logix
