import Logix.Js.Date
import Logix.Js.Map
import Logix.Js.Number
import Logix.Spec.GreatCircle
import Logix.Spec.Slots
import Logix.Spec.Walks

/-!
# How far can a user get unnoticed?

A login is compared with the one before it of the same user: it is suspicious when the clock did not
advance, or when the distance is over 300 km and the speed, to one decimal, over 900 km/h.

* `ImpossibleTravelAnomalyDetector.evaluateLogin`: the code, for any functions of trigonometry, and
  the machine of its runs;
* `watchUser`: the machine of one user; `travelMachine_slotted`: the code runs it for every user;
* `TooFast`: what is suspicious, on the real sphere;
* `Watched`: which logins are flagged, and how far a user gets who is not;
* **`evaluateLogin_watched`**: this holds of every user in every run, as if there were no logins of
  others.

The numbers are the real ones: rounding in the functions of trigonometry is left out, and so are
invalid dates.
-/

namespace Logix.Auth

open Spec
open scoped Numerals

/-- `IUserLoginLocation`. -/
structure IUserLoginLocation (K : Type) where
  userId : String
  ipAddress : String
  latitude : K
  longitude : K
  cityName : String
  countryIso : String
  timestamp : JsDate

/-- What `evaluateLogin` returns. -/
structure LoginEvaluation (K : Type) where
  isSuspicious : Bool
  impliedSpeedKmh : K
  previousCity : Option String

/-- **`ImpossibleTravelAnomalyDetector`.** -/
structure ImpossibleTravelAnomalyDetector (K : Type) where
  userHistory : JsMap String (IUserLoginLocation K)

namespace ImpossibleTravelAnomalyDetector

/-! ## The code -/

section Code

variable {K : Type} [Field K] (T : Trigonometry K)

/-- `new ImpossibleTravelAnomalyDetector()`. -/
def new : ImpossibleTravelAnomalyDetector K := ⟨.empty⟩

/-- `elapsedHours`. -/
def elapsedHours (previous login : IUserLoginLocation K) : K :=
  ((login.timestamp - previous.timestamp : ℤ) : K) / (1000 * 3600)

/-- `distanceKm`. -/
def distanceKm (previous login : IUserLoginLocation K) : K :=
  let R := 6371
  let dLat := (login.latitude - previous.latitude) * T.pi / 180
  let dLon := (login.longitude - previous.longitude) * T.pi / 180
  let a := T.sin (dLat / 2) * T.sin (dLat / 2) +
    T.cos (previous.latitude * T.pi / 180) * T.cos (login.latitude * T.pi / 180) *
      T.sin (dLon / 2) * T.sin (dLon / 2)
  let c := 2 * T.atan2 (T.sqrt a) (T.sqrt (1 - a))
  R * c

variable [LinearOrder K] [FloorRing K]

/-- The login, given the one before it. -/
def evaluate (previous : Option (IUserLoginLocation K)) (login : IUserLoginLocation K) :
    LoginEvaluation K :=
  match previous with
  | none => ⟨false, 0, none⟩
  | some previous =>
    if elapsedHours previous login ≤ 0 then ⟨true, 9999, some previous.cityName⟩
    else
      let distanceKm := distanceKm T previous login
      let impliedSpeedKmh := toFixedIn 1 (distanceKm / elapsedHours previous login)
      let isSuspicious := decide (900 < impliedSpeedKmh) && decide (300 < distanceKm)
      ⟨isSuspicious, impliedSpeedKmh, some previous.cityName⟩

/-- **`evaluateLogin(login)`.** -/
def evaluateLogin (login : IUserLoginLocation K) (s : ImpossibleTravelAnomalyDetector K) :
    ImpossibleTravelAnomalyDetector K × LoginEvaluation K :=
  let previous := s.userHistory.get login.userId
  (⟨s.userHistory.set login.userId login⟩, evaluate T previous login)

/-- **The logins of a run.** -/
def travelMachine :
    Machine (ImpossibleTravelAnomalyDetector K) (IUserLoginLocation K) (LoginEvaluation K) where
  call := evaluateLogin T

/-! ## One user -/

/-- **The machine of one user**: its state is the last login. -/
def watchUser :
    Machine (Option (IUserLoginLocation K)) (IUserLoginLocation K) (LoginEvaluation K) where
  call login previous := (some login, evaluate T previous login)

/-- **The detector runs the machine of one user for every user.** -/
theorem travelMachine_slotted : (travelMachine T).Slotted (watchUser T) IUserLoginLocation.userId
    fun user s => s.userHistory.get user where
  own s login := by
    simp only [Machine.next, travelMachine, evaluateLogin, watchUser, JsMap.get_set_self]
  other s login user h := by
    simp only [Machine.next, travelMachine, evaluateLogin, JsMap.get_set_ne h]

theorem isChain_watchUser (previous : Option (IUserLoginLocation K))
    (logins : List (IUserLoginLocation K)) :
    (entries ((watchUser T).history previous logins)).IsChain
      fun e e' => e'.2 = evaluate T (some e.1) e'.1 := by
  induction logins generalizing previous with
  | nil => exact .nil
  | cons login logins ih =>
    cases logins with
    | nil => exact .singleton _
    | cons login' logins => exact .cons_cons rfl (ih (some login))

theorem head?_watchUser (previous : Option (IUserLoginLocation K))
    (logins : List (IUserLoginLocation K)) :
    (entries ((watchUser T).history previous logins)).head? =
      logins.head?.map fun login => (login, evaluate T previous login) := by
  cases logins <;> rfl

end Code

/-! ## On the sphere -/

variable (previous login login' : IUserLoginLocation ℝ)

/-- Degrees in radians. -/
noncomputable def radians (degrees : ℝ) : ℝ := degrees * Real.pi / 180

theorem distanceKm_eq : distanceKm realTrigonometry previous login =
    6371 * centralAngle realTrigonometry (radians previous.latitude) (radians previous.longitude)
      (radians login.latitude) (radians login.longitude) := by
  have hsub (x y : ℝ) : (x - y) * Real.pi / 180 = radians x - radians y := by
    simp only [radians]
    ring
  have h (s t u v : ℝ) : s * s + u * v * t * t = s ^ 2 + u * v * t ^ 2 := by ring
  simp only [distanceKm, centralAngle, haversine, realTrigonometry, hsub, h]
  rfl

theorem distanceKm_nonneg : 0 ≤ distanceKm realTrigonometry previous login := by
  rw [distanceKm_eq]
  exact mul_nonneg (by norm_num) (centralAngle_nonneg _ _ _ _)

theorem distanceKm_self : distanceKm realTrigonometry login login = 0 := by
  rw [distanceKm_eq, centralAngle_self, mul_zero]

theorem distanceKm_triangle : distanceKm realTrigonometry previous login' ≤
    distanceKm realTrigonometry previous login + distanceKm realTrigonometry login login' := by
  rw [distanceKm_eq, distanceKm_eq, distanceKm_eq, ← mul_add]
  exact mul_le_mul_of_nonneg_left (centralAngle_triangle _ _ _ _ _ _) (by norm_num)

theorem lt_toFixedIn_iff {speed : ℝ} (h : 0 ≤ speed) :
    900 < toFixedIn 1 speed ↔ 90005 / 100 ≤ speed := by
  have hten : (9001 : ℝ) / 10 ^ 1 ≤ |toFixedIn 1 speed| ↔ (9001 - 1 / 2) / 10 ^ 1 ≤ |speed| := by
    exact_mod_cast le_abs_toFixedIn_iff (K := ℝ) (d := 1) (k := 9001) (by norm_num) speed
  rw [abs_of_nonneg h] at hten
  rw [show (90005 / 100 : ℝ) = (9001 - 1 / 2) / 10 ^ 1 by norm_num, ← hten]
  by_cases hlarge : 10 ^ 21 ≤ |speed|
  · rw [toFixedIn, if_pos hlarge]
    exact iff_of_true (by linarith [abs_of_nonneg h]) (by linarith [abs_abs speed])
  · -- to one decimal the next number after `900` is `900.1`
    rw [abs_toFixedIn hlarge, toFixedIn, if_neg hlarge, if_neg (not_lt.mpr h), pow_one,
      lt_div_iff₀ (by norm_num), div_le_div_iff_of_pos_right (by norm_num)]
    norm_cast

/-- **What is suspicious.** -/
def TooFast : Prop :=
  elapsedHours previous login ≤ 0 ∨ 300 < distanceKm realTrigonometry previous login ∧
    90005 / 100 * elapsedHours previous login ≤ distanceKm realTrigonometry previous login

theorem isSuspicious_evaluate :
    (evaluate realTrigonometry (some previous) login).isSuspicious = true ↔
      TooFast previous login := by
  rw [TooFast, evaluate]
  by_cases helapsed : elapsedHours previous login ≤ 0
  · rw [if_pos helapsed]
    exact iff_of_true rfl (.inl helapsed)
  · have hspeed := lt_toFixedIn_iff
      (div_nonneg (distanceKm_nonneg previous login) (not_le.mp helapsed).le)
    rw [if_neg helapsed, or_iff_right helapsed, Bool.and_eq_true, decide_eq_true_iff,
      decide_eq_true_iff, hspeed, le_div_iff₀ (not_le.mp helapsed), and_comm]

theorem distanceKm_le_of_not_tooFast (h : ¬ TooFast previous login) :
    distanceKm realTrigonometry previous login ≤
      300 + 90005 / 100 * elapsedHours previous login := by
  obtain ⟨helapsed, hslow⟩ := not_or.mp h
  have hpos := not_le.mp helapsed
  by_cases hfar : 300 < distanceKm realTrigonometry previous login
  · have := not_le.mp fun hfast => hslow ⟨hfar, hfast⟩
    linarith
  · linarith [not_lt.mp hfar]

/-! ## Users in a run -/

/-- **The logins of a user are watched.** -/
structure Watched (es : List (IUserLoginLocation ℝ × LoginEvaluation ℝ)) : Prop where
  /-- The first login is not suspicious. -/
  first : ∀ e ∈ es.head?, e.2 = ⟨false, 0, none⟩
  /-- A later one is flagged iff it is too fast after the one before it. -/
  flagged : es.IsChain fun e e' => (e'.2.isSuspicious = true ↔ TooFast e.1 e'.1) ∧
    e'.2.previousCity = some e.1.cityName
  /-- A user who is never flagged gets 300 km further with each login, and 900.05 km with each
  hour. -/
  unnoticed : (∀ e ∈ es, e.2.isSuspicious = false) → ∀ e ∈ es.head?, ∀ e' ∈ es.getLast?,
    distanceKm realTrigonometry e.1 e'.1 ≤
      300 * (es.length - 1 : ℕ) + 90005 / 100 * elapsedHours e.1 e'.1

theorem previousCity_evaluate :
    (evaluate realTrigonometry (some previous) login).previousCity = some previous.cityName := by
  rw [evaluate]
  split_ifs <;> rfl

theorem flagged_of_eq {e e' : IUserLoginLocation ℝ × LoginEvaluation ℝ}
    (h : e'.2 = evaluate realTrigonometry (some e.1) e'.1) :
    (e'.2.isSuspicious = true ↔ TooFast e.1 e'.1) ∧ e'.2.previousCity = some e.1.cityName := by
  rw [h]
  exact ⟨isSuspicious_evaluate e.1 e'.1, previousCity_evaluate e.1 e'.1⟩

theorem distanceKm_le_of_unnoticed {es : List (IUserLoginLocation ℝ × LoginEvaluation ℝ)}
    (hchain : es.IsChain fun e e' => e'.2.isSuspicious = true ↔ TooFast e.1 e'.1)
    (hclear : ∀ e ∈ es, e.2.isSuspicious = false) {e e' : IUserLoginLocation ℝ × LoginEvaluation ℝ}
    (he : e ∈ es.head?) (he' : e' ∈ es.getLast?) : distanceKm realTrigonometry e.1 e'.1 ≤
      300 * (es.length - 1 : ℕ) + 90005 / 100 * elapsedHours e.1 e'.1 := by
  have hsteps : (es.map Prod.fst).IsChain fun previous login =>
      distanceKm realTrigonometry previous login ≤
        300 + 90005 / 100 * elapsedHours previous login := by
    rw [List.isChain_map]
    refine (hchain.imp_of_mem_imp fun e e' _ he' h => ?_)
    exact distanceKm_le_of_not_tooFast e.1 e'.1 fun hfast =>
      Bool.false_ne_true ((hclear e' he').symm.trans (h.mpr hfast))
  have hfirst : (es.map Prod.fst).head? = some e.1 := by
    rw [List.head?_map, Option.mem_def.mp he, Option.map_some]
  have hlast : (es.map Prod.fst).getLast? = some e'.1 := by
    rw [List.getLast?_map, Option.mem_def.mp he', Option.map_some]
  have hhours (previous login : IUserLoginLocation ℝ) :
      90005 / 100 * elapsedHours previous login =
        90005 / 100 * ((login.timestamp : ℝ) / (1000 * 3600)) -
          90005 / 100 * ((previous.timestamp : ℝ) / (1000 * 3600)) := by
    rw [elapsedHours, Int.cast_sub]
    ring
  calc distanceKm realTrigonometry e.1 e'.1
      ≤ walk (distanceKm realTrigonometry) (es.map Prod.fst) :=
        dist_le_walk distanceKm_nonneg (fun x y z => distanceKm_triangle x y z) distanceKm_self
          hfirst hlast
    _ ≤ walk (fun previous login => 300 + 90005 / 100 * elapsedHours previous login)
          (es.map Prod.fst) := walk_le_walk hsteps
    _ = 300 * (es.length - 1 : ℕ) + 90005 / 100 * elapsedHours e.1 e'.1 := by
        rw [walk_add (fun _ _ => 300), walk_const, List.length_map, mul_comm]
        simp only [hhours]
        rw [walk_sub _ hfirst hlast]

/-- **Every user is watched**, in every run, and as if there were no logins of others. -/
theorem evaluateLogin_watched (logins : List (IUserLoginLocation ℝ)) (user : String) :
    Watched (entriesOf IUserLoginLocation.userId user
      ((travelMachine realTrigonometry).history new logins)) ∧
    entriesOf IUserLoginLocation.userId user
        ((travelMachine realTrigonometry).history new logins) =
      entries ((travelMachine realTrigonometry).history new
        (logins.filter fun login => login.userId = user)) := by
  have hslotted := travelMachine_slotted realTrigonometry
  refine ⟨?_, hslotted.entriesOf_filter new logins user⟩
  rw [hslotted.entriesOf_history new logins user]
  have hchain := isChain_watchUser realTrigonometry ((new : ImpossibleTravelAnomalyDetector
    ℝ).userHistory.get user) (logins.filter fun login => login.userId = user)
  have hflagged := hchain.imp fun e e' h => flagged_of_eq h
  refine ⟨fun e he => ?_, hflagged, fun hclear e he e' he' =>
    distanceKm_le_of_unnoticed (hflagged.imp fun _ _ h => h.1) hclear he he'⟩
  rw [head?_watchUser] at he
  obtain ⟨login, -, rfl⟩ := Option.map_eq_some_iff.mp he
  rfl

end ImpossibleTravelAnomalyDetector

end Logix.Auth
