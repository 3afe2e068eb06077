import Mathlib.Algebra.Notation.Defs
import Mathlib.Data.List.Basic
import Mathlib.Order.MinMax

/-!
# Supplies that serve demands

Supplies come one after another, and each serves the first demand that is still open, as far as it
goes; what is left of it is not offered to the next demand. Subtraction may be rounded.

* `RoundedSub`: the laws of subtraction that are used; `remaining`: subtraction of one number after
  another;
* `serve`: what is left of the supplies and of the demands;
* `Covers`: consecutive runs of the supplies meet the demands one after another;
* `Fills`: consecutive runs of the supplies fill the demands exactly, up to the last one reached;
* **`met_iff_covers`**: no demand is left open exactly when the supplies cover the demands;
* **`used_or_met_iff`**: supply and demand are not both left over exactly when the supplies fill or
  cover the demands.
-/

namespace Logix.Spec

/-- **Subtraction with rounding**: it keeps the order, and tells whether numbers are equal. -/
class RoundedSub (K : Type) [LinearOrder K] [Zero K] [Sub K] : Prop where
  sub_zero (a : K) : a - 0 = a
  sub_nonneg {a b : K} : 0 ≤ a - b ↔ b ≤ a
  sub_nonpos {a b : K} : a - b ≤ 0 ↔ a ≤ b
  sub_le_self {a b : K} : 0 ≤ b → a - b ≤ a
  sub_le_sub_right {a b : K} : a ≤ b → ∀ c, a - c ≤ b - c

variable {K : Type} [Sub K] {p q : K} {ps qs r : List K}

/-- **What is left of `q`** when the numbers `r` are taken off one after another. -/
def remaining (q : K) (r : List K) : K := r.foldl (· - ·) q

@[simp] theorem remaining_nil : remaining q [] = q := rfl

@[simp] theorem remaining_cons : remaining q (p :: r) = remaining (q - p) r := rfl

theorem remaining_concat (q : K) (r : List K) (p : K) :
    remaining q (r ++ [p]) = remaining q r - p := List.foldl_append

variable [LinearOrder K] [Zero K]

/-- **One supply serves the first open demand.** -/
def serveOne (p : K) : List K → K × List K
  | [] => (p, [])
  | q :: qs =>
    if 0 < q then (p - min p q, (q - min p q) :: qs)
    else ((serveOne p qs).1, q :: (serveOne p qs).2)

/-- **The supplies in their order.** -/
def serve : List K → List K → List K × List K
  | [], qs => ([], qs)
  | p :: ps, qs =>
    ((serveOne p qs).1 :: (serve ps (serveOne p qs).2).1, (serve ps (serveOne p qs).2).2)

/-- No demand is left open. -/
def Met (ps qs : List K) : Prop := ∀ q ∈ (serve ps qs).2, q ≤ 0

/-- No supply is left over. -/
def Used (ps qs : List K) : Prop := ∀ p ∈ (serve ps qs).1, p ≤ 0

/-- **Runs of supplies meet the demands** one after another. -/
inductive Covers : List K → List K → Prop
  | nil {ps : List K} : Covers ps []
  | cons {r ps qs : List K} {q : K} (hr : remaining q r ≤ 0) (h : Covers ps qs) :
      Covers (r ++ ps) (q :: qs)

/-- **Runs of supplies fill the demands** exactly; the last demand that is reached may stay open. -/
inductive Fills : List K → List K → Prop
  | nil {qs : List K} : Fills [] qs
  | last {r qs : List K} {q : K} (hr : 0 ≤ remaining q r) : Fills r (q :: qs)
  | cons {r ps qs : List K} {q : K} (hr : remaining q r = 0) (h : Fills ps qs) :
      Fills (r ++ ps) (q :: qs)

/-! ## The process -/

theorem serveOne_append {pre : List K} (hpre : ∀ r ∈ pre, r ≤ 0) (hq : 0 < q) (p : K)
    (qs : List K) : serveOne p (pre ++ q :: qs) = (p - min p q, pre ++ (q - min p q) :: qs) := by
  induction pre with
  | nil => rw [List.nil_append, serveOne, if_pos hq, List.nil_append]
  | cons r pre ih =>
    obtain ⟨hr, hpre⟩ := List.forall_mem_cons.mp hpre
    rw [List.cons_append, serveOne, if_neg (not_lt.mpr hr), ih hpre, List.cons_append]

theorem serveOne_of_nonpos (h : ∀ q ∈ qs, q ≤ 0) (p : K) : serveOne p qs = (p, qs) := by
  induction qs with
  | nil => rfl
  | cons q qs ih =>
    obtain ⟨hq, hqs⟩ := List.forall_mem_cons.mp h
    rw [serveOne, if_neg (not_lt.mpr hq), ih hqs]

theorem serve_append_singleton (ps qs : List K) (p : K) : serve (ps ++ [p]) qs =
    ((serve ps qs).1 ++ [(serveOne p (serve ps qs).2).1], (serveOne p (serve ps qs).2).2) := by
  induction ps generalizing qs with
  | nil => rfl
  | cons p' ps ih => rw [List.cons_append, serve, ih, serve, List.cons_append]

theorem serve_closed (hq : q ≤ 0) (ps qs : List K) :
    serve ps (q :: qs) = ((serve ps qs).1, q :: (serve ps qs).2) := by
  induction ps generalizing qs with
  | nil => rfl
  | cons p ps ih =>
    have hone : serveOne p (q :: qs) = ((serveOne p qs).1, q :: (serveOne p qs).2) := by
      rw [serveOne, if_neg (not_lt.mpr hq)]
    rw [serve, hone, ih, serve]

theorem serve_nil_right (ps : List K) : serve ps [] = (ps, []) := by
  induction ps with
  | nil => rfl
  | cons p ps ih => rw [serve, serveOne, ih]

theorem met_nil_right : Met ps [] := by
  rw [Met, serve_nil_right]
  exact fun _ h => absurd h List.not_mem_nil

theorem met_closed (hq : q ≤ 0) : Met ps (q :: qs) ↔ Met ps qs := by
  rw [Met, serve_closed hq, List.forall_mem_cons, and_iff_right hq, Met]

theorem used_closed (hq : q ≤ 0) : Used ps (q :: qs) ↔ Used ps qs := by
  rw [Used, serve_closed hq, Used]

theorem Covers.join (h : Covers ps ((q - p) :: qs)) : Covers (p :: ps) (q :: qs) := by
  cases h with
  | cons hr h =>
    rw [← List.cons_append]
    exact .cons hr h

variable [RoundedSub K]

theorem sub_self_eq (p : K) : p - p = 0 :=
  le_antisymm (RoundedSub.sub_nonpos.mpr le_rfl) (RoundedSub.sub_nonneg.mpr le_rfl)

theorem serve_short (hq : 0 < q) (hpq : p ≤ q) (ps qs : List K) : serve (p :: ps) (q :: qs) =
    (0 :: (serve ps ((q - p) :: qs)).1, (serve ps ((q - p) :: qs)).2) := by
  have hone : serveOne p (q :: qs) = (0, (q - p) :: qs) := by
    rw [serveOne, if_pos hq, min_eq_left hpq, sub_self_eq]
  rw [serve, hone]

theorem serve_enough (hq : 0 < q) (hqp : q ≤ p) (ps qs : List K) : serve (p :: ps) (q :: qs) =
    ((p - q) :: (serve ps qs).1, 0 :: (serve ps qs).2) := by
  have hone : serveOne p (q :: qs) = (p - q, 0 :: qs) := by
    rw [serveOne, if_pos hq, min_eq_right hqp, sub_self_eq]
  rw [serve, hone, serve_closed le_rfl]

theorem met_short (hq : 0 < q) (hpq : p ≤ q) :
    Met (p :: ps) (q :: qs) ↔ Met ps ((q - p) :: qs) := by
  rw [Met, serve_short hq hpq, Met]

theorem met_enough (hq : 0 < q) (hqp : q ≤ p) : Met (p :: ps) (q :: qs) ↔ Met ps qs := by
  rw [Met, serve_enough hq hqp, List.forall_mem_cons, and_iff_right le_rfl, Met]

theorem used_short (hq : 0 < q) (hpq : p ≤ q) :
    Used (p :: ps) (q :: qs) ↔ Used ps ((q - p) :: qs) := by
  rw [Used, serve_short hq hpq, List.forall_mem_cons, and_iff_right le_rfl, Used]

theorem used_enough (hq : 0 < q) (hqp : q ≤ p) :
    Used (p :: ps) (q :: qs) ↔ p ≤ q ∧ Used ps qs := by
  rw [Used, serve_enough hq hqp, List.forall_mem_cons, RoundedSub.sub_nonpos, Used]

theorem used_zero : Used (0 :: ps) qs ↔ Used ps qs := by
  have hone : serveOne 0 qs = (0, qs) := by
    induction qs with
    | nil => rfl
    | cons q qs ih =>
      rcases le_or_gt q 0 with hq | hq
      · rw [serveOne, if_neg (not_lt.mpr hq), ih]
      · rw [serveOne, if_pos hq, min_eq_left hq.le, RoundedSub.sub_zero, RoundedSub.sub_zero]
  rw [Used, serve, hone, List.forall_mem_cons, and_iff_right le_rfl, Used]

theorem remaining_le (hr : ∀ p ∈ r, 0 ≤ p) (q : K) : remaining q r ≤ q := by
  induction r generalizing q with
  | nil => exact le_rfl
  | cons p r ih =>
    obtain ⟨hp, hr⟩ := List.forall_mem_cons.mp hr
    exact (ih hr (q - p)).trans (RoundedSub.sub_le_self hp)

theorem remaining_mono {q' : K} (h : q ≤ q') (r : List K) : remaining q r ≤ remaining q' r := by
  induction r generalizing q q' with
  | nil => exact h
  | cons p r ih => exact ih (RoundedSub.sub_le_sub_right h p)

/-! ## All demands are met -/

theorem Covers.cons_supply (hp : 0 ≤ p) (h : Covers ps qs) : Covers (p :: ps) qs := by
  cases h with
  | nil => exact .nil
  | cons hr h =>
    rw [← List.cons_append]
    exact .cons ((remaining_mono (RoundedSub.sub_le_self hp) _).trans hr) h

theorem Covers.append_supply (hr : ∀ p ∈ r, 0 ≤ p) (h : Covers ps qs) : Covers (r ++ ps) qs := by
  induction r with
  | nil => exact h
  | cons p r ih =>
    obtain ⟨hp, hr⟩ := List.forall_mem_cons.mp hr
    exact (ih hr).cons_supply hp

theorem Covers.tail (hps : ∀ p ∈ ps, 0 ≤ p) (h : Covers ps (q :: qs)) : Covers ps qs := by
  cases h with
  | cons _ h => exact h.append_supply fun p hp => hps p (List.mem_append_left _ hp)

theorem covers_of_met (h : Met ps qs) : Covers ps qs := by
  induction ps generalizing qs with
  | nil =>
    induction qs with
    | nil => exact .nil
    | cons q qs ih =>
      obtain ⟨hq, hqs⟩ := List.forall_mem_cons.mp h
      exact .cons (r := []) hq (ih hqs)
  | cons p ps ih =>
    induction qs with
    | nil => exact .nil
    | cons q qs ihq =>
      rcases le_or_gt q 0 with hq | hq
      · exact .cons (r := []) hq (ihq ((met_closed hq).mp h))
      rcases le_total q p with hqp | hpq
      · exact .cons (r := [p]) (RoundedSub.sub_nonpos.mpr hqp) (ih ((met_enough hq hqp).mp h))
      · exact (ih ((met_short hq hpq).mp h)).join

theorem Covers.uncons (hps : ∀ p ∈ ps, 0 ≤ p) (hq : 0 < q) (h : Covers (p :: ps) (q :: qs)) :
    Covers ps ((q - p) :: qs) ∧ Covers ps qs := by
  generalize hsupply : p :: ps = supply at h
  cases h with
  | @cons r ps' _ _ hr h =>
    rcases r with _ | ⟨p', r⟩
    · exact absurd hr (not_le.mpr hq)
    · rw [List.cons_append] at hsupply
      obtain ⟨rfl, rfl⟩ := List.cons.inj hsupply
      exact ⟨.cons hr h, h.append_supply fun p hp => hps p (List.mem_append_left _ hp)⟩

theorem met_of_covers (hps : ∀ p ∈ ps, 0 ≤ p) (h : Covers ps qs) : Met ps qs := by
  induction ps generalizing qs with
  | nil =>
    induction qs with
    | nil => exact met_nil_right
    | cons q qs ih =>
      generalize hsupply : ([] : List K) = supply at h
      cases h with
      | cons hr h =>
        obtain ⟨rfl, rfl⟩ := List.append_eq_nil_iff.mp hsupply.symm
        exact (met_closed hr).mpr (ih h)
  | cons p ps ih =>
    obtain ⟨hp, hrest⟩ := List.forall_mem_cons.mp hps
    induction qs with
    | nil => exact met_nil_right
    | cons q qs ihq =>
      rcases le_or_gt q 0 with hq | hq
      · exact (met_closed hq).mpr (ihq (h.tail hps))
      · obtain ⟨hshort, henough⟩ := h.uncons hrest hq
        rcases le_total q p with hqp | hpq
        · exact (met_enough hq hqp).mpr (ih hrest henough)
        · exact (met_short hq hpq).mpr (ih hrest hshort)

/-- **No demand is left open exactly when the supplies cover the demands.** -/
theorem met_iff_covers (hps : ∀ p ∈ ps, 0 ≤ p) : Met ps qs ↔ Covers ps qs :=
  ⟨covers_of_met, met_of_covers hps⟩

/-! ## All supplies are used -/

theorem Fills.join (h : Fills ps ((q - p) :: qs)) (hpq : p ≤ q) : Fills (p :: ps) (q :: qs) := by
  cases h with
  | nil => exact .last (RoundedSub.sub_nonneg.mpr hpq)
  | last hr => exact .last hr
  | cons hr h =>
    rw [← List.cons_append]
    exact .cons hr h

theorem fills_of_used (hqs : ∀ q ∈ qs, 0 ≤ q) (h : Used ps qs) : Fills ps qs ∨ Met ps qs := by
  induction ps generalizing qs with
  | nil => exact Or.inl .nil
  | cons p ps ih =>
    induction qs with
    | nil => exact Or.inr met_nil_right
    | cons q qs ihq =>
      obtain ⟨hq0, hrest⟩ := List.forall_mem_cons.mp hqs
      rcases le_or_gt q 0 with hq | hq
      · rcases ihq hrest ((used_closed hq).mp h) with hfills | hmet
        · exact Or.inl (.cons (r := []) (le_antisymm hq hq0) hfills)
        · exact Or.inr ((met_closed hq).mpr hmet)
      rcases le_total p q with hpq | hqp
      · have hopen : ∀ r ∈ (q - p) :: qs, 0 ≤ r :=
          List.forall_mem_cons.mpr ⟨RoundedSub.sub_nonneg.mpr hpq, hrest⟩
        rcases ih hopen ((used_short hq hpq).mp h) with hfills | hmet
        · exact Or.inl (hfills.join hpq)
        · exact Or.inr ((met_short hq hpq).mpr hmet)
      · -- the supply fills the demand, as nothing of it is left
        obtain ⟨hpq, hused⟩ := (used_enough hq hqp).mp h
        obtain rfl := le_antisymm hpq hqp
        rcases ih hrest hused with hfills | hmet
        · exact Or.inl (.cons (r := [p]) (sub_self_eq p) hfills)
        · exact Or.inr ((met_enough hq hqp).mpr hmet)

theorem le_of_remaining_nonneg (hr : ∀ p ∈ r, 0 ≤ p) (h : 0 ≤ remaining (q - p) r) : p ≤ q :=
  RoundedSub.sub_nonneg.mp (h.trans (remaining_le hr _))

theorem used_of_remaining_nonneg (hr : ∀ p ∈ r, 0 ≤ p) (h : 0 ≤ remaining q r) :
    Used r (q :: qs) := by
  induction r generalizing q with
  | nil => exact fun _ hmem => absurd hmem List.not_mem_nil
  | cons p r ih =>
    obtain ⟨hp, htail⟩ := List.forall_mem_cons.mp hr
    rcases hp.eq_or_lt with rfl | hpos
    · exact used_zero.mpr (ih htail (by rwa [remaining_cons, RoundedSub.sub_zero] at h))
    · have hpq := le_of_remaining_nonneg htail h
      exact (used_short (hpos.trans_le hpq) hpq).mpr (ih htail h)

theorem used_of_remaining_eq (hr : ∀ p ∈ r, 0 ≤ p) (h : remaining q r = 0) (hrest : Used ps qs) :
    Used (r ++ ps) (q :: qs) := by
  induction r generalizing q with
  | nil => exact (used_closed h.le).mpr hrest
  | cons p r ih =>
    obtain ⟨hp, htail⟩ := List.forall_mem_cons.mp hr
    rcases hp.eq_or_lt with rfl | hpos
    · exact used_zero.mpr (ih htail (by rwa [remaining_cons, RoundedSub.sub_zero] at h))
    · have hpq := le_of_remaining_nonneg htail h.ge
      exact (used_short (hpos.trans_le hpq) hpq).mpr (ih htail h)

theorem used_of_fills (hps : ∀ p ∈ ps, 0 ≤ p) (h : Fills ps qs) : Used ps qs := by
  induction h with
  | nil => exact fun _ hmem => absurd hmem List.not_mem_nil
  | last hr => exact used_of_remaining_nonneg hps hr
  | cons hr _ ih =>
    obtain ⟨hrun, hrest⟩ := List.forall_mem_append.mp hps
    exact used_of_remaining_eq hrun hr (ih hrest)

/-- **Supply and demand are not both left over exactly when the supplies fill or cover the
demands.** -/
theorem used_or_met_iff (hps : ∀ p ∈ ps, 0 ≤ p) (hqs : ∀ q ∈ qs, 0 ≤ q) :
    Used ps qs ∨ Met ps qs ↔ Fills ps qs ∨ Covers ps qs := by
  rw [met_iff_covers hps]
  constructor
  · rintro (hused | hcovers)
    · exact (fills_of_used hqs hused).imp_right covers_of_met
    · exact Or.inr hcovers
  · exact Or.imp_left (used_of_fills hps)

end Logix.Spec
