import Logix.Inventory.CrossDock

/-!
# Missed opportunities of cross-docking

A pallet serves one order only. What it has left over stays on the pallet, also where a later order
for its product is open.

* `supplies`, `demands`: the quantities for one product;
* **`matchCrossDockOpportunities_serve`**: for each product, the sorter lets the supplies serve the
  demands;
* `Misses`: there are a pallet and an open order for one product in the end;
* **`not_misses_iff`**: this depends on how the pallets of each product can be cut into runs.
-/

namespace Logix.Inventory

open Spec CrossDockingFreightSorter

/-- The quantities of the pallets with the product. -/
def supplies (sku : String) (pallets : List InboundPallet) : List Double :=
  (pallets.filter fun p => p.sku = sku).map InboundPallet.quantity

/-- The requirements of the orders for the product. -/
def demands (sku : String) (orders : List OutboundRequirement) : List Double :=
  (orders.filter fun o => o.sku = sku).map OutboundRequirement.requiredQuantity

section Projection

variable {sku : String} {pallets : List InboundPallet} {orders : List OutboundRequirement}

theorem supplies_append (pallets pallets' : List InboundPallet) :
    supplies sku (pallets ++ pallets') = supplies sku pallets ++ supplies sku pallets' := by
  rw [supplies, List.filter_append, List.map_append, supplies, supplies]

theorem demands_append (orders orders' : List OutboundRequirement) :
    demands sku (orders ++ orders') = demands sku orders ++ demands sku orders' := by
  rw [demands, List.filter_append, List.map_append, demands, demands]

theorem supplies_singleton {p : InboundPallet} (h : p.sku = sku) :
    supplies sku [p] = [p.quantity] := by
  simp [supplies, h]

theorem supplies_singleton_of_ne {p : InboundPallet} (h : p.sku ≠ sku) : supplies sku [p] = [] := by
  simp [supplies, h]

theorem demands_cons {o : OutboundRequirement} (h : o.sku = sku)
    (orders : List OutboundRequirement) :
    demands sku (o :: orders) = o.requiredQuantity :: demands sku orders := by
  simp [demands, h]

theorem demands_cons_of_ne {o : OutboundRequirement} (h : o.sku ≠ sku)
    (orders : List OutboundRequirement) : demands sku (o :: orders) = demands sku orders := by
  simp [demands, h]

theorem forall_mem_demands {p : Double → Prop} :
    (∀ q ∈ demands sku orders, p q) ↔ ∀ o ∈ orders, o.sku = sku → p o.requiredQuantity := by
  rw [demands, List.forall_mem_map]
  simp only [List.mem_filter, decide_eq_true_eq, and_imp]

theorem forall_mem_supplies {p : Double → Prop} :
    (∀ q ∈ supplies sku pallets, p q) ↔ ∀ l ∈ pallets, l.sku = sku → p l.quantity := by
  rw [supplies, List.forall_mem_map]
  simp only [List.mem_filter, decide_eq_true_eq, and_imp]

/-- **A visit, for the product of the pallet**: its supply serves the demands. -/
theorem visit_self (s : CrossDock) (pallet : InboundPallet) :
    supplies pallet.sku (visit s pallet).pallets = supplies pallet.sku s.pallets ++
        [(serveOne pallet.quantity (demands pallet.sku s.orders)).1] ∧
      demands pallet.sku (visit s pallet).orders =
        (serveOne pallet.quantity (demands pallet.sku s.orders)).2 := by
  cases hfind : findNeeded pallet s.orders with
  | none =>
    have hclosed := serveOne_of_nonpos (forall_mem_demands.mpr (findNeeded_eq_none hfind))
      pallet.quantity
    simp only [visit, hfind, hclosed, supplies_append, supplies_singleton rfl, and_self]
  | some found =>
    obtain ⟨pre, neededOrder, post⟩ := found
    obtain ⟨hsplit, hsku, hopen, hpre⟩ := findNeeded_eq_some hfind
    have hserve : serveOne pallet.quantity (demands pallet.sku s.orders) =
        (pallet.quantity - transferQty pallet neededOrder, demands pallet.sku pre ++
          (neededOrder.requiredQuantity - transferQty pallet neededOrder) ::
            demands pallet.sku post) := by
      rw [hsplit, demands_append, demands_cons hsku,
        serveOne_append (forall_mem_demands.mpr hpre) hopen]
      rfl
    rw [hserve]
    simp only [visit, hfind]
    refine ⟨?_, ?_⟩
    · rw [supplies_append, supplies_singleton (sku_unloadPallet pallet _), unloadPallet]
    · rw [demands_append, demands_cons (o := fulfil neededOrder _) hsku, fulfil]

theorem visit_of_ne (s : CrossDock) {pallet : InboundPallet} (h : pallet.sku ≠ sku) :
    supplies sku (visit s pallet).pallets = supplies sku s.pallets ∧
      demands sku (visit s pallet).orders = demands sku s.orders := by
  cases hfind : findNeeded pallet s.orders with
  | none =>
    simp only [visit, hfind, supplies_append, supplies_singleton_of_ne h, List.append_nil, and_self]
  | some found =>
    obtain ⟨pre, neededOrder, post⟩ := found
    obtain ⟨hsplit, hsku, -, -⟩ := findNeeded_eq_some hfind
    have hne : neededOrder.sku ≠ sku := hsku ▸ h
    simp only [visit, hfind]
    refine ⟨?_, ?_⟩
    · rw [supplies_append, supplies_singleton_of_ne (p := unloadPallet pallet _) h,
        List.append_nil]
    · rw [hsplit, demands_append, demands_append, demands_cons_of_ne hne,
        demands_cons_of_ne (o := fulfil neededOrder _) hne]

/-- **For each product, the sorter lets the supplies serve the demands.** -/
theorem matchCrossDockOpportunities_serve (sku : String) (pallets : List InboundPallet)
    (orders : List OutboundRequirement) :
    supplies sku (matchCrossDockOpportunities pallets orders).pallets =
        (serve (supplies sku pallets) (demands sku orders)).1 ∧
      demands sku (matchCrossDockOpportunities pallets orders).orders =
        (serve (supplies sku pallets) (demands sku orders)).2 := by
  induction pallets using List.reverseRecOn with
  | nil => exact ⟨rfl, rfl⟩
  | append_singleton pallets pallet ih =>
    obtain ⟨hsupplies, hdemands⟩ := ih
    rw [matchCrossDockOpportunities_append, supplies_append]
    by_cases hsku : pallet.sku = sku
    · subst hsku
      obtain ⟨hs, hd⟩ := visit_self (matchCrossDockOpportunities pallets orders) pallet
      rw [hs, hd, hsupplies, hdemands, supplies_singleton rfl, serve_append_singleton]
      exact ⟨rfl, rfl⟩
    · obtain ⟨hs, hd⟩ := visit_of_ne (matchCrossDockOpportunities pallets orders) hsku
      rw [hs, hd, hsupplies, hdemands, supplies_singleton_of_ne hsku, List.append_nil]
      exact ⟨rfl, rfl⟩

end Projection

/-! ## Missed opportunities -/

/-- **A pallet and an open order for one product remain.** -/
def Misses (s : CrossDock) : Prop :=
  ∃ pallet ∈ s.pallets, ∃ order ∈ s.orders,
    pallet.sku = order.sku ∧ 0 < pallet.quantity ∧ 0 < order.requiredQuantity

instance (s : CrossDock) : Decidable (Misses s) :=
  inferInstanceAs (Decidable (∃ pallet ∈ s.pallets, ∃ order ∈ s.orders, _ ∧ _ ∧ _))

/-- The pallets with the product fill its orders exactly, up to the last order that they reach, or
they meet all its orders. -/
def Suits (sku : String) (pallets : List InboundPallet) (orders : List OutboundRequirement) :
    Prop :=
  Fills (supplies sku pallets) (demands sku orders) ∨
    Covers (supplies sku pallets) (demands sku orders)

theorem not_misses_iff_supplies {s : CrossDock} : ¬ Misses s ↔ ∀ sku,
    (∀ q ∈ supplies sku s.pallets, q ≤ 0) ∨ ∀ q ∈ demands sku s.orders, q ≤ 0 := by
  simp only [forall_mem_supplies, forall_mem_demands]
  constructor
  · intro h sku
    by_contra hboth
    rw [not_or] at hboth
    obtain ⟨hpallets, horders⟩ := hboth
    push Not at hpallets horders
    obtain ⟨pallet, hpallet, hps, hp⟩ := hpallets
    obtain ⟨order, horder, hos, ho⟩ := horders
    exact h ⟨pallet, hpallet, order, horder, hps.trans hos.symm, hp, ho⟩
  · rintro h ⟨pallet, hpallet, order, horder, hsku, hp, ho⟩
    rcases h order.sku with hsupplies | hdemands
    · exact absurd (hsupplies pallet hpallet hsku) (not_le.mpr hp)
    · exact absurd (hdemands order horder rfl) (not_le.mpr ho)

/-- **No opportunity is missed exactly when the pallets of every product suit its orders.** -/
theorem not_misses_iff {pallets : List InboundPallet} {orders : List OutboundRequirement}
    (hpallets : ∀ p ∈ pallets, 0 ≤ p.quantity) (horders : ∀ o ∈ orders, 0 ≤ o.requiredQuantity) :
    ¬ Misses (matchCrossDockOpportunities pallets orders) ↔ ∀ sku, Suits sku pallets orders := by
  rw [not_misses_iff_supplies]
  refine forall_congr' fun sku => ?_
  obtain ⟨hsupplies, hdemands⟩ := matchCrossDockOpportunities_serve sku pallets orders
  rw [hsupplies, hdemands]
  exact used_or_met_iff (forall_mem_supplies.mpr fun p hp _ => hpallets p hp)
    (forall_mem_demands.mpr fun o ho _ => horders o ho)

/-- The second pallet exceeds what rounding leaves of the first order. -/
example : Misses (matchCrossDockOpportunities
    [⟨"P1", "milk", .ofRat (1 / 10)⟩, ⟨"P2", "milk", .ofRat (2 / 10)⟩]
    [⟨"O1", "milk", .ofRat (3 / 10), "d"⟩, ⟨"O2", "milk", 5, "e"⟩]) := by decide +kernel

/-- A case: one pallet fills the first order and reaches no other. -/
theorem not_misses_iff_one :
    ¬ Misses (matchCrossDockOpportunities [⟨"P1", "milk", 6⟩]
        [⟨"O1", "milk", 6, "d"⟩, ⟨"O2", "milk", 8, "e"⟩]) ↔
      ∀ sku, Suits sku [⟨"P1", "milk", 6⟩]
        [⟨"O1", "milk", 6, "d"⟩, ⟨"O2", "milk", 8, "e"⟩] :=
  not_misses_iff (by decide +kernel) (by decide +kernel)

/-- **A pallet that exceeds an order misses the next one.** -/
theorem matchCrossDockOpportunities_misses :
    ¬ ∀ (pallets : List InboundPallet) (orders : List OutboundRequirement),
      (∀ p ∈ pallets, 0 ≤ p.quantity) → (∀ o ∈ orders, 0 ≤ o.requiredQuantity) →
        ¬ Misses (matchCrossDockOpportunities pallets orders) := by
  intro h
  exact absurd (h [⟨"P1", "milk", 10⟩] [⟨"O1", "milk", 6, "d"⟩, ⟨"O2", "milk", 4, "e"⟩]
    (by decide +kernel) (by decide +kernel)) (by decide +kernel)

end Logix.Inventory
