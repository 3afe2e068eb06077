import Mathlib.Algebra.BigOperators.Group.List.Basic
import Mathlib.Data.List.Induction
import Mathlib.Tactic.Ring
import Logix.Js.Double
import Logix.Spec.Serving

/-!
# Cross-docking

Inbound pallets are visited in order, and each serves the first open order for its product. Pallets
and orders are mutated on the way.

* `CrossDockingFreightSorter.matchCrossDockOpportunities`: the code, with what it leaves of the
  pallets and of the orders;
* `findNeeded_eq_some`, `findNeeded_eq_none`: the order that a pallet serves;
* `Accounts`: the matches as transfers between positions of the two lists, and the books they keep;
  `Conserves`: the books are exact;
* **`matchCrossDockOpportunities_accounts`**: the books are kept, and exact for whole numbers.
-/

namespace Logix.Inventory

open Spec

/-- `IInboundPallet`: what the sorter reads. -/
structure InboundPallet where
  palletId : String
  sku : String
  quantity : Double
  deriving DecidableEq, Repr

/-- `IOutboundRequirement`: what the sorter reads. -/
structure OutboundRequirement where
  orderId : String
  sku : String
  requiredQuantity : Double
  outboundDockDoor : String
  deriving DecidableEq, Repr

/-- A match. -/
structure CrossDockMatch where
  palletId : String
  orderId : String
  matchedQuantity : Double
  directDockTransferDoor : String
  deriving DecidableEq, Repr

/-- The pallets that were visited and all orders, as they are now, and the matches. -/
structure CrossDock where
  pallets : List InboundPallet
  orders : List OutboundRequirement
  crossDockMatches : List CrossDockMatch
  deriving DecidableEq, Repr

namespace CrossDockingFreightSorter

/-- `outboundOrders.find(…)`: the first open order for the pallet's product, with the orders before
and behind it. -/
def findNeeded (pallet : InboundPallet) : List OutboundRequirement →
    Option (List OutboundRequirement × OutboundRequirement × List OutboundRequirement)
  | [] => none
  | o :: orders =>
    if o.sku = pallet.sku ∧ 0 < o.requiredQuantity then some ([], o, orders)
    else
      (findNeeded pallet orders).map fun (pre, neededOrder, post) => (o :: pre, neededOrder, post)

/-- `transferQty`. -/
def transferQty (pallet : InboundPallet) (neededOrder : OutboundRequirement) : Double :=
  min pallet.quantity neededOrder.requiredQuantity

/-- `pallet.quantity -= transferQty`. -/
def unloadPallet (pallet : InboundPallet) (transferQty : Double) : InboundPallet :=
  { pallet with quantity := pallet.quantity - transferQty }

@[simp]
theorem sku_unloadPallet (pallet : InboundPallet) (transferQty : Double) :
    (unloadPallet pallet transferQty).sku = pallet.sku := rfl

/-- `neededOrder.requiredQuantity -= transferQty`. -/
def fulfil (neededOrder : OutboundRequirement) (transferQty : Double) : OutboundRequirement :=
  { neededOrder with requiredQuantity := neededOrder.requiredQuantity - transferQty }

/-- The body of the loop. -/
def visit (s : CrossDock) (pallet : InboundPallet) : CrossDock :=
  match findNeeded pallet s.orders with
  | none => { s with pallets := s.pallets ++ [pallet] }
  | some (pre, neededOrder, post) =>
    let transferQty := transferQty pallet neededOrder
    { pallets := s.pallets ++ [unloadPallet pallet transferQty]
      orders := pre ++ fulfil neededOrder transferQty :: post
      crossDockMatches := s.crossDockMatches ++
        [⟨pallet.palletId, neededOrder.orderId, transferQty, neededOrder.outboundDockDoor⟩] }

/-- **`matchCrossDockOpportunities`**. -/
def matchCrossDockOpportunities (inboundPallets : List InboundPallet)
    (outboundOrders : List OutboundRequirement) : CrossDock :=
  inboundPallets.foldl visit ⟨[], outboundOrders, []⟩

theorem matchCrossDockOpportunities_append (pallets : List InboundPallet) (pallet : InboundPallet)
    (orders : List OutboundRequirement) :
    matchCrossDockOpportunities (pallets ++ [pallet]) orders =
      visit (matchCrossDockOpportunities pallets orders) pallet := by
  rw [matchCrossDockOpportunities, List.foldl_append]
  rfl

/-- **The order is open and for the product; those before it are not.** -/
theorem findNeeded_eq_some {pallet : InboundPallet} {orders pre post : List OutboundRequirement}
    {neededOrder : OutboundRequirement}
    (h : findNeeded pallet orders = some (pre, neededOrder, post)) :
    orders = pre ++ neededOrder :: post ∧ neededOrder.sku = pallet.sku ∧
      0 < neededOrder.requiredQuantity ∧
      ∀ o ∈ pre, o.sku = pallet.sku → o.requiredQuantity ≤ 0 := by
  induction orders generalizing pre with
  | nil => cases h
  | cons o orders ih =>
    rw [findNeeded] at h
    split_ifs at h with ho
    · cases h
      exact ⟨rfl, ho.1, ho.2, fun _ hmem => absurd hmem List.not_mem_nil⟩
    · obtain ⟨⟨pre', neededOrder', post'⟩, hfind, heq⟩ := Option.map_eq_some_iff.mp h
      cases heq
      obtain ⟨rfl, hsku, hpos, hpre⟩ := ih hfind
      refine ⟨rfl, hsku, hpos, List.forall_mem_cons.mpr ⟨fun hs => ?_, hpre⟩⟩
      exact not_lt.mp fun hlt => ho ⟨hs, hlt⟩

/-- **Without a match, no order for the product is open.** -/
theorem findNeeded_eq_none {pallet : InboundPallet} {orders : List OutboundRequirement}
    (h : findNeeded pallet orders = none) :
    ∀ o ∈ orders, o.sku = pallet.sku → o.requiredQuantity ≤ 0 := by
  induction orders with
  | nil => exact fun _ hmem => absurd hmem List.not_mem_nil
  | cons o orders ih =>
    rw [findNeeded] at h
    split_ifs at h with ho
    refine List.forall_mem_cons.mpr ⟨fun hs => ?_, ih (Option.map_eq_none_iff.mp h)⟩
    exact not_lt.mp fun hlt => ho ⟨hs, hlt⟩

end CrossDockingFreightSorter

open CrossDockingFreightSorter

/-! ## The books -/

/-- A match, by the positions of its pallet and its order. -/
structure Transfer where
  pallet : ℕ
  order : ℕ
  quantity : Double

/-- What the pallet at position `k` gave, one transfer after another. -/
def sent (transfers : List Transfer) (k : ℕ) : List Double :=
  (transfers.filter fun t => t.pallet = k).map Transfer.quantity

/-- What the order at position `i` got. -/
def received (transfers : List Transfer) (i : ℕ) : List Double :=
  (transfers.filter fun t => t.order = i).map Transfer.quantity

theorem sent_append (transfers : List Transfer) (t : Transfer) (k : ℕ) :
    sent (transfers ++ [t]) k = sent transfers k ++ if t.pallet = k then [t.quantity] else [] := by
  rw [sent, List.filter_append, List.map_append, ← sent]
  by_cases h : t.pallet = k <;> simp [h]

theorem received_append (transfers : List Transfer) (t : Transfer) (i : ℕ) :
    received (transfers ++ [t]) i =
      received transfers i ++ if t.order = i then [t.quantity] else [] := by
  rw [received, List.filter_append, List.map_append, ← received]
  by_cases h : t.order = i <;> simp [h]

/-- The transfer is what the match says, between a pallet and an order of one product. -/
structure Transfer.Describes (pallets : List InboundPallet) (orders : List OutboundRequirement)
    (m : CrossDockMatch) (t : Transfer) : Prop where
  nonneg : 0 ≤ t.quantity
  quantity : m.matchedQuantity = t.quantity
  parties : ∃ pallet order, pallets[t.pallet]? = some pallet ∧ orders[t.order]? = some order ∧
    m.palletId = pallet.palletId ∧ m.orderId = order.orderId ∧
    m.directDockTransferDoor = order.outboundDockDoor ∧ pallet.sku = order.sku

/-- What is left of a pallet that gave `sent`. -/
structure InboundPallet.Left (pallet : InboundPallet) (sent : List Double) (left : InboundPallet) :
    Prop where
  palletId : left.palletId = pallet.palletId
  sku : left.sku = pallet.sku
  nonneg : 0 ≤ left.quantity
  quantity : left.quantity = remaining pallet.quantity sent

/-- What is left of an order that got `received`. -/
structure OutboundRequirement.Left (order : OutboundRequirement) (received : List Double)
    (left : OutboundRequirement) : Prop where
  orderId : left.orderId = order.orderId
  sku : left.sku = order.sku
  outboundDockDoor : left.outboundDockDoor = order.outboundDockDoor
  nonneg : 0 ≤ left.requiredQuantity
  quantity : left.requiredQuantity = remaining order.requiredQuantity received

/-- **The books**: what is left of every pallet and every order is what there was, less what was
transferred. -/
structure Accounts (pallets : List InboundPallet) (orders : List OutboundRequirement)
    (s : CrossDock) (transfers : List Transfer) : Prop where
  matched : List.Forall₂ (Transfer.Describes pallets orders) s.crossDockMatches transfers
  palletsLength : s.pallets.length = pallets.length
  ordersLength : s.orders.length = orders.length
  pallets : ∀ k pallet left, pallets[k]? = some pallet → s.pallets[k]? = some left →
    InboundPallet.Left pallet (sent transfers k) left
  orders : ∀ i order left, orders[i]? = some order → s.orders[i]? = some left →
    OutboundRequirement.Left order (received transfers i) left

/-- All quantities are whole numbers. -/
structure WholeQuantities (pallets : List InboundPallet) (orders : List OutboundRequirement) :
    Prop where
  pallets : ∀ p ∈ pallets, p.quantity.IsWhole
  orders : ∀ o ∈ orders, o.requiredQuantity.IsWhole

/-- The exact sum of numbers. -/
def exactSum (l : List Double) : ℚ := (l.map fun a => (a : ℚ)).sum

/-- **The books are exact**: what is left and what was transferred add up to what there was. -/
structure Conserves (pallets : List InboundPallet) (orders : List OutboundRequirement)
    (s : CrossDock) (transfers : List Transfer) : Prop where
  pallets : ∀ k pallet left, pallets[k]? = some pallet → s.pallets[k]? = some left →
    (pallet.quantity : ℚ) = left.quantity + exactSum (sent transfers k)
  orders : ∀ i order left, orders[i]? = some order → s.orders[i]? = some left →
    (order.requiredQuantity : ℚ) = left.requiredQuantity + exactSum (received transfers i)

theorem forall₂_right {α β : Type} {r : α → β → Prop} {l : List α} {l' : List β}
    (h : List.Forall₂ r l l') : ∀ b ∈ l', ∃ a ∈ l, r a b := by
  induction h with
  | nil => exact fun b hb => absurd hb List.not_mem_nil
  | cons hab _ ih =>
    refine List.forall_mem_cons.mpr ⟨⟨_, List.mem_cons_self, hab⟩, fun b hb => ?_⟩
    obtain ⟨a, ha, hr⟩ := ih b hb
    exact ⟨a, List.mem_cons_of_mem _ ha, hr⟩

theorem Accounts.start (orders : List OutboundRequirement)
    (horders : ∀ o ∈ orders, 0 ≤ o.requiredQuantity) : Accounts [] orders ⟨[], orders, []⟩ [] where
  matched := .nil
  palletsLength := rfl
  ordersLength := rfl
  pallets := fun _ _ _ h => by cases h
  orders := fun i order left h h' => by
    obtain rfl := Option.some.inj (h.symm.trans h')
    exact ⟨rfl, rfl, rfl, horders _ (List.mem_of_getElem? h), rfl⟩

theorem getElem?_append_singleton {α : Type} {l : List α} {a b : α} {k : ℕ}
    (h : (l ++ [a])[k]? = some b) : l[k]? = some b ∨ (k = l.length ∧ b = a) := by
  rcases lt_or_ge k l.length with hk | hk
  · exact Or.inl (by rwa [List.getElem?_append_left hk] at h)
  · rw [List.getElem?_append_right hk, List.getElem?_singleton] at h
    split_ifs at h with h0
    exact Or.inr ⟨by omega, (Option.some.inj h).symm⟩

theorem getElem?_append_cons {α : Type} {pre post : List α} {a b c : α} {i : ℕ}
    (h : (pre ++ a :: post)[i]? = some b) :
    (i = pre.length ∧ b = a) ∨ (i ≠ pre.length ∧ (pre ++ c :: post)[i]? = some b) := by
  rcases lt_trichotomy i pre.length with hi | rfl | hi
  · rw [List.getElem?_append_left hi] at h ⊢
    exact Or.inr ⟨hi.ne, h⟩
  · rw [List.getElem?_append_right le_rfl, Nat.sub_self, List.getElem?_cons_zero] at h
    exact Or.inl ⟨rfl, (Option.some.inj h).symm⟩
  · obtain ⟨n, rfl⟩ := Nat.exists_eq_add_of_lt hi
    have hn : pre.length + n + 1 - pre.length = n + 1 := by omega
    rw [List.getElem?_append_right hi.le, hn, List.getElem?_cons_succ] at h ⊢
    exact Or.inr ⟨hi.ne', h⟩

section Visit

variable {pallets : List InboundPallet} {orders : List OutboundRequirement} {s : CrossDock}
  {transfers : List Transfer} {pallet : InboundPallet}

theorem Transfer.Describes.append {m : CrossDockMatch} {t : Transfer}
    (h : t.Describes pallets orders m) : t.Describes (pallets ++ [pallet]) orders m := by
  obtain ⟨p, o, hp, rest⟩ := h.parties
  refine ⟨h.nonneg, h.quantity, p, o, ?_, rest⟩
  rw [List.getElem?_append_left (List.getElem?_eq_some_iff.mp hp).1, hp]

theorem Accounts.sent_length (h : Accounts pallets orders s transfers) :
    sent transfers pallets.length = [] := by
  have hpositions : ∀ t ∈ transfers, t.pallet ≠ pallets.length := fun t ht => by
    obtain ⟨m, -, hm⟩ := forall₂_right h.matched t ht
    obtain ⟨p, -, hp, -⟩ := hm.parties
    exact (List.getElem?_eq_some_iff.mp hp).1.ne
  rw [sent, List.filter_eq_nil_iff.mpr fun t ht => by simpa using hpositions t ht]
  rfl

theorem Accounts.pallets_append (h : Accounts pallets orders s transfers)
    {transfers' : List Transfer} {left' : InboundPallet}
    (hother : ∀ k < pallets.length, sent transfers' k = sent transfers k)
    (hleft : InboundPallet.Left pallet (sent transfers' pallets.length) left') :
    ∀ k p left, (pallets ++ [pallet])[k]? = some p → (s.pallets ++ [left'])[k]? = some left →
      InboundPallet.Left p (sent transfers' k) left := by
  intro k p left hp hl
  rcases getElem?_append_singleton hp with hp | ⟨rfl, rfl⟩
  · have hk := (List.getElem?_eq_some_iff.mp hp).1
    rw [List.getElem?_append_left (hk.trans_eq h.palletsLength.symm)] at hl
    exact hother k hk ▸ h.pallets k p left hp hl
  · rcases getElem?_append_singleton hl with hl | ⟨-, rfl⟩
    · exact absurd (List.getElem?_eq_some_iff.mp hl).1 (by rw [h.palletsLength]; exact lt_irrefl _)
    · exact hleft

theorem Accounts.visit_none (h : Accounts pallets orders s transfers)
    (hpallet : 0 ≤ pallet.quantity) (hnone : findNeeded pallet s.orders = none) :
    Accounts (pallets ++ [pallet]) orders (visit s pallet) transfers := by
  have hvisit : visit s pallet = { s with pallets := s.pallets ++ [pallet] } := by
    rw [visit, hnone]
  rw [hvisit]
  refine ⟨h.matched.imp fun _ _ hm => hm.append, ?_, h.ordersLength,
    h.pallets_append (fun _ _ => rfl) ⟨rfl, rfl, hpallet, ?_⟩, h.orders⟩
  · rw [List.length_append, List.length_append, h.palletsLength, List.length_singleton]
  · rw [h.sent_length, remaining_nil]

theorem Accounts.exists_order (h : Accounts pallets orders s transfers)
    {pre post : List OutboundRequirement} {neededOrder : OutboundRequirement}
    (hsplit : s.orders = pre ++ neededOrder :: post) :
    ∃ order, orders[pre.length]? = some order ∧
      OutboundRequirement.Left order (received transfers pre.length) neededOrder := by
  have hget : s.orders[pre.length]? = some neededOrder := by
    rw [hsplit, List.getElem?_append_right le_rfl, Nat.sub_self, List.getElem?_cons_zero]
  have hlt : pre.length < orders.length :=
    (List.getElem?_eq_some_iff.mp hget).1.trans_eq h.ordersLength
  have hstart := List.getElem?_eq_getElem hlt
  exact ⟨_, hstart, h.orders _ _ _ hstart hget⟩

theorem Accounts.orders_fulfil (h : Accounts pallets orders s transfers)
    {pre post : List OutboundRequirement} {neededOrder : OutboundRequirement}
    (hsplit : s.orders = pre ++ neededOrder :: post) (k : ℕ) {qty : Double}
    (hqty : qty ≤ neededOrder.requiredQuantity) :
    ∀ i order left, orders[i]? = some order →
      (pre ++ fulfil neededOrder qty :: post)[i]? = some left →
        OutboundRequirement.Left order (received (transfers ++ [⟨k, pre.length, qty⟩]) i) left := by
  intro i order left ho hl
  rw [received_append]
  rcases getElem?_append_cons (c := neededOrder) hl with ⟨rfl, rfl⟩ | ⟨hi, hl⟩
  · obtain ⟨o, hstart, hneeded⟩ := h.exists_order hsplit
    obtain rfl := Option.some.inj (hstart.symm.trans ho)
    refine ⟨hneeded.orderId, hneeded.sku, hneeded.outboundDockDoor, Double.sub_nonneg.mpr hqty, ?_⟩
    rw [if_pos rfl, remaining_concat, ← hneeded.quantity]
    rfl
  · rw [if_neg hi.symm, List.append_nil]
    exact h.orders i order left ho (hsplit ▸ hl)

theorem Accounts.visit_some (h : Accounts pallets orders s transfers)
    (hpallet : 0 ≤ pallet.quantity) {pre post : List OutboundRequirement}
    {neededOrder : OutboundRequirement}
    (hsome : findNeeded pallet s.orders = some (pre, neededOrder, post)) :
    Accounts (pallets ++ [pallet]) orders (visit s pallet)
      (transfers ++ [⟨pallets.length, pre.length, transferQty pallet neededOrder⟩]) := by
  obtain ⟨hsplit, hsku, hopen, -⟩ := findNeeded_eq_some hsome
  obtain ⟨order, hstart, hneeded⟩ := h.exists_order hsplit
  have hqty : 0 ≤ transferQty pallet neededOrder := le_min hpallet hopen.le
  simp only [visit, hsome]
  constructor
  · refine List.rel_append (h.matched.imp fun _ _ hm => hm.append)
      (.cons ⟨hqty, rfl, pallet, order, ?_, hstart, rfl, hneeded.orderId,
        hneeded.outboundDockDoor, hsku.symm.trans hneeded.sku⟩ .nil)
    rw [List.getElem?_append_right le_rfl, Nat.sub_self, List.getElem?_cons_zero]
  · rw [List.length_append, List.length_append, h.palletsLength]
    rfl
  · rw [← h.ordersLength, hsplit, List.length_append, List.length_append]
    rfl
  · refine h.pallets_append (fun k hk => ?_) ⟨rfl, rfl, Double.sub_nonneg.mpr (min_le_left _ _), ?_⟩
    · rw [sent_append, if_neg hk.ne', List.append_nil]
    · rw [sent_append, if_pos rfl, h.sent_length]
      rfl
  · exact h.orders_fulfil hsplit _ (min_le_right _ _)

end Visit

/-! ## Whole quantities -/

instance : RoundedSub Double where
  sub_zero := Double.sub_zero
  sub_nonneg := Double.sub_nonneg
  sub_nonpos := Double.sub_nonpos
  sub_le_self := Double.sub_le_self
  sub_le_sub_right := Double.sub_le_sub_right

theorem remaining_whole {q : Double} {l : List Double} (hq : q.IsWhole) (hl : ∀ a ∈ l, a.IsWhole)
    (h : 0 ≤ remaining q l) : (remaining q l).IsWhole ∧ (q : ℚ) = remaining q l + exactSum l := by
  induction l generalizing q with
  | nil => exact ⟨hq, (add_zero _).symm⟩
  | cons a l ih =>
    obtain ⟨ha, hl⟩ := List.forall_mem_cons.mp hl
    have hle : a ≤ q := le_of_remaining_nonneg (fun b hb => (hl b hb).nonneg) h
    obtain ⟨hwhole, hexact⟩ := hq.sub ha hle
    obtain ⟨hrest, hsum⟩ := ih hwhole hl h
    refine ⟨hrest, ?_⟩
    calc (q : ℚ) = ((q - a : Double) : ℚ) + a := by rw [hexact, sub_add_cancel]
      _ = remaining (q - a) l + (a + exactSum l) := by rw [hsum]; ring
      _ = remaining q (a :: l) + exactSum (a :: l) := by rw [exactSum, exactSum]; rfl

section Whole

variable {pallets : List InboundPallet} {orders : List OutboundRequirement} {s : CrossDock}
  {transfers : List Transfer}

theorem Accounts.conserves (h : Accounts pallets orders s transfers)
    (hwhole : WholeQuantities pallets orders) (ht : ∀ t ∈ transfers, t.quantity.IsWhole) :
    Conserves pallets orders s transfers := by
  have hmap : ∀ p : Transfer → Bool, ∀ a ∈ (transfers.filter p).map Transfer.quantity,
      a.IsWhole := fun p => List.forall_mem_map.mpr fun t hmem => ht t (List.mem_of_mem_filter hmem)
  constructor
  · intro k pallet left hp hl
    have hleft := h.pallets k pallet left hp hl
    have hnonneg := hleft.nonneg
    rw [hleft.quantity] at hnonneg ⊢
    exact (remaining_whole (hwhole.pallets _ (List.mem_of_getElem? hp)) (hmap _) hnonneg).2
  · intro i order left ho hl
    have hleft := h.orders i order left ho hl
    have hnonneg := hleft.nonneg
    rw [hleft.quantity] at hnonneg ⊢
    exact (remaining_whole (hwhole.orders _ (List.mem_of_getElem? ho)) (hmap _) hnonneg).2

theorem Accounts.isWhole_left (h : Accounts pallets orders s transfers)
    (horders : ∀ o ∈ orders, o.requiredQuantity.IsWhole)
    (ht : ∀ t ∈ transfers, t.quantity.IsWhole) {pre post : List OutboundRequirement}
    {neededOrder : OutboundRequirement} (hsplit : s.orders = pre ++ neededOrder :: post) :
    neededOrder.requiredQuantity.IsWhole := by
  obtain ⟨order, hstart, hleft⟩ := h.exists_order hsplit
  have hnonneg := hleft.nonneg
  rw [hleft.quantity] at hnonneg ⊢
  refine (remaining_whole (horders _ (List.mem_of_getElem? hstart)) ?_ hnonneg).1
  exact List.forall_mem_map.mpr fun t hmem => ht t (List.mem_of_mem_filter hmem)

end Whole

theorem exists_accounts {pallets : List InboundPallet} {orders : List OutboundRequirement}
    (hpallets : ∀ p ∈ pallets, 0 ≤ p.quantity) (horders : ∀ o ∈ orders, 0 ≤ o.requiredQuantity) :
    ∃ transfers, Accounts pallets orders (matchCrossDockOpportunities pallets orders) transfers ∧
      (WholeQuantities pallets orders → ∀ t ∈ transfers, t.quantity.IsWhole) := by
  induction pallets using List.reverseRecOn with
  | nil => exact ⟨[], .start orders horders, fun _ t ht => absurd ht List.not_mem_nil⟩
  | append_singleton pallets pallet ih =>
    obtain ⟨hrest, hlast⟩ := List.forall_mem_append.mp hpallets
    obtain ⟨transfers, h, hwhole⟩ := ih hrest
    have hpallet := List.forall_mem_singleton.mp hlast
    have hsplitWhole : WholeQuantities (pallets ++ [pallet]) orders →
        WholeQuantities pallets orders ∧ pallet.quantity.IsWhole := fun hall => by
      obtain ⟨hps, hp⟩ := List.forall_mem_append.mp hall.pallets
      exact ⟨⟨hps, hall.orders⟩, hp pallet (List.mem_singleton_self pallet)⟩
    rw [matchCrossDockOpportunities_append]
    cases hfind : findNeeded pallet (matchCrossDockOpportunities pallets orders).orders with
    | none => exact ⟨transfers, h.visit_none hpallet hfind, fun hall => hwhole (hsplitWhole hall).1⟩
    | some found =>
      obtain ⟨pre, neededOrder, post⟩ := found
      refine ⟨_, h.visit_some hpallet hfind, fun hall => ?_⟩
      obtain ⟨hbefore, hp⟩ := hsplitWhole hall
      have hneeded := h.isWhole_left hall.orders (hwhole hbefore) (findNeeded_eq_some hfind).1
      exact List.forall_mem_append.mpr
        ⟨hwhole hbefore, List.forall_mem_singleton.mpr (hp.min hneeded)⟩

/-- **Cross-dock matching conserves goods**, as the numbers of the program subtract; exactly, for
whole quantities. -/
theorem matchCrossDockOpportunities_accounts {pallets : List InboundPallet}
    {orders : List OutboundRequirement} (hpallets : ∀ p ∈ pallets, 0 ≤ p.quantity)
    (horders : ∀ o ∈ orders, 0 ≤ o.requiredQuantity) :
    ∃ transfers, Accounts pallets orders (matchCrossDockOpportunities pallets orders) transfers ∧
      (WholeQuantities pallets orders →
        Conserves pallets orders (matchCrossDockOpportunities pallets orders) transfers) := by
  obtain ⟨transfers, h, hwhole⟩ := exists_accounts hpallets horders
  exact ⟨transfers, h, fun hall => h.conserves hall (hwhole hall)⟩

/-- A case: the second order for milk is served by the second pallet. -/
theorem matchCrossDockOpportunities_accounts_milk :
    ∃ transfers, Accounts [⟨"P1", "milk", 6⟩, ⟨"P2", "milk", 5⟩]
        [⟨"O1", "milk", 6, "d"⟩, ⟨"O2", "milk", 8, "e"⟩]
        (matchCrossDockOpportunities [⟨"P1", "milk", 6⟩, ⟨"P2", "milk", 5⟩]
          [⟨"O1", "milk", 6, "d"⟩, ⟨"O2", "milk", 8, "e"⟩]) transfers ∧
      Conserves [⟨"P1", "milk", 6⟩, ⟨"P2", "milk", 5⟩]
        [⟨"O1", "milk", 6, "d"⟩, ⟨"O2", "milk", 8, "e"⟩]
        (matchCrossDockOpportunities [⟨"P1", "milk", 6⟩, ⟨"P2", "milk", 5⟩]
          [⟨"O1", "milk", 6, "d"⟩, ⟨"O2", "milk", 8, "e"⟩]) transfers := by
  have hpallets : ∀ p ∈ ([⟨"P1", "milk", 6⟩, ⟨"P2", "milk", 5⟩] : List InboundPallet),
      0 ≤ p.quantity := by decide +kernel
  have horders : ∀ o ∈ ([⟨"O1", "milk", 6, "d"⟩, ⟨"O2", "milk", 8, "e"⟩] :
      List OutboundRequirement), 0 ≤ o.requiredQuantity := by decide +kernel
  obtain ⟨transfers, haccounts, hexact⟩ := matchCrossDockOpportunities_accounts hpallets horders
  have hwhole : ∀ n ≤ 8, (Double.ofRat (n : ℕ)).IsWhole := fun n hn =>
    Double.isWhole_natCast (hn.trans (by decide))
  refine ⟨transfers, haccounts, hexact ⟨?_, ?_⟩⟩
  · simpa using ⟨hwhole 6 (by decide), hwhole 5 (by decide)⟩
  · simpa using ⟨hwhole 6 (by decide), hwhole 8 (by decide)⟩

/-- **Fractions are rounded**: of a pallet of 0.9 that gives 0.2, what is left is not what is
missing. -/
theorem matchCrossDockOpportunities_rounds :
    ¬ ∀ (pallets : List InboundPallet) (orders : List OutboundRequirement),
      (∀ p ∈ pallets, 0 ≤ p.quantity) → (∀ o ∈ orders, 0 ≤ o.requiredQuantity) →
        ∃ transfers,
          Accounts pallets orders (matchCrossDockOpportunities pallets orders) transfers ∧
            Conserves pallets orders (matchCrossDockOpportunities pallets orders) transfers := by
  intro h
  obtain ⟨transfers, haccounts, hexact⟩ := h [⟨"P1", "milk", .ofRat (9 / 10)⟩]
    [⟨"O1", "milk", .ofRat (2 / 10), "d"⟩] (by decide +kernel) (by decide +kernel)
  have hmatches : (matchCrossDockOpportunities [⟨"P1", "milk", .ofRat (9 / 10)⟩]
      [⟨"O1", "milk", .ofRat (2 / 10), "d"⟩]).crossDockMatches =
        [⟨"P1", "O1", .ofRat (2 / 10), "d"⟩] := by decide +kernel
  have hmatched := haccounts.matched
  rw [hmatches] at hmatched
  -- there is one transfer, from the only pallet
  obtain ⟨t, _, ht, hnil, rfl⟩ := List.forall₂_cons_left_iff.mp hmatched
  obtain rfl := List.forall₂_nil_left_iff.mp hnil
  obtain ⟨pallet, _, hpallet, -⟩ := ht.parties
  have hposition : t.pallet = 0 := by
    have hlt := (List.getElem?_eq_some_iff.mp hpallet).1
    exact Nat.lt_one_iff.mp hlt
  have hbooks := hexact.pallets 0 ⟨"P1", "milk", .ofRat (9 / 10)⟩
    ⟨"P1", "milk", .ofRat (9 / 10) - .ofRat (2 / 10)⟩ rfl (by decide +kernel)
  have hsent : sent [t] 0 = [.ofRat (2 / 10)] := by
    simp [sent, hposition, ← ht.quantity]
  rw [hsent] at hbooks
  exact absurd hbooks (by decide +kernel)

end Logix.Inventory
