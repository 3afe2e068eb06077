import Logix.Inventory.Balance
import Logix.Js.Text

/-!
# Reserving all lines of an order

`InventoryService.reserveItemsForOrder` checks every line against the stock, then reserves line
by line.

* `checkLines`, `reserveLines`, `reserveItemsForOrder`: the two loops;
* `Serves a f qs`: whether a record with `a` units available and `f` units not reserved serves
  the quantities `qs` one after another; `reserveLines_ok_iff` reduces the second loop to it,
  sku by sku;
* **`reserveItemsForOrder_atomic_iff`**: a request is all or nothing exactly when a line alone is
  refused, or every sku that several lines name is covered for all of them together;
* `partial_reservation`: two lines of one sku, each covered alone.
-/

namespace Logix.Inventory

open StockLevelRepository

variable {u : Surroundings}

/-! ## The service function -/

/-- One line of a `ReserveStockDTO`, as the schema admits it. -/
structure ReserveLine where
  sku : String
  quantity : ℤ
  sku_min : 3 ≤ jsLength sku
  quantity_pos : 0 < quantity

/-- `ReserveStockDTO`, as `ReserveStockSchema` admits it (any strings as ids). -/
structure ReserveStockDTO where
  tenantId : String
  orderId : String
  warehouseId : String
  items : List ReserveLine
  items_min : items ≠ []

/-- The arguments of `reserveStock` for one line. -/
def ReserveStockDTO.input (dto : ReserveStockDTO) (item : ReserveLine) : ReserveInput where
  orderId := dto.orderId
  warehouseId := dto.warehouseId
  sku := item.sku
  qty := item.quantity
  tenantId := dto.tenantId

/-- The first loop: check each line against the stock. -/
def checkLines (r : StockLevelRepository u) (warehouseId : String) :
    List ReserveLine → Except DomainException Unit
  | [] => .ok ()
  | item :: items =>
    match r.recordOf warehouseId item.sku with
    | none => .error (.insufficientInventory item.sku item.quantity 0)
    | some stock =>
      if stock.quantityAvailable < item.quantity then
        .error (.insufficientInventory item.sku item.quantity stock.quantityAvailable)
      else checkLines r warehouseId items

/-- The second loop: reserve the lines in order, stopping at the first that throws. -/
def reserveLines (dto : ReserveStockDTO) :
    List ReserveLine → StockLevelRepository u →
      StockLevelRepository u × Except DomainException (List StockReservationEntity)
  | [], r => (r, .ok [])
  | item :: items, r =>
    match r.reserveStock (dto.input item) with
    | (r', .error e) => (r', .error e)
    | (r', .ok res) =>
      match reserveLines dto items r' with
      | (r'', .error e) => (r'', .error e)
      | (r'', .ok rs) => (r'', .ok (res :: rs))

/-- `reserveItemsForOrder`; the reservations that it returns, or what it throws. -/
def reserveItemsForOrder (r : StockLevelRepository u) (dto : ReserveStockDTO) :
    StockLevelRepository u × Except DomainException (List StockReservationEntity) :=
  match checkLines r dto.warehouseId dto.items with
  | .error e => (r, .error e)
  | .ok () => reserveLines dto dto.items r

/-- The ACTIVE reservation that a line asks for. -/
def IsReservationOf (dto : ReserveStockDTO) (item : ReserveLine) (s : StockReservationEntity) :
    Prop :=
  s.status = .ACTIVE ∧ s.tenantId = dto.tenantId ∧ s.orderId = dto.orderId ∧
    s.warehouseId = dto.warehouseId ∧ s.sku = item.sku ∧ s.reservedQty = item.quantity

/-- **All or nothing**: one new ACTIVE reservation for each line, or the call throws and leaves
the reserved and available quantities and the reservations as they were. -/
def AllOrNothing (r : StockLevelRepository u) (dto : ReserveStockDTO) : Prop :=
  match reserveItemsForOrder r dto with
  | (r', .ok rs) => List.Forall₂ (IsReservationOf dto) dto.items rs ∧
      ∃ ids, r'.reservations.entries = r.reservations.entries ++ List.zip ids rs ∧
        ids.length = rs.length
  | (r', .error _) => r'.reservations = r.reservations ∧
      ∀ k, (r'.stock.get k).map (fun e => (e.quantityReserved, e.quantityAvailable)) =
        (r.stock.get k).map fun e => (e.quantityReserved, e.quantityAvailable)

/-- The quantities that the lines ask of one sku, in order. -/
def quantities (sku : String) (items : List ReserveLine) : List ℤ :=
  (items.filter fun item => item.sku = sku).map ReserveLine.quantity

/-- Some line alone asks for more than its record has available. -/
def Refused (r : StockLevelRepository u) (dto : ReserveStockDTO) : Prop :=
  ∃ item ∈ dto.items, ∀ e ∈ r.recordOf dto.warehouseId item.sku,
    e.quantityAvailable < item.quantity

/-- Each sku that several lines name has all their units on hand and not reserved. -/
def Covered (r : StockLevelRepository u) (dto : ReserveStockDTO) : Prop :=
  ∀ item ∈ dto.items, 2 ≤ (quantities item.sku dto.items).length →
    ∀ e ∈ r.recordOf dto.warehouseId item.sku,
      (quantities item.sku dto.items).sum ≤ e.quantityOnHand - e.quantityReserved

/-! ## The first loop -/

theorem checkLines_ok_iff (r : StockLevelRepository u) (wh : String) :
    ∀ items : List ReserveLine, checkLines r wh items = .ok () ↔
      ∀ item ∈ items, ∃ e ∈ r.recordOf wh item.sku, item.quantity ≤ e.quantityAvailable
  | [] => by simp [checkLines]
  | item :: items => by
    have ih := checkLines_ok_iff r wh items
    rw [checkLines, List.forall_mem_cons, ← ih]
    cases hr : r.recordOf wh item.sku with
    | none => simp
    | some e =>
      by_cases hq : e.quantityAvailable < item.quantity
      · simp [hq]
      · simp [hq, not_lt.mp hq]

theorem refused_iff (r : StockLevelRepository u) (dto : ReserveStockDTO) :
    Refused r dto ↔ checkLines r dto.warehouseId dto.items ≠ .ok () := by
  rw [ne_eq, checkLines_ok_iff]
  simp only [Refused, not_forall, not_exists, not_and, not_le]
  constructor
  · rintro ⟨item, hi, h⟩; exact ⟨item, hi, h⟩
  · rintro ⟨item, hi, h⟩; exact ⟨item, hi, h⟩

/-! ## Serving one sku -/

/-- A record with `a` units available and `f` units not reserved serves `qs` in order: after the
first one the available units are recomputed. -/
def Serves (a f : ℤ) : List ℤ → Prop
  | [] => True
  | q :: qs => q ≤ a ∧ Serves (f - q) (f - q) qs

theorem serves_self_iff {f : ℤ} : ∀ {qs : List ℤ}, (∀ q ∈ qs, 0 < q) →
    (Serves f f qs ↔ qs = [] ∨ qs.sum ≤ f)
  | [], _ => by simp [Serves]
  | q :: qs, h => by
    have hq := h q List.mem_cons_self
    have hqs : ∀ p ∈ qs, 0 < p := fun p hp => h p (List.mem_cons_of_mem _ hp)
    have hsum : 0 ≤ qs.sum := List.sum_nonneg fun p hp => (hqs p hp).le
    rw [Serves, serves_self_iff hqs, List.sum_cons]
    constructor
    · rintro ⟨hle, rfl | h'⟩
      · right; simpa using hle
      · right; omega
    · rintro (h' | h')
      · cases h'
      · exact ⟨by omega, Or.inr (by omega)⟩

/-- **Positive quantities are served** when the first is available and, if there are more, all of
them together are not reserved. -/
theorem serves_cons_iff {a f q : ℤ} {qs : List ℤ} (h : ∀ p ∈ q :: qs, 0 < p) :
    Serves a f (q :: qs) ↔ q ≤ a ∧ (2 ≤ (q :: qs).length → (q :: qs).sum ≤ f) := by
  rw [Serves, serves_self_iff fun p hp => h p (List.mem_cons_of_mem _ hp)]
  refine and_congr Iff.rfl ?_
  cases qs with
  | nil => simp
  | cons p qs =>
    simp only [List.length_cons, List.sum_cons, reduceCtorEq, false_or]
    constructor
    · intro h' _; omega
    · intro h'; have := h' (by omega); omega

/-! ## The second loop -/

section Reserve

variable {r : StockLevelRepository u}

theorem getStock_mutateStock {f : StockLevelEntity → StockLevelEntity} (hf : KeepsPair f)
    (ref wh sku : String) : (r.mutateStock ref f).getStock wh sku = r.getStock wh sku := by
  simp only [getStock, mutateStock, JsMap.modify, List.find?_map, Option.map_map]
  have hp : ((fun e : String × StockLevelEntity =>
      decide (e.2.warehouseId = wh ∧ e.2.sku = sku)) ∘
        fun e => if e.1 = ref then (e.1, f e.2) else e) =
      fun e => decide (e.2.warehouseId = wh ∧ e.2.sku = sku) := by
    funext e
    by_cases h : e.1 = ref <;> simp [h, hf e.2]
  have hfst : (Prod.fst ∘ fun e : String × StockLevelEntity =>
      if e.1 = ref then (e.1, f e.2) else e) = Prod.fst := by
    funext e
    by_cases h : e.1 = ref <;> simp [h]
  rw [hp, hfst]

/-- The repository after a successful reservation on the record behind `ref`. -/
def afterReserve (r : StockLevelRepository u) (a : ReserveInput) (ref : String)
    (e : StockLevelEntity) : StockLevelRepository u :=
  (r.mutateStock ref (StockLevelEntity.reserve a.qty r.now)).insertReservation (newReservation a e)

/-- **`reserveStock`** throws and changes nothing, or reserves on the record of the pair. -/
theorem reserveStock_cases (r : StockLevelRepository u) (a : ReserveInput) :
    ((∀ e ∈ r.recordOf a.warehouseId a.sku, e.quantityAvailable < a.qty) ∧
        ∃ ex, r.reserveStock a = (r, .error ex)) ∨
      ∃ ref e, r.getStock a.warehouseId a.sku = some ref ∧ r.stock.get ref = some e ∧
        a.qty ≤ e.quantityAvailable ∧
        r.reserveStock a = (afterReserve r a ref e, .ok (newReservation a e (u.draw r.draws))) := by
  rcases reserveStockFound_cases r a (r.getStock a.warehouseId a.sku) with h | h
  · left
    refine ⟨fun e he => ?_, _, h⟩
    obtain ⟨ref, hg, hr, -⟩ := recordOf_some he
    rw [hg, reserveStockFound] at h
    simp only [hr] at h
    by_contra hq
    rw [if_neg hq] at h
    cases congrArg Prod.snd h
  · right
    obtain ⟨ref, e, hg, he, hle, h⟩ := h
    exact ⟨ref, e, hg, he, hle, h⟩

theorem recordOf_afterReserve {a : ReserveInput} {ref : String} {e : StockLevelEntity}
    (hg : r.getStock a.warehouseId a.sku = some ref) (he : r.stock.get ref = some e)
    (sku : String) : (afterReserve r a ref e).recordOf a.warehouseId sku =
      if sku = a.sku then some (e.reserve a.qty r.now) else r.recordOf a.warehouseId sku := by
  have hgs : (afterReserve r a ref e).getStock a.warehouseId sku =
      r.getStock a.warehouseId sku := getStock_mutateStock (keepsPair_reserve _ _) ref _ _
  rw [recordOf, hgs]
  by_cases hs : sku = a.sku
  · subst hs
    rw [if_pos rfl, hg]
    exact (mutateStock_get he ref _).trans (by rw [if_pos rfl])
  · rw [if_neg hs, recordOf]
    cases hg' : r.getStock a.warehouseId sku with
    | none => rfl
    | some ref' =>
      obtain ⟨e', he', -, hs'⟩ := getStock_some hg'
      obtain ⟨e₀, he₀, -, hs₀⟩ := getStock_some hg
      have hne : ref' ≠ ref := fun h => by
        rw [h, he₀] at he'; cases he'
        exact hs (hs'.symm.trans hs₀)
      exact (mutateStock_get he' ref _).trans (by rw [if_neg hne, Option.bind_some, he'])

end Reserve

theorem quantities_cons (sku : String) (item : ReserveLine) (items : List ReserveLine) :
    quantities sku (item :: items) =
      if item.sku = sku then item.quantity :: quantities sku items else quantities sku items := by
  unfold quantities
  by_cases h : item.sku = sku <;> simp [h]

/-- Each sku is served by its record. -/
def AllServed (r : StockLevelRepository u) (wh : String) (items : List ReserveLine) : Prop :=
  ∀ sku, quantities sku items ≠ [] → ∃ e ∈ r.recordOf wh sku,
    Serves e.quantityAvailable (e.quantityOnHand - e.quantityReserved) (quantities sku items)

theorem allServed_cons {r : StockLevelRepository u} {dto : ReserveStockDTO} {item : ReserveLine}
    {items : List ReserveLine} {ref : String} {e : StockLevelEntity}
    (hg : r.getStock dto.warehouseId item.sku = some ref) (he : r.stock.get ref = some e)
    (hle : item.quantity ≤ e.quantityAvailable) :
    AllServed r dto.warehouseId (item :: items) ↔
      AllServed (afterReserve r (dto.input item) ref e) dto.warehouseId items := by
  have hrec : r.recordOf dto.warehouseId item.sku = some e := by rw [recordOf, hg]; exact he
  refine forall_congr' fun sku => ?_
  have hafter : (afterReserve r (dto.input item) ref e).recordOf dto.warehouseId sku =
      if sku = item.sku then some (e.reserve item.quantity r.now)
      else r.recordOf dto.warehouseId sku :=
    recordOf_afterReserve (a := dto.input item) hg he sku
  rw [quantities_cons, hafter]
  by_cases hs : item.sku = sku
  · subst hs
    rw [if_pos rfl, if_pos rfl, hrec]
    have hfree : e.quantityOnHand - (e.quantityReserved + item.quantity) =
        e.quantityOnHand - e.quantityReserved - item.quantity := by omega
    simp only [ne_eq, reduceCtorEq, not_false_eq_true, Option.mem_def, Option.some.injEq,
      exists_eq_left', Serves, true_implies, StockLevelEntity.reserve, hfree,
      and_iff_right hle]
    constructor
    · intro h _; exact h
    · intro h
      cases hq : quantities item.sku items with
      | nil => trivial
      | cons q qs => rw [← hq]; exact h (by rw [hq]; exact List.cons_ne_nil _ _)
  · rw [if_neg hs, if_neg (Ne.symm hs)]

/-- **The second loop succeeds** exactly when every sku is served. -/
theorem reserveLines_ok_iff (dto : ReserveStockDTO) : ∀ (items : List ReserveLine)
    (r : StockLevelRepository u), (∃ rs, (reserveLines dto items r).2 = .ok rs) ↔
      AllServed r dto.warehouseId items
  | [], r => by simp [reserveLines, AllServed, quantities]
  | item :: items, r => by
    rcases reserveStock_cases r (dto.input item) with ⟨hno, ex, h⟩ | ⟨ref, e, hg, he, hle, h⟩
    · simp only [reserveLines, h, reduceCtorEq, exists_const, false_iff]
      intro hall
      have hcons : quantities item.sku (item :: items) =
          item.quantity :: quantities item.sku items := by rw [quantities_cons, if_pos rfl]
      obtain ⟨e, he, hq⟩ := hall item.sku (by rw [hcons]; exact List.cons_ne_nil _ _)
      rw [hcons] at hq
      exact absurd (hno e he) (not_lt.mpr hq.1)
    · rw [allServed_cons hg he hle, ← reserveLines_ok_iff dto items, reserveLines, h]
      cases hrec : reserveLines dto items (afterReserve r (dto.input item) ref e) with
      | mk r' res => cases res <;> simp [hrec]

theorem entries_afterReserve (r : StockLevelRepository u) (a : ReserveInput) (ref : String)
    (e : StockLevelEntity) : (afterReserve r a ref e).reservations.entries =
      r.reservations.entries ++ [(u.draw r.draws, newReservation a e (u.draw r.draws))] :=
  JsMap.entries_set_of_fresh (r.reservations_issued.fresh le_rfl) _

theorem reserveLines_ok {dto : ReserveStockDTO} : ∀ {items : List ReserveLine}
    {r r' : StockLevelRepository u} {rs : List StockReservationEntity},
    reserveLines dto items r = (r', .ok rs) → List.Forall₂ (IsReservationOf dto) items rs ∧
      ∃ ids, r'.reservations.entries = r.reservations.entries ++ List.zip ids rs ∧
        ids.length = rs.length
  | [], r, r', rs, h => by
    cases h
    exact ⟨.nil, [], by simp, rfl⟩
  | item :: items, r, r', rs, h => by
    rcases reserveStock_cases r (dto.input item) with ⟨-, ex, hres⟩ | ⟨ref, e, -, -, -, hres⟩
    · rw [reserveLines, hres] at h
      cases congrArg Prod.snd h
    · rw [reserveLines, hres] at h
      simp only at h
      split at h
      · cases congrArg Prod.snd h
      · rename_i r'' rs' hrec
        cases h
        obtain ⟨hf, ids, hids, hlen⟩ := reserveLines_ok hrec
        refine ⟨.cons ⟨rfl, rfl, rfl, rfl, rfl, rfl⟩ hf, u.draw r.draws :: ids, ?_, ?_⟩
        · rw [hids, entries_afterReserve, List.append_assoc]
          rfl
        · rw [List.length_cons, List.length_cons, hlen]

theorem size_le_reserveLines (dto : ReserveStockDTO) : ∀ (items : List ReserveLine)
    (r : StockLevelRepository u),
    r.reservations.size ≤ (reserveLines dto items r).1.reservations.size
  | [], r => le_rfl
  | item :: items, r => by
    rcases reserveStock_cases r (dto.input item) with ⟨-, ex, hres⟩ | ⟨ref, e, -, -, -, hres⟩
    · rw [reserveLines, hres]
    · have ih := size_le_reserveLines dto items (afterReserve r (dto.input item) ref e)
      rw [JsMap.size, entries_afterReserve, List.length_append] at ih
      rw [reserveLines, hres]
      simp only
      split <;> rename_i hrec <;> rw [hrec] at ih <;> exact (Nat.le_add_right _ _).trans ih

/-! ## The request -/

variable {r : StockLevelRepository u} {dto : ReserveStockDTO}

theorem mem_quantities {sku : String} {items : List ReserveLine} {q : ℤ} :
    q ∈ quantities sku items ↔ ∃ item ∈ items, item.sku = sku ∧ item.quantity = q := by
  simp [quantities, and_assoc]

theorem allServed_iff_covered (h : checkLines r dto.warehouseId dto.items = .ok ()) :
    AllServed r dto.warehouseId dto.items ↔ Covered r dto := by
  rw [checkLines_ok_iff] at h
  have hpos : ∀ sku, ∀ q ∈ quantities sku dto.items, 0 < q := fun sku q hq => by
    obtain ⟨item, -, -, rfl⟩ := mem_quantities.mp hq
    exact item.quantity_pos
  constructor
  · intro hall item hitem h2 e he
    have hne : quantities item.sku dto.items ≠ [] := fun h0 => by rw [h0] at h2; simp at h2
    obtain ⟨e', he', hserve⟩ := hall item.sku hne
    cases Option.mem_unique he he'
    obtain ⟨q, qs, hqs⟩ := List.exists_cons_of_ne_nil hne
    have hp := hpos item.sku
    rw [hqs] at hserve h2 hp ⊢
    exact ((serves_cons_iff hp).mp hserve).2 h2
  · intro hcov sku hne
    obtain ⟨q, qs, hqs⟩ := List.exists_cons_of_ne_nil hne
    obtain ⟨item, hitem, rfl, rfl⟩ := mem_quantities.mp (hqs ▸ List.mem_cons_self)
    obtain ⟨e, he, hle⟩ := h item hitem
    have hc := hcov item hitem
    have hp := hpos item.sku
    rw [hqs] at hc hp ⊢
    exact ⟨e, he, (serves_cons_iff hp).mpr ⟨hle, fun h2 => hc h2 e he⟩⟩

/-- When every line alone passes the check, the request is all or nothing exactly when the second
loop succeeds: its first reservation already changes the repository. -/
theorem allOrNothing_iff_ok (h : checkLines r dto.warehouseId dto.items = .ok ()) :
    AllOrNothing r dto ↔ ∃ rs, (reserveLines dto dto.items r).2 = .ok rs := by
  unfold AllOrNothing reserveItemsForOrder
  rw [h]
  simp only
  cases hrec : reserveLines dto dto.items r with
  | mk r' res =>
    cases res with
    | ok rs => exact ⟨fun _ => ⟨rs, rfl⟩, fun _ => reserveLines_ok hrec⟩
    | error ex =>
      simp only [reduceCtorEq, exists_const, iff_false, not_and]
      intro hsame
      exfalso
      obtain ⟨item, items, hitems⟩ := List.exists_cons_of_ne_nil dto.items_min
      rw [checkLines_ok_iff] at h
      obtain ⟨e, he, hle⟩ := h item (hitems ▸ List.mem_cons_self)
      rcases reserveStock_cases r (dto.input item) with ⟨hno, -⟩ | ⟨ref, e', -, -, -, hres⟩
      · exact absurd (hno e he) (not_lt.mpr hle)
      · have hsize := size_le_reserveLines dto items (afterReserve r (dto.input item) ref e')
        have hr' : (reserveLines dto items (afterReserve r (dto.input item) ref e')).1 = r' := by
          rw [hitems, reserveLines, hres] at hrec
          simp only at hrec
          split at hrec <;> rename_i hrec' <;> rw [hrec'] <;> exact congrArg Prod.fst hrec
        rw [hr', JsMap.size, entries_afterReserve, List.length_append, hsame] at hsize
        simp only [JsMap.size, List.length_singleton] at hsize
        omega

/-- **When a multi-line reservation is all or nothing**: exactly when some line alone is refused,
or every sku that several lines name has all their units on hand and not reserved. -/
theorem reserveItemsForOrder_atomic_iff (r : StockLevelRepository u) (dto : ReserveStockDTO) :
    AllOrNothing r dto ↔ Refused r dto ∨ Covered r dto := by
  by_cases h : checkLines r dto.warehouseId dto.items = .ok ()
  · have hnr : ¬ Refused r dto := fun hr => (refused_iff r dto).mp hr h
    rw [allOrNothing_iff_ok h, reserveLines_ok_iff, allServed_iff_covered h]
    exact ⟨Or.inr, fun h => h.resolve_left hnr⟩
  · have hr : Refused r dto := (refused_iff r dto).mpr h
    refine ⟨fun _ => Or.inl hr, fun _ => ?_⟩
    unfold AllOrNothing reserveItemsForOrder
    cases hc : checkLines r dto.warehouseId dto.items with
    | ok x => exact absurd hc h
    | error e => exact ⟨rfl, fun _ => rfl⟩

/-! ## Two lines of one sku -/

section TwoLines

/-- Ten units of one sku. -/
def tenUnits : StockLevelRepository .unary :=
  ((new .unary).upsertStock
    { tenantId := "T-1", warehouseId := "WH-1", binLocationId := "BIN-1", sku := "SKU-1"
      quantityOnHand := 10, quantityReserved := 0 }).1

/-- Two lines of six units each. -/
def sixAndSix : ReserveStockDTO where
  tenantId := "T-1"
  orderId := "O-1"
  warehouseId := "WH-1"
  items := [⟨"SKU-1", 6, by decide, by decide⟩, ⟨"SKU-1", 6, by decide, by decide⟩]
  items_min := by decide

/-- **A partial reservation**: each line passes the check alone, the second one throws, and the
six units of the first stay reserved. -/
theorem partial_reservation : ¬ AllOrNothing tenUnits sixAndSix := by
  have hthrow : ∃ e, (reserveItemsForOrder tenUnits sixAndSix).2 = .error e := ⟨_, rfl⟩
  have hsize : (reserveItemsForOrder tenUnits sixAndSix).1.reservations ≠
      tenUnits.reservations := by decide
  obtain ⟨e, he⟩ := hthrow
  intro hall
  unfold AllOrNothing at hall
  cases hres : reserveItemsForOrder tenUnits sixAndSix with
  | mk r' res =>
    rw [hres] at he hsize hall
    cases he
    exact hsize hall.1

end TwoLines

end Logix.Inventory
