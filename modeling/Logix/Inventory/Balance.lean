import Logix.Inventory.Model
import Mathlib.Algebra.Order.Group.Int

/-!
# Reservations against stock

* `getStock_some`, `reserveStockFound_cases`, `releaseReservationFound_eq`: what the methods do.
* `NoOversell`: for every pair the ACTIVE reservations add up to `quantityReserved`, which is at
  most `quantityOnHand`; `Stocked`: the repositories that a run starts from.
* `Reconciled`: the records and the reservations agree, whatever is on hand; `Balanced`: they
  agree, and no more is reserved than is on hand. Each method keeps both: an upsert, a reservation,
  and a release when the reservation is still ACTIVE after the await, or nothing is reserved any
  more (`StillHeld`).
-/

namespace Logix.Inventory

open Async

variable {u : Surroundings}

/-- A reservation counts for a pair while it is ACTIVE. -/
def StockReservationEntity.activeFor (warehouseId sku : String) (s : StockReservationEntity) : ℤ :=
  if s.status = .ACTIVE ∧ s.warehouseId = warehouseId ∧ s.sku = sku then s.reservedQty else 0

namespace StockLevelRepository

/-- The sum of `reservedQty` over the ACTIVE reservations of a pair. -/
def activeQty (r : StockLevelRepository u) (warehouseId sku : String) : ℤ :=
  r.reservations.total (StockReservationEntity.activeFor warehouseId sku)

/-- The stock record of a pair. -/
def recordOf (r : StockLevelRepository u) (warehouseId sku : String) : Option StockLevelEntity :=
  (r.getStock warehouseId sku).bind r.stock.get

/-- **No oversell**: for every pair the ACTIVE reservations add up to the `quantityReserved` of
its record, and that is at most its `quantityOnHand`. -/
def NoOversell (r : StockLevelRepository u) : Prop :=
  ∀ warehouseId sku, match r.recordOf warehouseId sku with
    | none => r.activeQty warehouseId sku = 0
    | some e => r.activeQty warehouseId sku = e.quantityReserved ∧
        r.activeQty warehouseId sku ≤ e.quantityOnHand

/-- At most one record for each pair. -/
def OnePerPair (r : StockLevelRepository u) : Prop :=
  ∀ k e k' e', r.stock.get k = some e → r.stock.get k' = some e' →
    e.warehouseId = e'.warehouseId → e.sku = e'.sku → k = k'

/-- `quantityAvailable` is `quantityOnHand - quantityReserved`. -/
def Computed (r : StockLevelRepository u) : Prop :=
  ∀ k e, r.stock.get k = some e → e.quantityAvailable = e.quantityOnHand - e.quantityReserved

/-- There is a record of the reservation's pair. -/
def Backs (r : StockLevelRepository u) (s : StockReservationEntity) : Prop :=
  ∃ ref e, r.stock.get ref = some e ∧ e.warehouseId = s.warehouseId ∧ e.sku = s.sku

/-- Stock records only, one for each pair, with nothing reserved. -/
structure Stocked (r : StockLevelRepository u) : Prop where
  pairs : r.OnePerPair
  computed : r.Computed
  reserved : ∀ k e, r.stock.get k = some e → e.quantityReserved = 0
  onHand : ∀ k e, r.stock.get k = some e → 0 ≤ e.quantityOnHand
  reservations : r.reservations = .empty

/-- **The reservations and the records agree**, whatever is on hand. -/
structure Reconciled (r : StockLevelRepository u) : Prop where
  pairs : r.OnePerPair
  computed : r.Computed
  active : ∀ k e, r.stock.get k = some e → r.activeQty e.warehouseId e.sku = e.quantityReserved
  backed : ∀ k s, r.reservations.get k = some s → r.Backs s
  positive : ∀ k s, r.reservations.get k = some s → 0 < s.reservedQty

/-- **The reservations and the records agree**, and no more is reserved than is on hand. -/
structure Balanced (r : StockLevelRepository u) : Prop where
  pairs : r.OnePerPair
  computed : r.Computed
  active : ∀ k e, r.stock.get k = some e → r.activeQty e.warehouseId e.sku = e.quantityReserved
  bound : ∀ k e, r.stock.get k = some e → e.quantityReserved ≤ e.quantityOnHand
  backed : ∀ k s, r.reservations.get k = some s → r.Backs s
  positive : ∀ k s, r.reservations.get k = some s → 0 < s.reservedQty

/-! ## What the methods do -/

variable {r : StockLevelRepository u}

theorem getStock_some {warehouseId sku ref : String}
    (h : r.getStock warehouseId sku = some ref) :
    ∃ e, r.stock.get ref = some e ∧ e.warehouseId = warehouseId ∧ e.sku = sku := by
  obtain ⟨⟨k, e⟩, he, rfl⟩ := Option.map_eq_some_iff.mp h
  have hp := List.find?_some he
  simp only [decide_eq_true_eq] at hp
  exact ⟨e, JsMap.get_eq_some_iff.mpr (List.mem_of_find?_eq_some he), hp⟩

theorem getStock_none {warehouseId sku : String} (h : r.getStock warehouseId sku = none)
    {ref : String} {e : StockLevelEntity} (he : r.stock.get ref = some e) :
    ¬ (e.warehouseId = warehouseId ∧ e.sku = sku) := by
  rw [getStock, Option.map_eq_none_iff, List.find?_eq_none] at h
  simpa using h _ (JsMap.get_eq_some_iff.mp he)

theorem isSome_getStock {warehouseId sku ref : String} {e : StockLevelEntity}
    (he : r.stock.get ref = some e) (hw : e.warehouseId = warehouseId) (hs : e.sku = sku) :
    (r.getStock warehouseId sku).isSome := by
  cases hg : r.getStock warehouseId sku with
  | none => exact absurd ⟨hw, hs⟩ (getStock_none hg he)
  | some ref => rfl

theorem recordOf_some {warehouseId sku : String} {e : StockLevelEntity}
    (h : r.recordOf warehouseId sku = some e) :
    ∃ ref, r.getStock warehouseId sku = some ref ∧ r.stock.get ref = some e ∧
      e.warehouseId = warehouseId ∧ e.sku = sku := by
  obtain ⟨ref, href, he⟩ := Option.bind_eq_some_iff.mp h
  obtain ⟨e', he', hp⟩ := getStock_some href
  rw [he] at he'
  cases he'
  exact ⟨ref, href, he, hp⟩

theorem recordOf_none {warehouseId sku : String} (h : r.recordOf warehouseId sku = none) :
    r.getStock warehouseId sku = none := by
  cases hg : r.getStock warehouseId sku with
  | none => rfl
  | some ref =>
    obtain ⟨e, he, -⟩ := getStock_some hg
    simp [recordOf, hg, he] at h

theorem recordOf_eq {r : StockLevelRepository u} (h : r.OnePerPair) {ref : String}
    {e : StockLevelEntity} (he : r.stock.get ref = some e) :
    r.recordOf e.warehouseId e.sku = some e := by
  obtain ⟨ref', hg⟩ := Option.isSome_iff_exists.mp (isSome_getStock he rfl rfl)
  obtain ⟨e', he', hw, hs⟩ := getStock_some hg
  cases h ref' e' ref e he' he hw hs
  rw [he] at he'; cases he'
  rw [recordOf, hg]
  exact he

/-- **`reserveStock` after its await** throws and changes nothing, or reserves on the record. -/
theorem reserveStockFound_cases (r : StockLevelRepository u) (a : ReserveInput)
    (stock : Option String) :
    r.reserveStockFound a stock =
        (r, .error (.error s!"Insufficient stock for SKU {a.sku}")) ∨
      ∃ ref e, stock = some ref ∧ r.stock.get ref = some e ∧ a.qty ≤ e.quantityAvailable ∧
        r.reserveStockFound a stock =
          ((r.mutateStock ref (StockLevelEntity.reserve a.qty r.now)).insertReservation
            (newReservation a e), .ok (newReservation a e (u.draw r.draws))) := by
  cases stock with
  | none => exact Or.inl rfl
  | some ref =>
    cases he : r.stock.get ref with
    | none => left; simp [reserveStockFound, he]
    | some e =>
      by_cases hq : e.quantityAvailable < a.qty
      · left; simp [reserveStockFound, he, hq]
      · right
        exact ⟨ref, e, rfl, he, not_lt.mp hq, by simp [reserveStockFound, he, hq]⟩

theorem releaseReservationFound_eq {id ref : String} {s : StockReservationEntity}
    (hs : r.reservations.get id = some s) :
    r.releaseReservationFound id (some ref) =
      (r.mutateStock ref (StockLevelEntity.release s.reservedQty r.now)).mutateReservation id
        StockReservationEntity.markReleased := by
  simp [releaseReservationFound, hs]

theorem releaseReservationCheck_some {id : String} {stock : Option String}
    (h : r.releaseReservationCheck id = some stock) :
    ∃ s, r.reservations.get id = some s ∧ stock = r.getStock s.warehouseId s.sku := by
  cases hs : r.reservations.get id with
  | none => simp [releaseReservationCheck, hs] at h
  | some s =>
    simp only [releaseReservationCheck, hs] at h
    split_ifs at h
    exact ⟨s, rfl, (Option.some.inj h).symm⟩

/-! ## The ACTIVE reservations after a write -/

@[simp] theorem activeQty_mutateStock (ref : String) (f : StockLevelEntity → StockLevelEntity)
    (wh sku : String) : (r.mutateStock ref f).activeQty wh sku = r.activeQty wh sku := rfl

theorem activeQty_insertReservation (entity : String → StockReservationEntity) (wh sku : String) :
    (r.insertReservation entity).activeQty wh sku =
      r.activeQty wh sku + (entity (u.draw r.draws)).activeFor wh sku :=
  JsMap.total_set_of_fresh (r.reservations_issued.fresh le_rfl) _ _

theorem activeQty_mutateReservation {id : String} {s : StockReservationEntity}
    (hs : r.reservations.get id = some s)
    (f : StockReservationEntity → StockReservationEntity) (wh sku : String) :
    (r.mutateReservation id f).activeQty wh sku =
      r.activeQty wh sku - s.activeFor wh sku + (f s).activeFor wh sku :=
  JsMap.total_modify hs _ _

theorem Balanced.reconciled (h : r.Balanced) : r.Reconciled :=
  ⟨h.pairs, h.computed, h.active, h.backed, h.positive⟩

theorem Reconciled.balanced (h : r.Reconciled)
    (hbound : ∀ k e, r.stock.get k = some e → e.quantityReserved ≤ e.quantityOnHand) : r.Balanced :=
  ⟨h.pairs, h.computed, h.active, hbound, h.backed, h.positive⟩

theorem Reconciled.activeFor_nonneg (h : r.Reconciled) (wh sku : String) :
    ∀ s ∈ r.reservations.values, 0 ≤ s.activeFor wh sku := by
  intro s hs
  obtain ⟨k, hk⟩ := JsMap.exists_get_of_mem_values hs
  have := h.positive k s hk
  unfold StockReservationEntity.activeFor
  split_ifs <;> omega

theorem Reconciled.activeQty_nonneg (h : r.Reconciled) (wh sku : String) :
    0 ≤ r.activeQty wh sku := by
  refine List.sum_nonneg fun x hx => ?_
  obtain ⟨s, hs, rfl⟩ := List.mem_map.mp hx
  exact h.activeFor_nonneg wh sku s hs

theorem Reconciled.le_activeQty (h : r.Reconciled) {id : String} {s : StockReservationEntity}
    (hs : r.reservations.get id = some s) (hact : s.status = .ACTIVE) :
    s.reservedQty ≤ r.activeQty s.warehouseId s.sku := by
  have hle := JsMap.le_total (h.activeFor_nonneg s.warehouseId s.sku) hs
  rw [StockReservationEntity.activeFor, if_pos ⟨hact, rfl, rfl⟩] at hle
  exact hle

theorem Reconciled.activeQty_eq_zero (h : r.Reconciled) {wh sku : String}
    (hg : r.getStock wh sku = none) : r.activeQty wh sku = 0 := by
  refine List.sum_eq_zero fun x hx => ?_
  obtain ⟨s, hs, rfl⟩ := List.mem_map.mp hx
  obtain ⟨k, hk⟩ := JsMap.exists_get_of_mem_values hs
  obtain ⟨ref, e, he, hw, hsku⟩ := h.backed k s hk
  have hne := getStock_none hg he
  unfold StockReservationEntity.activeFor
  rw [if_neg]
  rintro ⟨-, rfl, rfl⟩
  exact hne ⟨hw, hsku⟩

theorem Balanced.noOversell (h : r.Balanced) : r.NoOversell := by
  intro wh sku
  cases hr : r.recordOf wh sku with
  | some e =>
    obtain ⟨ref, -, he, rfl, rfl⟩ := recordOf_some hr
    have := h.active ref e he
    exact ⟨this, this ▸ h.bound ref e he⟩
  | none => exact h.reconciled.activeQty_eq_zero (recordOf_none hr)

theorem Stocked.balanced (h : r.Stocked) : r.Balanced where
  pairs := h.pairs
  computed := h.computed
  active k e he := by
    rw [activeQty, h.reservations, h.reserved k e he]
    rfl
  bound k e he := by rw [h.reserved k e he]; exact h.onHand k e he
  backed k s hs := by rw [h.reservations] at hs; cases hs
  positive k s hs := by rw [h.reservations] at hs; cases hs

/-! ## The methods keep the balance -/

theorem get_mutateStock {ref k : String} {f : StockLevelEntity → StockLevelEntity}
    {e : StockLevelEntity} (h : (r.mutateStock ref f).stock.get k = some e) :
    ∃ e₀, r.stock.get k = some e₀ ∧ e = if k = ref then f e₀ else e₀ :=
  JsMap.exists_of_get_modify h

theorem mutateStock_get {k : String} {e : StockLevelEntity} (h : r.stock.get k = some e)
    (ref : String) (f : StockLevelEntity → StockLevelEntity) :
    (r.mutateStock ref f).stock.get k = some (if k = ref then f e else e) :=
  JsMap.get_modify_of_get h ref f

/-- A mutation that leaves the pair of a record alone. -/
def KeepsPair (f : StockLevelEntity → StockLevelEntity) : Prop :=
  ∀ e, (f e).warehouseId = e.warehouseId ∧ (f e).sku = e.sku

theorem keepsPair_addOnHand (qty : ℤ) (now : JsDate) :
    KeepsPair (StockLevelEntity.addOnHand qty now) :=
  fun _ => ⟨rfl, rfl⟩

theorem keepsPair_reserve (qty : ℤ) (now : JsDate) :
    KeepsPair (StockLevelEntity.reserve qty now) :=
  fun _ => ⟨rfl, rfl⟩

theorem keepsPair_release (qty : ℤ) (now : JsDate) :
    KeepsPair (StockLevelEntity.release qty now) :=
  fun _ => ⟨rfl, rfl⟩

theorem KeepsPair.ite {f : StockLevelEntity → StockLevelEntity} (hf : KeepsPair f)
    (k ref : String) (e : StockLevelEntity) :
    (if k = ref then f e else e).warehouseId = e.warehouseId ∧
      (if k = ref then f e else e).sku = e.sku := by
  split_ifs
  · exact hf e
  · exact ⟨rfl, rfl⟩

theorem OnePerPair.mutateStock (h : r.OnePerPair) {f : StockLevelEntity → StockLevelEntity}
    (hf : KeepsPair f) (ref : String) : (r.mutateStock ref f).OnePerPair := by
  intro k e k' e' he he' hw hsku
  obtain ⟨e₀, he₀, rfl⟩ := get_mutateStock he
  obtain ⟨e₁, he₁, rfl⟩ := get_mutateStock he'
  rw [(hf.ite k ref e₀).1, (hf.ite k' ref e₁).1] at hw
  rw [(hf.ite k ref e₀).2, (hf.ite k' ref e₁).2] at hsku
  exact h k e₀ k' e₁ he₀ he₁ hw hsku

theorem OnePerPair.activeFor_eq_zero (h : r.OnePerPair) {k ref : String} {e₀ e : StockLevelEntity}
    (he₀ : r.stock.get k = some e₀) (he : r.stock.get ref = some e) (hk : k ≠ ref)
    {s : StockReservationEntity} (hw : e.warehouseId = s.warehouseId) (hsku : e.sku = s.sku) :
    s.activeFor e₀.warehouseId e₀.sku = 0 := by
  rw [StockReservationEntity.activeFor, if_neg]
  rintro ⟨-, h₁, h₂⟩
  exact hk (h k e₀ ref e he₀ he (h₁.symm.trans hw.symm) (h₂.symm.trans hsku.symm))

theorem Computed.mutateStock (h : r.Computed) {f : StockLevelEntity → StockLevelEntity}
    (hf : ∀ e, (f e).quantityAvailable = (f e).quantityOnHand - (f e).quantityReserved)
    (ref : String) : (r.mutateStock ref f).Computed := by
  intro k e he
  obtain ⟨e₀, he₀, rfl⟩ := get_mutateStock he
  split_ifs
  · exact hf e₀
  · exact h k e₀ he₀

theorem Backs.mutateStock {s : StockReservationEntity} (h : r.Backs s)
    {f : StockLevelEntity → StockLevelEntity} (hf : KeepsPair f) (ref : String) :
    (r.mutateStock ref f).Backs s := by
  obtain ⟨k, e, he, hw, hsku⟩ := h
  have hp := hf.ite k ref e
  exact ⟨k, _, mutateStock_get he ref f, hp.1.trans hw, hp.2.trans hsku⟩

theorem Reconciled.upsert (h : r.Reconciled) (item : StockInput) (ref : String) :
    (r.upsertStockFound item (some ref)).1.Reconciled where
  pairs := h.pairs.mutateStock (keepsPair_addOnHand _ _) ref
  computed := h.computed.mutateStock (fun _ => rfl) ref
  active k e he := by
    obtain ⟨e₀, he₀, rfl⟩ := get_mutateStock he
    have := h.active k e₀ he₀
    split_ifs <;> exact this
  backed k s hs := (h.backed k s hs).mutateStock (keepsPair_addOnHand _ _) ref
  positive := h.positive

theorem Balanced.upsert (h : r.Balanced) {item : StockInput} (h0 : 0 ≤ item.quantityOnHand)
    (ref : String) : (r.upsertStockFound item (some ref)).1.Balanced := by
  refine (h.reconciled.upsert item ref).balanced fun k e he => ?_
  obtain ⟨e₀, he₀, rfl⟩ := get_mutateStock he
  have := h.bound k e₀ he₀
  split_ifs
  · change e₀.quantityReserved ≤ e₀.quantityOnHand + item.quantityOnHand
    omega
  · exact this

theorem get_insertReservation {entity : String → StockReservationEntity} {k : String}
    {s : StockReservationEntity} (h : (r.insertReservation entity).reservations.get k = some s) :
    s = entity (u.draw r.draws) ∨ r.reservations.get k = some s := by
  have hs := (JsMap.get_set _ _ _ k).symm.trans h
  split_ifs at hs
  · exact Or.inl (Option.some.inj hs).symm
  · exact Or.inr hs

theorem Reconciled.reserve (h : r.Reconciled) {a : ReserveInput} (hq : 0 < a.qty) {ref : String}
    {e : StockLevelEntity} (he : r.stock.get ref = some e) (hw : e.warehouseId = a.warehouseId)
    (hsku : e.sku = a.sku) :
    ((r.mutateStock ref (StockLevelEntity.reserve a.qty r.now)).insertReservation
      (newReservation a e)).Reconciled where
  pairs := h.pairs.mutateStock (keepsPair_reserve _ _) ref
  computed := h.computed.mutateStock (fun _ => rfl) ref
  active k e' he' := by
    obtain ⟨e₀, he₀, rfl⟩ := get_mutateStock he'
    have hact := h.active k e₀ he₀
    rw [activeQty_insertReservation, activeQty_mutateStock]
    by_cases hk : k = ref
    · subst hk
      rw [he] at he₀; cases he₀
      rw [if_pos rfl]
      change r.activeQty e.warehouseId e.sku + _ = e.quantityReserved + a.qty
      rw [hact, StockReservationEntity.activeFor, if_pos ⟨rfl, hw.symm, hsku.symm⟩]
      rfl
    · rw [if_neg hk, hact, h.pairs.activeFor_eq_zero he₀ he hk (s := newReservation a e _) hw hsku,
        add_zero]
  backed k s hs := by
    have hold : ∀ s, r.Backs s →
        (r.mutateStock ref (StockLevelEntity.reserve a.qty r.now)).Backs s :=
      fun s hs => hs.mutateStock (keepsPair_reserve _ _) ref
    rcases get_insertReservation hs with rfl | hs
    · exact hold _ ⟨ref, e, he, hw, hsku⟩
    · exact hold s (h.backed k s hs)
  positive k s hs := by
    rcases get_insertReservation hs with rfl | hs
    · exact hq
    · exact h.positive k s hs

theorem Balanced.reserve (h : r.Balanced) {a : ReserveInput} (hq : 0 < a.qty) {ref : String}
    {e : StockLevelEntity} (he : r.stock.get ref = some e) (hw : e.warehouseId = a.warehouseId)
    (hsku : e.sku = a.sku) (hle : a.qty ≤ e.quantityAvailable) :
    ((r.mutateStock ref (StockLevelEntity.reserve a.qty r.now)).insertReservation
      (newReservation a e)).Balanced := by
  refine (h.reconciled.reserve hq he hw hsku).balanced fun k e' he' => ?_
  obtain ⟨e₀, he₀, rfl⟩ := get_mutateStock he'
  have := h.bound k e₀ he₀
  split_ifs with hk
  · subst hk
    rw [he] at he₀; cases he₀
    have := h.computed k e he
    change e.quantityReserved + a.qty ≤ e.quantityOnHand
    omega
  · exact this

/-! ## Stocking an empty repository -/

theorem stocked_new (u : Surroundings) : (new u).Stocked where
  pairs k e _ _ he := by cases he
  computed k e he := by cases he
  reserved k e he := by cases he
  onHand k e he := by cases he
  reservations := rfl

theorem get_insertStock {entity : String → StockLevelEntity} {k : String} {e : StockLevelEntity}
    (h : (r.insertStock entity).stock.get k = some e) :
    (k = u.draw r.draws ∧ e = entity (u.draw r.draws)) ∨ r.stock.get k = some e := by
  have he := (JsMap.get_set _ _ _ k).symm.trans h
  split_ifs at he with hk
  · exact Or.inl ⟨hk, (Option.some.inj he).symm⟩
  · exact Or.inr he

theorem OnePerPair.insertStock (h : r.OnePerPair) {entity : String → StockLevelEntity}
    {wh sku : String} (hg : r.getStock wh sku = none)
    (hpair : ∀ id, (entity id).warehouseId = wh ∧ (entity id).sku = sku) :
    (r.insertStock entity).OnePerPair := by
  have hnew := fun k e (he : r.stock.get k = some e) => getStock_none hg he
  intro k e k' e' he he' hw hs
  rcases get_insertStock he with ⟨rfl, rfl⟩ | he <;>
    rcases get_insertStock he' with ⟨rfl, rfl⟩ | he'
  · rfl
  · rw [(hpair _).1] at hw
    rw [(hpair _).2] at hs
    exact absurd ⟨hw.symm, hs.symm⟩ (hnew k' e' he')
  · rw [(hpair _).1] at hw
    rw [(hpair _).2] at hs
    exact absurd ⟨hw, hs⟩ (hnew k e he)
  · exact h k e k' e' he he' hw hs

theorem Computed.insertStock (h : r.Computed) {entity : String → StockLevelEntity}
    (hentity : ∀ id, (entity id).quantityAvailable =
      (entity id).quantityOnHand - (entity id).quantityReserved) :
    (r.insertStock entity).Computed := by
  intro k e he
  rcases get_insertStock he with ⟨-, rfl⟩ | he
  · exact hentity _
  · exact h k e he

theorem Stocked.upsertStock (h : r.Stocked) {item : StockInput} (h0 : 0 ≤ item.quantityOnHand)
    (hr : item.quantityReserved = 0) : (r.upsertStock item).1.Stocked := by
  unfold StockLevelRepository.upsertStock
  cases hg : r.getStock item.warehouseId item.sku with
  | some ref =>
    refine ⟨h.pairs.mutateStock (keepsPair_addOnHand _ _) ref,
      h.computed.mutateStock (fun _ => rfl) ref, fun k e he => ?_, fun k e he => ?_,
      h.reservations⟩
    · obtain ⟨e₀, he₀, rfl⟩ := get_mutateStock he
      have := h.reserved k e₀ he₀
      split_ifs <;> exact this
    · obtain ⟨e₀, he₀, rfl⟩ := get_mutateStock he
      have := h.onHand k e₀ he₀
      split_ifs
      · change 0 ≤ e₀.quantityOnHand + item.quantityOnHand
        omega
      · exact this
  | none =>
    refine ⟨h.pairs.insertStock hg fun _ => ⟨rfl, rfl⟩, h.computed.insertStock fun _ => rfl,
      fun k e he => ?_, fun k e he => ?_, h.reservations⟩
    · rcases get_insertStock he with ⟨-, rfl⟩ | he
      · exact hr
      · exact h.reserved k e he
    · rcases get_insertStock he with ⟨-, rfl⟩ | he
      · exact h0
      · exact h.onHand k e he

theorem insertStock_get {k : String} {e : StockLevelEntity} (h : r.stock.get k = some e)
    (entity : String → StockLevelEntity) : (r.insertStock entity).stock.get k = some e :=
  JsMap.get_set_of_get (r.stock_issued.fresh le_rfl) h _

theorem Backs.insertStock {s : StockReservationEntity} (h : r.Backs s)
    (entity : String → StockLevelEntity) : (r.insertStock entity).Backs s := by
  obtain ⟨k, e, he, hw, hsku⟩ := h
  exact ⟨k, e, insertStock_get he entity, hw, hsku⟩

theorem Reconciled.insertStock (h : r.Reconciled) {entity : String → StockLevelEntity}
    {wh sku : String} (hg : r.getStock wh sku = none)
    (hpair : ∀ id, (entity id).warehouseId = wh ∧ (entity id).sku = sku)
    (hreserved : ∀ id, (entity id).quantityReserved = 0)
    (havailable : ∀ id, (entity id).quantityAvailable =
      (entity id).quantityOnHand - (entity id).quantityReserved) :
    (r.insertStock entity).Reconciled where
  pairs := h.pairs.insertStock hg hpair
  computed := h.computed.insertStock havailable
  active k e he := by
    rcases get_insertStock he with ⟨-, rfl⟩ | he
    · rw [(hpair _).1, (hpair _).2, hreserved]
      exact h.activeQty_eq_zero hg
    · exact h.active k e he
  backed k s hs := (h.backed k s hs).insertStock entity
  positive := h.positive

/-! ## Releases -/

/-- **A release continues in time**: its reservation is still ACTIVE, or nothing is reserved on
its record any more. -/
def StillHeld (r : StockLevelRepository u) (id : String) (stock : Option String) : Prop :=
  (∃ s ∈ r.reservations.get id, s.status = .ACTIVE) ∨
    ∃ ref ∈ stock, ∃ e ∈ r.stock.get ref, e.quantityReserved = 0

instance (r : StockLevelRepository u) (id : String) (stock : Option String) :
    Decidable (r.StillHeld id stock) := inferInstanceAs (Decidable (_ ∨ _))

theorem get_stock_release {id k ref : String} {s : StockReservationEntity} {e : StockLevelEntity}
    (hs : r.reservations.get id = some s)
    (h : (r.releaseReservationFound id (some ref)).stock.get k = some e) :
    ∃ e₀, r.stock.get k = some e₀ ∧ e = if k = ref then e₀.release s.reservedQty r.now else e₀ := by
  rw [releaseReservationFound_eq hs] at h
  exact get_mutateStock (f := StockLevelEntity.release s.reservedQty r.now) h

theorem get_releaseReservation {id k ref : String} {s s' : StockReservationEntity}
    (hs : r.reservations.get id = some s)
    (h : (r.releaseReservationFound id (some ref)).reservations.get k = some s') :
    ∃ s₀, r.reservations.get k = some s₀ ∧
      s' = if k = id then s₀.markReleased else s₀ := by
  rw [releaseReservationFound_eq hs] at h
  exact JsMap.exists_of_get_modify h

theorem activeQty_release {id ref : String} {s : StockReservationEntity}
    (hs : r.reservations.get id = some s) (wh sku : String) :
    (r.releaseReservationFound id (some ref)).activeQty wh sku =
      r.activeQty wh sku - s.activeFor wh sku := by
  have h0 : s.markReleased.activeFor wh sku = 0 := by
    simp [StockReservationEntity.activeFor, StockReservationEntity.markReleased]
  rw [releaseReservationFound_eq hs,
    activeQty_mutateReservation (r := r.mutateStock ref _) (s := s) hs, h0, add_zero]
  rfl

theorem Reconciled.release (h : r.Reconciled) {id ref : String} {s : StockReservationEntity}
    {e : StockLevelEntity} (hs : r.reservations.get id = some s) (he : r.stock.get ref = some e)
    (hw : e.warehouseId = s.warehouseId) (hsku : e.sku = s.sku)
    (held : s.status = .ACTIVE ∨ e.quantityReserved = 0) :
    (r.releaseReservationFound id (some ref)).Reconciled where
  pairs := by
    rw [releaseReservationFound_eq hs]
    exact h.pairs.mutateStock (keepsPair_release _ _) ref
  computed := by
    rw [releaseReservationFound_eq hs]
    exact h.computed.mutateStock (fun _ => rfl) ref
  active k e' he' := by
    obtain ⟨e₀, he₀, rfl⟩ := get_stock_release hs he'
    have hact := h.active k e₀ he₀
    rw [activeQty_release hs]
    by_cases hk : k = ref
    · subst hk
      rw [he] at he₀; cases he₀
      rw [if_pos rfl]
      change r.activeQty e.warehouseId e.sku - s.activeFor e.warehouseId e.sku =
        max 0 (e.quantityReserved - s.reservedQty)
      rw [hact, StockReservationEntity.activeFor]
      have hpos := h.positive id s hs
      by_cases hst : s.status = .ACTIVE
      · have hle := h.le_activeQty hs hst
        rw [← hw, ← hsku, hact] at hle
        rw [if_pos ⟨hst, hw.symm, hsku.symm⟩, max_eq_right (by omega)]
      · have h0 := held.resolve_left hst
        rw [if_neg fun hc => hst hc.1, max_eq_left (by omega), h0, sub_zero]
    · rw [if_neg hk, hact, h.pairs.activeFor_eq_zero he₀ he hk hw hsku, sub_zero]
  backed k s' hs' := by
    obtain ⟨s₀, hs₀, rfl⟩ := get_releaseReservation hs hs'
    have hb := (h.backed k s₀ hs₀).mutateStock (keepsPair_release s.reservedQty r.now) ref
    rw [releaseReservationFound_eq hs]
    split_ifs <;> exact hb
  positive k s' hs' := by
    obtain ⟨s₀, hs₀, rfl⟩ := get_releaseReservation hs hs'
    split_ifs <;> exact h.positive k s₀ hs₀

theorem Balanced.release (h : r.Balanced) {id ref : String} {s : StockReservationEntity}
    {e : StockLevelEntity} (hs : r.reservations.get id = some s) (he : r.stock.get ref = some e)
    (hw : e.warehouseId = s.warehouseId) (hsku : e.sku = s.sku)
    (held : s.status = .ACTIVE ∨ e.quantityReserved = 0) :
    (r.releaseReservationFound id (some ref)).Balanced := by
  refine (h.reconciled.release hs he hw hsku held).balanced fun k e' he' => ?_
  obtain ⟨e₀, he₀, rfl⟩ := get_stock_release hs he'
  have := h.bound k e₀ he₀
  split_ifs with hk
  · subst hk
    rw [he] at he₀; cases he₀
    have hpos := h.positive id s hs
    change max 0 (e.quantityReserved - s.reservedQty) ≤ e.quantityOnHand
    -- the sum of the ACTIVE reservations is not negative, so neither is the stock on hand
    have h0 : 0 ≤ e.quantityReserved := h.active k e he ▸ h.reconciled.activeQty_nonneg _ _
    omega
  · exact this

end StockLevelRepository

end Logix.Inventory
