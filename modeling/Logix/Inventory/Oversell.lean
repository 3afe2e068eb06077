import Logix.Inventory.Balance

/-!
# No oversell under interleaved calls

* `Admitted`: the calls that a run starts; `Timely`: a release that continues is still held.
* `RepoCall.Ready`: what a suspended call relies on, stable under every segment
  (`RepoCall.Ready.mono`).
* **`noOversell_of_timely`**: in every run whose releases are timely no state oversells, and the
  first release that is not timely breaks the balance.
* `oversell_of_double_release`: two overlapping releases of one reservation.
-/

namespace Logix.Inventory

open Async StockLevelRepository

variable {u : Surroundings}

/-- The configurations of the repository program. -/
abbrev RepoConfig (u : Surroundings) : Type := Config (StockLevelRepository u) RepoCall RepoOutcome

/-- A run starts reservations of positive quantities, releases, and non-negative upserts of pairs
that have a record. -/
def Admitted (c : RepoConfig u) : Act RepoCall Unit → Prop
  | .call (.upsertStock item) _ =>
    0 ≤ item.quantityOnHand ∧ (c.heap.getStock item.warehouseId item.sku).isSome
  | .call (.reserveStock a) _ => 0 < a.qty
  | .call (.releaseReservation _) _ => True
  | .call _ _ => False
  | .resume _ _ => True

/-- A suspended release is still held. -/
def RepoCall.Held (r : StockLevelRepository u) : RepoCall → Prop
  | .releaseReservationFound id stock => r.StillHeld id stock
  | _ => True

/-- The call that continues, when it is a release, is still held. -/
def Timely (c : RepoConfig u) : Act RepoCall Unit → Prop
  | .call _ _ => True
  | .resume n _ => ∀ k ∈ c.inFlight[n]?, k.Held c.heap

instance : ∀ (c : RepoConfig u) (a : Act RepoCall Unit), Decidable (Admitted c a)
  | _, .call (.upsertStock _) _ => inferInstanceAs (Decidable (_ ∧ _))
  | _, .call (.reserveStock _) _ => inferInstanceAs (Decidable (_ < _))
  | _, .call (.releaseReservation _) _ => .isTrue trivial
  | _, .call (.upsertStockFound _ _) _ => .isFalse id
  | _, .call (.reserveStockFound _ _) _ => .isFalse id
  | _, .call (.releaseReservationFound _ _) _ => .isFalse id
  | _, .resume _ _ => .isTrue trivial

instance (r : StockLevelRepository u) : DecidablePred (RepoCall.Held r)
  | .releaseReservationFound _ _ => inferInstanceAs (Decidable (_ ∨ _))
  | .upsertStock _ | .upsertStockFound _ _ | .reserveStock _ | .reserveStockFound _ _
  | .releaseReservation _ => .isTrue trivial

instance : ∀ (c : RepoConfig u) (a : Act RepoCall Unit), Decidable (Timely c a)
  | _, .call _ _ => .isTrue trivial
  | _, .resume _ _ => inferInstanceAs (Decidable (∀ k ∈ _, RepoCall.Held _ k))

/-- **What a suspended call relies on.** -/
def RepoCall.Ready (r : StockLevelRepository u) : RepoCall → Prop
  | .upsertStock item => 0 ≤ item.quantityOnHand ∧
      ∃ ref e, r.stock.get ref = some e ∧ e.warehouseId = item.warehouseId ∧ e.sku = item.sku
  | .upsertStockFound item existing => 0 ≤ item.quantityOnHand ∧ existing.isSome
  | .reserveStock a => 0 < a.qty
  | .reserveStockFound a stock => 0 < a.qty ∧
      ∀ ref ∈ stock, ∃ e, r.stock.get ref = some e ∧ e.warehouseId = a.warehouseId ∧ e.sku = a.sku
  | .releaseReservation _ => True
  | .releaseReservationFound id stock => ∃ s ref e, r.reservations.get id = some s ∧
      stock = some ref ∧ r.stock.get ref = some e ∧ e.warehouseId = s.warehouseId ∧ e.sku = s.sku

namespace StockLevelRepository

/-- Later than `r`: every record and reservation is still there, for the same pair. -/
structure Extends (r r' : StockLevelRepository u) : Prop where
  stock : ∀ k e, r.stock.get k = some e →
    ∃ e', r'.stock.get k = some e' ∧ e'.warehouseId = e.warehouseId ∧ e'.sku = e.sku
  reservations : ∀ k s, r.reservations.get k = some s →
    ∃ s', r'.reservations.get k = some s' ∧ s'.warehouseId = s.warehouseId ∧ s'.sku = s.sku

variable {r r' : StockLevelRepository u}

theorem Extends.refl (r : StockLevelRepository u) : r.Extends r :=
  ⟨fun _ e he => ⟨e, he, rfl, rfl⟩, fun _ s hs => ⟨s, hs, rfl, rfl⟩⟩

theorem Extends.trans {r'' : StockLevelRepository u} (h : r.Extends r') (h' : r'.Extends r'') :
    r.Extends r'' where
  stock k e he := by
    obtain ⟨e₁, he₁, hw₁, hs₁⟩ := h.stock k e he
    obtain ⟨e₂, he₂, hw₂, hs₂⟩ := h'.stock k e₁ he₁
    exact ⟨e₂, he₂, hw₂.trans hw₁, hs₂.trans hs₁⟩
  reservations k s hs := by
    obtain ⟨s₁, hs₁, hw₁, hk₁⟩ := h.reservations k s hs
    obtain ⟨s₂, hs₂, hw₂, hk₂⟩ := h'.reservations k s₁ hs₁
    exact ⟨s₂, hs₂, hw₂.trans hw₁, hk₂.trans hk₁⟩

theorem extends_mutateStock (r : StockLevelRepository u) {f : StockLevelEntity → StockLevelEntity}
    (hf : KeepsPair f) (ref : String) : r.Extends (r.mutateStock ref f) where
  stock k e he := ⟨_, mutateStock_get he ref f, hf.ite k ref e⟩
  reservations _ s hs := ⟨s, hs, rfl, rfl⟩

theorem extends_insertReservation (r : StockLevelRepository u)
    (entity : String → StockReservationEntity) : r.Extends (r.insertReservation entity) where
  stock _ e he := ⟨e, he, rfl, rfl⟩
  reservations _ s hs :=
    ⟨s, JsMap.get_set_of_get (r.reservations_issued.fresh le_rfl) hs _, rfl, rfl⟩

theorem extends_markReleased (r : StockLevelRepository u) (id : String) :
    r.Extends (r.mutateReservation id StockReservationEntity.markReleased) where
  stock _ e he := ⟨e, he, rfl, rfl⟩
  reservations k s hs := by
    refine ⟨_, JsMap.get_modify_of_get hs id _, ?_, ?_⟩ <;> split_ifs <;> rfl

theorem extends_release (r : StockLevelRepository u) (id : String) (stock : Option String) :
    r.Extends (r.releaseReservationFound id stock) := by
  unfold releaseReservationFound
  cases r.reservations.get id with
  | none => exact .refl r
  | some s =>
    cases stock with
    | none => exact r.extends_markReleased id
    | some ref =>
      exact (r.extends_mutateStock (keepsPair_release s.reservedQty r.now) ref).trans
        (extends_markReleased _ id)

end StockLevelRepository

/-! ## Segments -/

theorem RepoCall.Ready.mono {r r' : StockLevelRepository u} (h : r.Extends r') {k : RepoCall}
    (hr : k.Ready r) : k.Ready r' := by
  cases k with
  | upsertStock item =>
    obtain ⟨h0, ref, e, he, hw, hs⟩ := hr
    obtain ⟨e', he', hw', hs'⟩ := h.stock ref e he
    exact ⟨h0, ref, e', he', hw'.trans hw, hs'.trans hs⟩
  | upsertStockFound item existing => exact hr
  | reserveStock a => exact hr
  | reserveStockFound a stock =>
    refine ⟨hr.1, fun ref href => ?_⟩
    obtain ⟨e, he, hw, hs⟩ := hr.2 ref href
    obtain ⟨e', he', hw', hs'⟩ := h.stock ref e he
    exact ⟨e', he', hw'.trans hw, hs'.trans hs⟩
  | releaseReservation id => trivial
  | releaseReservationFound id stock =>
    obtain ⟨s, ref, e, hs, rfl, he, hw, hk⟩ := hr
    obtain ⟨s', hs', hws', hks'⟩ := h.reservations id s hs
    obtain ⟨e', he', hw', hk'⟩ := h.stock ref e he
    exact ⟨s', ref, e', hs', rfl, he', hw'.trans (hw.trans hws'.symm),
      hk'.trans (hk.trans hks'.symm)⟩

/-- The heap after the segment of `k`. -/
abbrev segHeap (r : StockLevelRepository u) (k : RepoCall) : StockLevelRepository u :=
  ((repositoryProgram u).run k () r).heap

theorem segHeap_reserveStockFound (r : StockLevelRepository u) (a : ReserveInput)
    (stock : Option String) :
    segHeap r (.reserveStockFound a stock) = (r.reserveStockFound a stock).1 := by
  simp only [segHeap, repositoryProgram]
  cases r.reserveStockFound a stock with
  | mk r' res => cases res <;> rfl

theorem segHeap_releaseReservation (r : StockLevelRepository u) (id : String) :
    segHeap r (.releaseReservation id) = r := by
  simp only [segHeap, repositoryProgram]
  cases r.releaseReservationCheck id <;> rfl

theorem extends_segHeap {r : StockLevelRepository u} {k : RepoCall} (hk : k.Ready r) :
    r.Extends (segHeap r k) := by
  cases k with
  | upsertStock item => exact .refl r
  | upsertStockFound item existing =>
    obtain ⟨ref, rfl⟩ := Option.isSome_iff_exists.mp hk.2
    exact r.extends_mutateStock (keepsPair_addOnHand _ _) ref
  | reserveStock a => exact .refl r
  | reserveStockFound a stock =>
    rw [segHeap_reserveStockFound]
    rcases reserveStockFound_cases r a stock with h | ⟨ref, e, -, -, -, h⟩ <;> rw [h]
    · exact .refl r
    · exact (r.extends_mutateStock (keepsPair_reserve a.qty r.now) ref).trans
        (extends_insertReservation _ _)
  | releaseReservation id => rw [segHeap_releaseReservation]; exact .refl r
  | releaseReservationFound id stock => exact r.extends_release id stock

/-- **Every segment keeps the balance**, a release when it is still held. -/
theorem balanced_segHeap {r : StockLevelRepository u} (h : r.Balanced) {k : RepoCall}
    (hk : k.Ready r) (ht : ∀ id stock, k = .releaseReservationFound id stock →
      r.StillHeld id stock) : (segHeap r k).Balanced := by
  cases k with
  | upsertStock item => exact h
  | upsertStockFound item existing =>
    obtain ⟨ref, rfl⟩ := Option.isSome_iff_exists.mp hk.2
    exact h.upsert hk.1 ref
  | reserveStock a => exact h
  | reserveStockFound a stock =>
    rw [segHeap_reserveStockFound]
    rcases reserveStockFound_cases r a stock with hc | ⟨ref, e, rfl, he, hle, hc⟩ <;> rw [hc]
    · exact h
    · obtain ⟨e', he', hw, hs⟩ := hk.2 ref rfl
      rw [he] at he'; cases he'
      exact h.reserve hk.1 he hw hs hle
  | releaseReservation id => rw [segHeap_releaseReservation]; exact h
  | releaseReservationFound id stock =>
    obtain ⟨s, ref, e, hs, rfl, he, hw, hsku⟩ := hk
    refine h.release hs he hw hsku ?_
    rcases ht id _ rfl with ⟨s', hs', hst⟩ | ⟨ref', href', e', he', h0⟩
    · rw [hs] at hs'; cases hs'; exact Or.inl hst
    · cases href'; rw [he] at he'; cases he'; exact Or.inr h0

theorem ready_waiting {r : StockLevelRepository u} (h : r.Balanced) {k : RepoCall}
    (hk : k.Ready r) : ∀ k' ∈ ((repositoryProgram u).run k () r).waiting,
      k'.Ready (segHeap r k) := by
  intro k' hk'
  cases k with
  | upsertStock item =>
    cases List.mem_singleton.mp hk'
    obtain ⟨h0, ref, e, he, hw, hs⟩ := hk
    exact ⟨h0, isSome_getStock he hw hs⟩
  | upsertStockFound item existing => cases hk'
  | reserveStock a =>
    cases List.mem_singleton.mp hk'
    exact ⟨hk, fun ref href => getStock_some href⟩
  | reserveStockFound a stock =>
    simp only [repositoryProgram] at hk'
    rcases reserveStockFound_cases r a stock with hc | ⟨ref, e, -, -, -, hc⟩ <;> rw [hc] at hk' <;>
      cases hk'
  | releaseReservation id =>
    rw [segHeap_releaseReservation]
    simp only [repositoryProgram] at hk'
    cases hc : r.releaseReservationCheck id with
    | none => rw [hc] at hk'; cases hk'
    | some stock =>
      rw [hc] at hk'
      cases List.mem_singleton.mp hk'
      obtain ⟨s, hs, rfl⟩ := releaseReservationCheck_some hc
      -- the record that backs the reservation is found by `getStock`
      obtain ⟨ref₀, e₀, he₀, hw₀, hs₀⟩ := h.backed id s hs
      obtain ⟨ref, hg⟩ := Option.isSome_iff_exists.mp (isSome_getStock he₀ hw₀ hs₀)
      obtain ⟨e, he, hw, hsku⟩ := getStock_some hg
      exact ⟨s, ref, e, hs, hg, he, hw, hsku⟩
  | releaseReservationFound id stock => cases hk'

/-! ## Runs -/

/-- The steps that a run is built from here: admitted, and timely when they continue a release. -/
def TimelyStep (c : RepoConfig u) (a : Act RepoCall Unit) : Prop := Admitted c a ∧ Timely c a

instance (c : RepoConfig u) (a : Act RepoCall Unit) : Decidable (TimelyStep c a) :=
  inferInstanceAs (Decidable (_ ∧ _))

theorem ready_of_admitted {c : RepoConfig u} {k : RepoCall} {i : Unit}
    (h : Admitted c (.call k i)) : k.Ready c.heap := by
  cases k with
  | upsertStock item =>
    obtain ⟨ref, href⟩ := Option.isSome_iff_exists.mp h.2
    exact ⟨h.1, ref, getStock_some href⟩
  | reserveStock a => exact h
  | releaseReservation id => trivial
  | upsertStockFound => exact h.elim
  | reserveStockFound => exact h.elim
  | releaseReservationFound => exact h.elim

theorem Timely.stillHeld {c : RepoConfig u} {a : Act RepoCall Unit} {id : String}
    {stock : Option String} {i : Unit} {rest : List RepoCall} (h : TimelyStep c a)
    (hr : Runs c a (.releaseReservationFound id stock) i rest) : c.heap.StillHeld id stock := by
  cases hr with
  | call => exact h.1.elim
  | resume i hn => exact h.2 _ hn

theorem reach_balanced {r₀ : StockLevelRepository u} (h₀ : r₀.Stocked) {c : RepoConfig u}
    (h : Reach (repositoryProgram u) TimelyStep ⟨r₀, [], []⟩ c) :
    c.heap.Balanced ∧ ∀ k ∈ c.inFlight, k.Ready c.heap := by
  refine Reach.local_invariant (H := Balanced) (Q := fun k r => k.Ready r) h₀.balanced
    (fun k hk => absurd hk List.not_mem_nil) (fun c k i hok _ => ready_of_admitted hok.1) ?_ ?_ h
  · intro c a k i rest hok hr hb hk
    refine ⟨balanced_segHeap hb hk fun id stock hrel => ?_, ready_waiting hb hk⟩
    subst hrel
    exact Timely.stillHeld hok hr
  · intro c a k i rest _ _ _ hk k' _ hk'
    exact hk'.mono (extends_segHeap hk)

theorem StockLevelRepository.Balanced.not_noOversell {r : StockLevelRepository u} (h : r.Balanced)
    {id : String} {stock : Option String} (hk : (RepoCall.releaseReservationFound id stock).Ready r)
    (hn : ¬ r.StillHeld id stock) : ¬ (r.releaseReservationFound id stock).NoOversell := by
  obtain ⟨s, ref, e, hs, rfl, he, hw, hsku⟩ := hk
  have hst : s.status ≠ .ACTIVE := fun hst => hn (Or.inl ⟨s, hs, hst⟩)
  have h0 : e.quantityReserved ≠ 0 := fun h0 => hn (Or.inr ⟨ref, rfl, e, he, h0⟩)
  have hpos := h.positive id s hs
  have hact := h.active ref e he
  have hnn : 0 ≤ r.activeQty e.warehouseId e.sku := h.reconciled.activeQty_nonneg _ _
  -- the record after the release
  have hget : (r.releaseReservationFound id (some ref)).stock.get ref =
      some (e.release s.reservedQty r.now) := by
    rw [releaseReservationFound_eq hs]
    exact (mutateStock_get he ref _).trans (by rw [if_pos rfl])
  have hpair : (r.releaseReservationFound id (some ref)).OnePerPair := by
    rw [releaseReservationFound_eq hs]
    exact h.pairs.mutateStock (keepsPair_release _ _) ref
  have hrec : (r.releaseReservationFound id (some ref)).recordOf e.warehouseId e.sku =
      some (e.release s.reservedQty r.now) := recordOf_eq hpair hget
  intro hno
  have := hno e.warehouseId e.sku
  rw [hrec] at this
  have heq : (r.releaseReservationFound id (some ref)).activeQty e.warehouseId e.sku =
      max 0 (e.quantityReserved - s.reservedQty) := this.1
  rw [activeQty_release hs, StockReservationEntity.activeFor, if_neg fun hc => hst hc.1, hact]
    at heq
  omega

/-- **No oversell.** From a repository of stock records, in every run whose releases are still
held when they continue, every state has, for each pair, ACTIVE reservations that add up to the
`quantityReserved` of its record and are at most its `quantityOnHand`. The condition cannot be
weakened: an admitted step that violates it leads to a state that violates this. -/
theorem noOversell_of_timely (r₀ : StockLevelRepository u) (h₀ : r₀.Stocked) :
    (∀ c, Reach (repositoryProgram u) TimelyStep ⟨r₀, [], []⟩ c → c.heap.NoOversell) ∧
      ∀ c a c', Reach (repositoryProgram u) TimelyStep ⟨r₀, [], []⟩ c → Admitted c a →
        ¬ Timely c a → (repositoryProgram u).step c a = some c' → ¬ c'.heap.NoOversell := by
  refine ⟨fun c h => (reach_balanced h₀ h).1.noOversell, fun c a c' h hadm hnt hs => ?_⟩
  obtain ⟨hb, hready⟩ := reach_balanced h₀ h
  cases a with
  | call k i => exact absurd trivial hnt
  | resume n i =>
    obtain ⟨k, hk, rfl⟩ := Option.map_eq_some_iff.mp hs
    have hheld : ¬ k.Held c.heap := fun hh => hnt fun k' hk' => by
      rw [hk] at hk'; cases hk'; exact hh
    have hkr := hready k (List.mem_of_getElem? hk)
    cases k with
    | releaseReservationFound id stock => exact hb.not_noOversell hkr hheld
    | _ => exact absurd trivial hheld

/-! ## Two overlapping releases of one reservation -/

section DoubleRelease

/-- Ten units of one sku in one warehouse. -/
def shelf : StockLevelRepository .unary :=
  ((new .unary).upsertStock
    { tenantId := "T-1", warehouseId := "WH-1", binLocationId := "BIN-1", sku := "SKU-1"
      quantityOnHand := 10, quantityReserved := 0 }).1

/-- An order of five units. -/
def orderOfFive (orderId : String) : ReserveInput :=
  { orderId := orderId, warehouseId := "WH-1", sku := "SKU-1", qty := 5, tenantId := "T-1" }

/-- Reserve twice, then release the first reservation (`idx`) by two overlapping calls. -/
def doubleRelease : List (Act RepoCall Unit) :=
  [.call (.reserveStock (orderOfFive "O-1")) (), .resume 0 (),
    .call (.reserveStock (orderOfFive "O-2")) (), .resume 0 (),
    .call (.releaseReservation "idx") (), .call (.releaseReservation "idx") (),
    .resume 0 (), .resume 0 ()]

theorem shelf_stocked : shelf.Stocked := (stocked_new _).upsertStock (by decide) rfl

/-- **Two overlapping releases of one reservation lose the other reservation**: every call has
settled, five units are ACTIVE and none is reserved. -/
theorem oversell_of_double_release : shelf.Stocked ∧
    ∃ c, Reach (repositoryProgram .unary) Admitted ⟨shelf, [], []⟩ c ∧
      c.inFlight = [] ∧ ¬ c.heap.NoOversell := by
  have hrun : ((repositoryProgram .unary).exec Admitted ⟨shelf, [], []⟩ doubleRelease).any
      fun c => decide (c.inFlight = [] ∧ ∃ e ∈ c.heap.recordOf "WH-1" "SKU-1",
        c.heap.activeQty "WH-1" "SKU-1" ≠ e.quantityReserved) := by decide
  obtain ⟨c, hc, hq, e, he, hne⟩ := Reach.exists_of_exec hrun
  refine ⟨shelf_stocked, ?_⟩
  refine ⟨c, hc, hq, fun hno => hne ?_⟩
  have := hno "WH-1" "SKU-1"
  rw [Option.mem_def.mp he] at this
  exact this.1

/-- A timely run on `shelf`: the second release starts after the first one is over. -/
theorem noOversell_shelf : ∃ c, Reach (repositoryProgram .unary) TimelyStep ⟨shelf, [], []⟩ c ∧
    c.settled.length = 4 ∧ c.heap.NoOversell := by
  have hrun : ((repositoryProgram .unary).exec TimelyStep ⟨shelf, [], []⟩
      [.call (.reserveStock (orderOfFive "O-1")) (), .resume 0 (),
        .call (.reserveStock (orderOfFive "O-2")) (), .resume 0 (),
        .call (.releaseReservation "idx") (), .resume 0 (),
        .call (.releaseReservation "idx") ()]).any fun c => decide (c.settled.length = 4) := by
    decide
  obtain ⟨c, hc, hl⟩ := Reach.exists_of_exec hrun
  exact ⟨c, hc, hl, (noOversell_of_timely shelf shelf_stocked).1 c hc⟩

end DoubleRelease

end Logix.Inventory
