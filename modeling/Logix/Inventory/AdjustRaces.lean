import Logix.Inventory.Adjust
import Logix.Inventory.Oversell

/-!
# Interleaved adjustments

`adjustStock` looks the record of its pair up, and decides after an await whether it adds to that
record or stores a new one.

* `adjustProgram`: the calls, cut at their awaits;
* `Unraced`: an adjustment that has found no record stores its own one while there is still none;
* `Posts`: the invariant, on the stock and the adjustments that have reached it;
* **`no_lost_adjustment_of_unraced`**: unraced runs lose no adjustment, and the others do;
* `lost_first_adjustment`: two first adjustments of one pair.
-/

namespace Logix.Inventory

open Async StockLevelRepository

variable {u : Surroundings}

/-- The segments of `adjustStock`. -/
inductive AdjustCall where
  | adjustStock (dto : AdjustStockDTO)
  /-- `upsertStock` after `getStock`. -/
  | adjustStockFound (dto : AdjustStockDTO) (existing : Option String)
  /-- `adjustStock` after `upsertStock`. -/
  | adjustStockUpserted (dto : AdjustStockDTO) (stock : String)
  /-- `adjustStock` after `recordMovement`. -/
  | adjustStockRecorded (dto : AdjustStockDTO) (stock : String)
  deriving DecidableEq

/-- A call that has resolved, with the reference that it returned. -/
structure AdjustOutcome where
  dto : AdjustStockDTO
  stock : String
  deriving DecidableEq

/-- **`adjustStock`, cut at its awaits.** -/
def adjustProgram (u : Surroundings) :
    Program (StockLevelRepository u) AdjustCall Unit AdjustOutcome where
  run k _ r :=
    match k with
    | .adjustStock dto =>
      { heap := r, waiting := [.adjustStockFound dto (r.getStock dto.warehouseId dto.sku)] }
    | .adjustStockFound dto existing =>
      let (r', stock) := r.upsertStockFound dto.item existing
      { heap := r', waiting := [.adjustStockUpserted dto stock] }
    | .adjustStockUpserted dto stock =>
      { heap := r.recordMovement dto.movement, waiting := [.adjustStockRecorded dto stock] }
    | .adjustStockRecorded dto stock => { heap := r, settled := [⟨dto, stock⟩] }

abbrev AdjustConfig (u : Surroundings) : Type :=
  Config (StockLevelRepository u) AdjustCall AdjustOutcome

/-- A run starts calls of `adjustStock`. -/
def StartsAdjust (_ : AdjustConfig u) : Act AdjustCall Unit → Prop
  | .call (.adjustStock _) _ => True
  | .call _ _ => False
  | .resume _ _ => True

/-- There is still no record of the pair, if the call has found none. -/
def AdjustCall.Unraced (r : StockLevelRepository u) : AdjustCall → Prop
  | .adjustStockFound dto none => r.getStock dto.warehouseId dto.sku = none
  | _ => True

/-- The call that continues is unraced. -/
def Unraced (c : AdjustConfig u) : Act AdjustCall Unit → Prop
  | .call _ _ => True
  | .resume n _ => ∀ k ∈ c.inFlight[n]?, k.Unraced c.heap

instance : ∀ (c : AdjustConfig u) (a : Act AdjustCall Unit), Decidable (StartsAdjust c a)
  | _, .call (.adjustStock _) _ => .isTrue trivial
  | _, .call (.adjustStockFound _ _) _ => .isFalse id
  | _, .call (.adjustStockUpserted _ _) _ => .isFalse id
  | _, .call (.adjustStockRecorded _ _) _ => .isFalse id
  | _, .resume _ _ => .isTrue trivial

instance (r : StockLevelRepository u) : DecidablePred (AdjustCall.Unraced r)
  | .adjustStockFound _ none => inferInstanceAs (Decidable (_ = _))
  | .adjustStockFound _ (some _) => .isTrue trivial
  | .adjustStock _ | .adjustStockUpserted _ _ | .adjustStockRecorded _ _ => .isTrue trivial

instance : ∀ (c : AdjustConfig u) (a : Act AdjustCall Unit), Decidable (Unraced c a)
  | _, .call _ _ => .isTrue trivial
  | _, .resume _ _ => inferInstanceAs (Decidable (∀ k ∈ _, AdjustCall.Unraced _ k))

/-- The steps of an unraced run. -/
def UnracedStep (c : AdjustConfig u) (a : Act AdjustCall Unit) : Prop :=
  StartsAdjust c a ∧ Unraced c a

instance (c : AdjustConfig u) (a : Act AdjustCall Unit) : Decidable (UnracedStep c a) :=
  inferInstanceAs (Decidable (_ ∧ _))

/-- **No adjustment is lost**: each pair that was adjusted has exactly one record, and the one that
`getStock` returns has the sum of the adjustments on hand. -/
def NoLostAdjustment (c : AdjustConfig u) : Prop :=
  ∀ o ∈ c.settled,
    (∃! ref, ∃ e, c.heap.stock.get ref = some e ∧
      e.warehouseId = o.dto.warehouseId ∧ e.sku = o.dto.sku) ∧
    ∃ e, c.heap.recordOf o.dto.warehouseId o.dto.sku = some e ∧ e.quantityOnHand =
      postedQty (c.settled.map fun o => o.dto.posting) o.dto.warehouseId o.dto.sku

/-! ## The adjustments that have reached the stock -/

/-- The adjustment that a suspended call has made. -/
def AdjustCall.applied : AdjustCall → Option AdjustStockDTO
  | .adjustStock _ | .adjustStockFound _ _ => none
  | .adjustStockUpserted dto _ | .adjustStockRecorded dto _ => some dto

/-- The adjustments that have reached the stock. -/
def applied (c : AdjustConfig u) : List AdjustStockDTO :=
  c.inFlight.filterMap AdjustCall.applied ++ c.settled.map AdjustOutcome.dto

/-- The record that a suspended call has found is one of its pair. -/
def AdjustCall.Found (r : StockLevelRepository u) : AdjustCall → Prop
  | .adjustStockFound dto (some ref) => ∃ e, r.stock.get ref = some e ∧
      e.warehouseId = dto.warehouseId ∧ e.sku = dto.sku
  | _ => True

/-- **The invariant**, on the stock and the calls. -/
structure Posts (c : AdjustConfig u) : Prop where
  posted : c.heap.Posted ((applied c).map AdjustStockDTO.posting)
  found : ∀ k ∈ c.inFlight, k.Found c.heap

section Segments

variable {c : AdjustConfig u} {a : Act AdjustCall Unit} {k : AdjustCall} {i : Unit}
  {rest : List AdjustCall}

/-- The heap after the segment of `k`. -/
abbrev adjustHeap (r : StockLevelRepository u) (k : AdjustCall) : StockLevelRepository u :=
  ((adjustProgram u).run k () r).heap

theorem StockLevelRepository.extends_insertStock (r : StockLevelRepository u)
    (entity : String → StockLevelEntity) : r.Extends (r.insertStock entity) where
  stock _ e he := ⟨e, insertStock_get he entity, rfl, rfl⟩
  reservations _ s hs := ⟨s, hs, rfl, rfl⟩

theorem extends_adjustHeap (r : StockLevelRepository u) (k : AdjustCall) :
    r.Extends (adjustHeap r k) := by
  cases k with
  | adjustStock dto => exact .refl r
  | adjustStockFound dto existing =>
    cases existing with
    | none => exact r.extends_insertStock (newRecord dto r.now)
    | some ref => exact r.extends_mutateStock (keepsPair_addOnHand _ _) ref
  | adjustStockUpserted dto stock =>
    exact ⟨fun _ e he => ⟨e, he, rfl, rfl⟩, fun _ s hs => ⟨s, hs, rfl, rfl⟩⟩
  | adjustStockRecorded dto stock => exact .refl r

theorem AdjustCall.Found.mono {r r' : StockLevelRepository u} (h : r.Extends r')
    (hk : k.Found r) : k.Found r' := by
  match k with
  | .adjustStockFound dto (some ref) =>
    obtain ⟨e, he, hw, hs⟩ := hk
    obtain ⟨e', he', hw', hs'⟩ := h.stock ref e he
    exact ⟨e', he', hw'.trans hw, hs'.trans hs⟩
  | .adjustStockFound _ none | .adjustStock _ | .adjustStockUpserted _ _
  | .adjustStockRecorded _ _ => trivial

theorem applied_of_starts (hok : StartsAdjust c a) (hr : Runs c a k i rest) :
    a = .call k i → k.applied = none := by
  rintro rfl
  cases k with
  | adjustStock dto => rfl
  | adjustStockFound => exact hok.elim
  | adjustStockUpserted => exact hok.elim
  | adjustStockRecorded => exact hok.elim

theorem applied_perm (hok : StartsAdjust c a) (hr : Runs c a k i rest) :
    (applied c).Perm (k.applied.toList ++
      (rest.filterMap AdjustCall.applied ++ c.settled.map AdjustOutcome.dto)) := by
  rw [applied, ← List.append_assoc]
  refine List.Perm.append_right _ ?_
  rcases hr.call_or_perm with ⟨hcall, rfl⟩ | hperm
  · rw [applied_of_starts hok hr hcall]
    exact .refl _
  · refine (hperm.symm.filterMap _).trans ?_
    cases hk : k.applied with
    | none => rw [List.filterMap_cons_none hk]; exact .refl _
    | some dto => rw [List.filterMap_cons_some hk]; exact .refl _

theorem applied_after (c : AdjustConfig u)
    (s : Segment (StockLevelRepository u) AdjustCall AdjustOutcome) (rest : List AdjustCall) :
    (applied (c.after s rest)).Perm
      ((s.waiting.filterMap AdjustCall.applied ++ s.settled.map AdjustOutcome.dto) ++
        (rest.filterMap AdjustCall.applied ++ c.settled.map AdjustOutcome.dto)) := by
  refine List.perm_iff_count.mpr fun dto => ?_
  simp only [applied, Config.after, List.filterMap_append, List.map_append, List.count_append]
  omega

theorem applied_same (hok : StartsAdjust c a) (hr : Runs c a k i rest)
    (hk : ((adjustProgram u).run k i c.heap).waiting.filterMap AdjustCall.applied ++
      ((adjustProgram u).run k i c.heap).settled.map AdjustOutcome.dto = k.applied.toList) :
    (applied c).Perm (applied (c.after ((adjustProgram u).run k i c.heap) rest)) := by
  refine (applied_perm hok hr).trans ?_
  rw [← hk]
  exact (applied_after c _ rest).symm

theorem applied_found {dto : AdjustStockDTO} {existing : Option String}
    (hok : StartsAdjust c a) (hr : Runs c a (.adjustStockFound dto existing) i rest) :
    (applied c ++ [dto]).Perm
      (applied (c.after ((adjustProgram u).run (.adjustStockFound dto existing) i c.heap) rest)) := by
  refine (List.perm_append_comm.trans ?_).trans (applied_after c _ rest).symm
  exact (applied_perm hok hr).append_left [dto]

theorem unraced_of_step (hok : UnracedStep c a) (hr : Runs c a k i rest) : k.Unraced c.heap := by
  cases hr with
  | call k i =>
    cases k with
    | adjustStock dto => trivial
    | adjustStockFound => exact hok.1.elim
    | adjustStockUpserted => trivial
    | adjustStockRecorded => trivial
  | resume i hn => exact hok.2 k hn

theorem found_of_step (h : Posts c) (hok : StartsAdjust c a) (hr : Runs c a k i rest) :
    k.Found c.heap := by
  rcases hr.call_or_mem with rfl | hk
  · cases k with
    | adjustStock dto => trivial
    | adjustStockFound => exact hok.elim
    | adjustStockUpserted => trivial
    | adjustStockRecorded => trivial
  · exact h.found k hk

theorem found_waiting (r : StockLevelRepository u) (k : AdjustCall) :
    ∀ k' ∈ ((adjustProgram u).run k () r).waiting, k'.Found (adjustHeap r k) := by
  intro k' hk'
  cases k with
  | adjustStock dto =>
    obtain rfl := List.mem_singleton.mp hk'
    change AdjustCall.Found r (.adjustStockFound dto (r.getStock dto.warehouseId dto.sku))
    cases hg : r.getStock dto.warehouseId dto.sku with
    | none => trivial
    | some ref => exact getStock_some hg
  | adjustStockFound dto existing =>
    obtain rfl := List.mem_singleton.mp hk'
    trivial
  | adjustStockUpserted dto stock =>
    obtain rfl := List.mem_singleton.mp hk'
    trivial
  | adjustStockRecorded dto stock => exact absurd hk' List.not_mem_nil

theorem posted_next (h : Posts c) (hok : UnracedStep c a) (hr : Runs c a k i rest) :
    (adjustHeap c.heap k).Posted
      ((applied (c.after ((adjustProgram u).run k i c.heap) rest)).map AdjustStockDTO.posting) := by
  cases k with
  | adjustStock dto => exact h.posted.perm ((applied_same hok.1 hr rfl).map _)
  | adjustStockFound dto existing =>
    have hpost : (adjustHeap c.heap (.adjustStockFound dto existing)).Posted
        ((applied c).map AdjustStockDTO.posting ++ [dto.posting]) := by
      cases existing with
      | none => exact h.posted.newRecord (unraced_of_step hok hr)
      | some ref =>
        obtain ⟨e, he, hw, hs⟩ := found_of_step h hok.1 hr
        exact h.posted.addOnHand he hw hs
    refine hpost.perm ?_
    rw [← List.map_singleton (f := AdjustStockDTO.posting), ← List.map_append]
    exact (applied_found hok.1 hr).map _
  | adjustStockUpserted dto stock =>
    have hpost := h.posted.perm ((applied_same hok.1 hr rfl).map AdjustStockDTO.posting)
    exact ⟨hpost.pairs, hpost.onHand, hpost.recorded⟩
  | adjustStockRecorded dto stock => exact h.posted.perm ((applied_same hok.1 hr rfl).map _)

theorem Posts.next (h : Posts c) (hok : UnracedStep c a) (hr : Runs c a k i rest) :
    Posts (c.after ((adjustProgram u).run k i c.heap) rest) where
  posted := posted_next h hok hr
  found k' hk' := by
    rcases List.mem_append.mp hk' with hk' | hk'
    · exact (h.found k' (hr.mem_rest hk')).mono (extends_adjustHeap c.heap k)
    · exact found_waiting c.heap k k' hk'

end Segments

/-! ## Runs -/

/-- The start: an empty repository and no call. -/
def emptyStock (u : Surroundings) : AdjustConfig u := ⟨new u, [], []⟩

theorem posts_of_reach {c : AdjustConfig u}
    (h : Reach (adjustProgram u) UnracedStep (emptyStock u) c) : Posts c :=
  h.invariant (I := Posts) ⟨posted_new u, fun _ hk => absurd hk List.not_mem_nil⟩
    fun _ _ _ _ _ hI hok hr => hI.next hok hr

theorem applied_of_settled {c : AdjustConfig u} (hdone : c.inFlight = []) :
    (applied c).map AdjustStockDTO.posting = c.settled.map fun o => o.dto.posting := by
  rw [applied, hdone, List.filterMap_nil, List.nil_append, List.map_map]
  rfl

theorem Posts.noLostAdjustment {c : AdjustConfig u} (h : Posts c) (hdone : c.inFlight = []) :
    NoLostAdjustment c := by
  intro o ho
  have hposted := h.posted
  rw [applied_of_settled hdone] at hposted
  obtain ⟨k, e, he, hw, hs⟩ := hposted.recorded o.dto.posting (List.mem_map_of_mem ho)
  refine ⟨⟨k, ⟨e, he, hw, hs⟩, fun k' ⟨e', he', hw', hs'⟩ => ?_⟩, e, ?_, ?_⟩
  · exact hposted.pairs k' e' k e he' he (hw'.trans hw.symm) (hs'.trans hs.symm)
  · change e.warehouseId = o.dto.warehouseId at hw
    change e.sku = o.dto.sku at hs
    rw [← hw, ← hs]
    exact recordOf_eq hposted.pairs he
  · change e.warehouseId = o.dto.warehouseId at hw
    change e.sku = o.dto.sku at hs
    rw [← hw, ← hs]
    exact hposted.onHand k e he

/-! ## A race -/

/-- The pair of an adjustment has two records. -/
def Doubled (dto : AdjustStockDTO) (r : StockLevelRepository u) : Prop :=
  ∃ k k' e e', k ≠ k' ∧ r.stock.get k = some e ∧ r.stock.get k' = some e' ∧
    (e.warehouseId = dto.warehouseId ∧ e.sku = dto.sku) ∧
    e'.warehouseId = dto.warehouseId ∧ e'.sku = dto.sku

section Race

variable {c d : AdjustConfig u} {dto : AdjustStockDTO}

theorem Doubled.mono {r r' : StockLevelRepository u} (h : Doubled dto r) (hr : r.Extends r') :
    Doubled dto r' := by
  obtain ⟨k, k', e, e', hne, he, he', ⟨hw, hs⟩, hw', hs'⟩ := h
  obtain ⟨e₁, he₁, hw₁, hs₁⟩ := hr.stock k e he
  obtain ⟨e₂, he₂, hw₂, hs₂⟩ := hr.stock k' e' he'
  exact ⟨k, k', e₁, e₂, hne, he₁, he₂, ⟨hw₁.trans hw, hs₁.trans hs⟩, hw₂.trans hw', hs₂.trans hs'⟩

theorem doubled_of_race {r : StockLevelRepository u} {ref : String}
    (hg : r.getStock dto.warehouseId dto.sku = some ref) :
    Doubled dto (adjustHeap r (.adjustStockFound dto none)) := by
  obtain ⟨e, he, hpair⟩ := getStock_some hg
  have hne : ref ≠ u.draw r.draws := fun hk =>
    r.stock_issued.fresh le_rfl (hk ▸ JsMap.mem_keys_of_get he)
  exact ⟨ref, _, e, _, hne, insertStock_get he (newRecord dto r.now), JsMap.get_set_self _ _ _,
    hpair, rfl, rfl⟩

theorem mem_applied_after {a : Act AdjustCall Unit} {k : AdjustCall} {i : Unit}
    {rest : List AdjustCall} (h : dto ∈ applied c) (hok : StartsAdjust c a)
    (hr : Runs c a k i rest) : dto ∈ applied (c.after ((adjustProgram u).run k i c.heap) rest) := by
  cases k with
  | adjustStock dto' => exact (applied_same hok hr rfl).subset h
  | adjustStockFound dto' existing =>
    exact (applied_found hok hr).subset (List.mem_append_left _ h)
  | adjustStockUpserted dto' stock => exact (applied_same hok hr rfl).subset h
  | adjustStockRecorded dto' stock => exact (applied_same hok hr rfl).subset h

theorem doubled_of_reach (h : Reach (adjustProgram u) StartsAdjust c d)
    (hc : Doubled dto c.heap ∧ dto ∈ applied c) : Doubled dto d.heap ∧ dto ∈ applied d :=
  h.invariant (I := fun c => Doubled dto c.heap ∧ dto ∈ applied c) hc
    fun c _ k _ _ hI hok hr =>
      ⟨hI.1.mono (extends_adjustHeap c.heap k), mem_applied_after hI.2 hok hr⟩

theorem Doubled.not_noLostAdjustment (h : Doubled dto d.heap) (hdto : dto ∈ applied d)
    (hdone : d.inFlight = []) : ¬ NoLostAdjustment d := by
  intro hno
  rw [applied, hdone, List.filterMap_nil, List.nil_append] at hdto
  obtain ⟨o, ho, rfl⟩ := List.mem_map.mp hdto
  obtain ⟨k, k', e, e', hne, he, he', hpair, hpair'⟩ := h
  exact hne ((hno o ho).1.unique ⟨e, he, hpair⟩ ⟨e', he', hpair'⟩)

end Race

/-- **No adjustment is lost in an unraced run**, once all its calls have resolved. The condition
cannot be weakened: after a step that violates it, adjustments are lost whatever the calls do. -/
theorem no_lost_adjustment_of_unraced (u : Surroundings) :
    (∀ c, Reach (adjustProgram u) UnracedStep (emptyStock u) c → c.inFlight = [] →
      NoLostAdjustment c) ∧
    ∀ c a c' d, ¬ Unraced c a → (adjustProgram u).step c a = some c' →
      Reach (adjustProgram u) StartsAdjust c' d → d.inFlight = [] → ¬ NoLostAdjustment d := by
  refine ⟨fun c h => (posts_of_reach h).noLostAdjustment, fun c a c' d hraced hs h hdone => ?_⟩
  cases a with
  | call k i => exact absurd trivial hraced
  | resume n i =>
    obtain ⟨k, hk, rfl⟩ := Option.map_eq_some_iff.mp hs
    have hk' : ¬ k.Unraced c.heap := fun hu => hraced fun k' hk' => by
      rw [hk] at hk'; cases hk'; exact hu
    match k with
    | .adjustStockFound dto none =>
      obtain ⟨ref, hg⟩ := Option.ne_none_iff_exists'.mp hk'
      have hdto : dto ∈ applied (c.after
          ((adjustProgram u).run (.adjustStockFound dto none) i c.heap) (c.inFlight.eraseIdx n)) :=
        (applied_after c _ _).mem_iff.mpr (List.mem_append_left _ (List.mem_singleton.mpr rfl))
      obtain ⟨hd, hdto'⟩ := doubled_of_reach h ⟨doubled_of_race hg, hdto⟩
      exact hd.not_noLostAdjustment hdto' hdone
    | .adjustStockFound _ (some _) | .adjustStock _ | .adjustStockUpserted _ _
    | .adjustStockRecorded _ _ => exact absurd trivial hk'

section TwoReceipts

/-- A receipt of `delta` units of one sku. -/
def receipt (delta : ℤ) : AdjustStockDTO :=
  ⟨"T-1", "WH-1", "BIN-1", "SKU-1", .INBOUND_RECEIPT, delta, none, "U-1", none, three_le_sku⟩

/-- The second receipt starts when the first one has stored the record. -/
theorem no_lost_adjustment_in_turn :
    ∃ c, Reach (adjustProgram .unary) UnracedStep (emptyStock .unary) c ∧
      (c.inFlight = [] ∧ c.settled.length = 2) ∧ NoLostAdjustment c := by
  have hrun : ((adjustProgram .unary).exec UnracedStep (emptyStock .unary)
      [.call (.adjustStock (receipt 5)) (), .resume 0 (), .call (.adjustStock (receipt 3)) (),
        .resume 0 (), .resume 0 (), .resume 0 (), .resume 0 (), .resume 0 ()]).any fun c =>
          decide (c.inFlight = [] ∧ c.settled.length = 2) := by decide
  obtain ⟨c, hc, hdone, hlen⟩ := Reach.exists_of_exec hrun
  exact ⟨c, hc, ⟨hdone, hlen⟩, (no_lost_adjustment_of_unraced .unary).1 c hc hdone⟩

/-- **Two first receipts of one pair**: both find no record, and the units of the second one do not
show in the record that `getStock` returns. -/
theorem lost_first_adjustment :
    ¬ ∀ c, Reach (adjustProgram .unary) StartsAdjust (emptyStock .unary) c → c.inFlight = [] →
      NoLostAdjustment c := by
  have hrun : ((adjustProgram .unary).exec StartsAdjust (emptyStock .unary)
      [.call (.adjustStock (receipt 5)) (), .call (.adjustStock (receipt 3)) (), .resume 0 (),
        .resume 0 (), .resume 0 (), .resume 0 (), .resume 0 (), .resume 0 ()]).any fun c =>
          decide (c.inFlight = [] ∧ ∃ o ∈ c.settled,
            ∀ e ∈ c.heap.recordOf o.dto.warehouseId o.dto.sku, e.quantityOnHand ≠
              postedQty (c.settled.map fun o => o.dto.posting) o.dto.warehouseId o.dto.sku) := by
    decide
  obtain ⟨c, hc, hdone, o, ho, hne⟩ := Reach.exists_of_exec hrun
  intro hno
  obtain ⟨-, e, he, hq⟩ := hno c hc hdone o ho
  exact hne e he hq

end TwoReceipts

end Logix.Inventory
