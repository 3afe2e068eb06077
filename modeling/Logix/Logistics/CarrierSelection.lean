import Logix.Js.Groups
import Logix.Js.Map
import Logix.Js.Number
import Logix.Spec.LastWrite
import Mathlib.Order.WithBot

/-!
# Which carrier gets the freight?

Carriers offer contracts, one for each carrier code. A request goes to the contract with the highest
score among those that support it, where a score rewards punctuality and charges for the cost.

* `DynamicCarrierSelectionEngine.selectOptimalCarrier`: the code;
* `inForce`: the contracts of a run of registrations: the last one under each code;
* `foldl_considerCarrier`: the loop keeps the first carrier with the highest score;
* `Selects`: what a selection is; `Undominated`: no offer is as cheap and more punctual;
* **`selectOptimalCarrier_spec`**: this holds after every run of registrations; a request fails only
  if no contract in force supports it, and with speed before cost the carrier is at least as
  punctual, and costs at least as much.
-/

namespace Logix.Logistics

open Spec

/-- `ICarrierContract`. -/
structure ICarrierContract where
  carrierCode : String
  carrierName : String
  baseRatePerMileUSD : ℚ
  minimumFreightChargeUSD : ℚ
  fuelSurchargeIndexPct : ℚ
  historicalOnTimeDeliveryPct : ℚ
  supportsColdChain : Bool
  supportsHazmat : Bool
  deriving DecidableEq, Repr

/-- What `selectOptimalCarrier` returns. -/
structure CarrierSelection where
  selectedCarrier : ICarrierContract
  totalEstimatedCostUSD : ℚ
  score : ℚ
  deriving DecidableEq, Repr

/-- **`DynamicCarrierSelectionEngine`.** -/
structure DynamicCarrierSelectionEngine where
  carrierContracts : JsMap String ICarrierContract

namespace DynamicCarrierSelectionEngine

/-! ## The code -/

/-- **`registerContract(contract)`.** -/
def registerContract (s : DynamicCarrierSelectionEngine) (contract : ICarrierContract) :
    DynamicCarrierSelectionEngine :=
  ⟨s.carrierContracts.set contract.carrierCode contract⟩

/-- The contracts that the constructor registers. -/
def seeds : List ICarrierContract :=
  [{ carrierCode := "FEDEX_FREIGHT"
     carrierName := "FedEx Freight Priority"
     baseRatePerMileUSD := 320 / 100
     minimumFreightChargeUSD := 150
     fuelSurchargeIndexPct := 145 / 10
     historicalOnTimeDeliveryPct := 974 / 10
     supportsColdChain := true
     supportsHazmat := true },
   { carrierCode := "OLD_DOMINION"
     carrierName := "Old Dominion Freight Line"
     baseRatePerMileUSD := 285 / 100
     minimumFreightChargeUSD := 125
     fuelSurchargeIndexPct := 13
     historicalOnTimeDeliveryPct := 988 / 10
     supportsColdChain := false
     supportsHazmat := true },
   { carrierCode := "ESTES_EXPRESS"
     carrierName := "Estes Express Lines"
     baseRatePerMileUSD := 265 / 100
     minimumFreightChargeUSD := 110
     fuelSurchargeIndexPct := 125 / 10
     historicalOnTimeDeliveryPct := 942 / 10
     supportsColdChain := false
     supportsHazmat := false }]

/-- `new DynamicCarrierSelectionEngine()`. -/
def new : DynamicCarrierSelectionEngine := seeds.foldl registerContract ⟨.empty⟩

/-- The filter of the eligible carriers. -/
def isEligible (requiresColdChain requiresHazmat : Bool) (c : ICarrierContract) : Bool :=
  if requiresColdChain && !c.supportsColdChain then false
  else if requiresHazmat && !c.supportsHazmat then false
  else true

/-- `totalCost`. -/
def totalCost (distanceMiles : ℚ) (c : ICarrierContract) : ℚ :=
  let rawFreight := max c.minimumFreightChargeUSD (distanceMiles * c.baseRatePerMileUSD)
  let fuelFee := rawFreight * (c.fuelSurchargeIndexPct / 100)
  toFixed 2 (rawFreight + fuelFee)

/-- `score`. -/
def score (distanceMiles : ℚ) (prioritizeSpeedOverCost : Bool) (c : ICarrierContract) : ℚ :=
  let score := c.historicalOnTimeDeliveryPct * 2 - totalCost distanceMiles c / 20
  if prioritizeSpeedOverCost then score + c.historicalOnTimeDeliveryPct * (15 / 10) else score

/-- `bestCarrier`, `bestScore` and `bestCost`. -/
structure Best where
  bestCarrier : ICarrierContract
  bestScore : WithBot ℚ
  bestCost : ℚ

/-- One round of the loop. -/
def considerCarrier (distanceMiles : ℚ) (prioritizeSpeedOverCost : Bool) (best : Best)
    (c : ICarrierContract) : Best :=
  let totalCost := totalCost distanceMiles c
  let score := score distanceMiles prioritizeSpeedOverCost c
  if best.bestScore < score then ⟨c, score, totalCost⟩ else best

/-- **`selectOptimalCarrier`.** -/
def selectOptimalCarrier (s : DynamicCarrierSelectionEngine) (distanceMiles : ℚ)
    (requiresColdChain requiresHazmat prioritizeSpeedOverCost : Bool) :
    Except String CarrierSelection :=
  match s.carrierContracts.values.filter (isEligible requiresColdChain requiresHazmat) with
  | [] => .error "No eligible carriers match the requested freight constraints"
  | c :: eligible =>
    let best := (c :: eligible).foldl (considerCarrier distanceMiles prioritizeSpeedOverCost)
      ⟨c, ⊥, 0⟩
    .ok ⟨best.bestCarrier, best.bestCost, toFixed 2 (best.bestScore.unbotD 0)⟩

/-! ## The contracts in force -/

/-- The engine after a run of registrations. -/
def registered (contracts : List ICarrierContract) : DynamicCarrierSelectionEngine :=
  contracts.foldl registerContract new

/-- **The contracts in force**: the last one under each code, in the order in which the codes were
first registered. -/
def inForce (contracts : List ICarrierContract) : List ICarrierContract :=
  let all := seeds ++ contracts
  (distinct (all.map ICarrierContract.carrierCode)).filterMap
    (lastWrite (all.map fun c => (c.carrierCode, c)))

theorem values_eq_filterMap (m : JsMap String ICarrierContract) :
    m.values = m.keys.filterMap m.get := by
  rw [JsMap.values, JsMap.keys, List.filterMap_map, ← List.filterMap_eq_map]
  refine List.filterMap_congr fun e he => ?_
  exact (JsMap.get_eq_some_iff.mpr he).symm

theorem foldl_registerContract (contracts : List ICarrierContract) :
    (contracts.foldl registerContract ⟨.empty⟩).carrierContracts.keys =
        distinct (contracts.map ICarrierContract.carrierCode) ∧
      (contracts.foldl registerContract ⟨.empty⟩).carrierContracts.get =
        lastWrite (contracts.map fun c => (c.carrierCode, c)) := by
  induction contracts using List.reverseRecOn with
  | nil => exact ⟨rfl, rfl⟩
  | append_singleton contracts c ih =>
    obtain ⟨hkeys, hget⟩ := ih
    rw [List.foldl_append, List.map_append, List.map_append, List.map_singleton,
      List.map_singleton, distinct_concat, lastWrite_concat, ← hget]
    refine ⟨?_, funext fun code => (JsMap.get_set _ _ _ code).trans ?_⟩
    · have hmem : c.carrierCode ∈ contracts.map ICarrierContract.carrierCode ↔
          c.carrierCode ∈ (contracts.foldl registerContract ⟨.empty⟩).carrierContracts.keys := by
        rw [hkeys, mem_distinct]
      rw [← hkeys, List.foldl_cons, List.foldl_nil, registerContract]
      split_ifs with h
      · rw [JsMap.set_of_mem (hmem.mp h), JsMap.keys_modify]
      · rw [JsMap.keys, JsMap.entries_set_of_fresh (mt hmem.mpr h), List.map_append]
        rfl
    · rw [Function.update_apply]

theorem values_registered (contracts : List ICarrierContract) :
    (registered contracts).carrierContracts.values = inForce contracts := by
  obtain ⟨hkeys, hget⟩ := foldl_registerContract (seeds ++ contracts)
  rw [registered, new, ← List.foldl_append, values_eq_filterMap, hkeys, hget, inForce]

/-! ## The loop -/

variable (distanceMiles : ℚ) (prioritizeSpeedOverCost : Bool)

/-- **The loop keeps the first carrier with the highest score.** -/
theorem foldl_considerCarrier (c : ICarrierContract) (eligible : List ICarrierContract)
    (h : eligible ≠ []) : ∃ before best after, eligible = before ++ best :: after ∧
      eligible.foldl (considerCarrier distanceMiles prioritizeSpeedOverCost) ⟨c, ⊥, 0⟩ =
        ⟨best, score distanceMiles prioritizeSpeedOverCost best, totalCost distanceMiles best⟩ ∧
      (∀ c' ∈ before, score distanceMiles prioritizeSpeedOverCost c' <
        score distanceMiles prioritizeSpeedOverCost best) ∧
      ∀ c' ∈ after, score distanceMiles prioritizeSpeedOverCost c' ≤
        score distanceMiles prioritizeSpeedOverCost best := by
  induction eligible using List.reverseRecOn with
  | nil => exact absurd rfl h
  | append_singleton eligible last ih =>
    rw [List.foldl_append, List.foldl_cons, List.foldl_nil]
    by_cases hnil : eligible = []
    · subst hnil
      refine ⟨[], last, [], rfl, ?_, by simp, by simp⟩
      rw [List.foldl_nil, considerCarrier, if_pos (WithBot.bot_lt_coe _)]
    · obtain ⟨before, best, after, rfl, hfold, hbefore, hafter⟩ := ih hnil
      rw [hfold]
      by_cases hbetter : score distanceMiles prioritizeSpeedOverCost best <
          score distanceMiles prioritizeSpeedOverCost last
      · refine ⟨before ++ best :: after, last, [], rfl,
          if_pos (WithBot.coe_lt_coe.mpr hbetter), fun c' hc' => ?_, by simp⟩
        rcases List.mem_append.mp hc' with hc' | hc'
        · exact (hbefore c' hc').trans hbetter
        · rcases List.mem_cons.mp hc' with rfl | hc'
          · exact hbetter
          · exact (hafter c' hc').trans_lt hbetter
      · refine ⟨before, best, after ++ [last], by simp,
          if_neg (mt WithBot.coe_lt_coe.mp hbetter), hbefore, fun c' hc' => ?_⟩
        rcases List.mem_append.mp hc' with hc' | hc'
        · exact hafter c' hc'
        · rw [List.mem_singleton.mp hc']
          exact not_lt.mp hbetter

/-! ## The selection -/

/-- The contract supports what the request requires. -/
def Supports (requiresColdChain requiresHazmat : Bool) (c : ICarrierContract) : Prop :=
  (requiresColdChain = true → c.supportsColdChain = true) ∧
    (requiresHazmat = true → c.supportsHazmat = true)

theorem isEligible_iff {requiresColdChain requiresHazmat : Bool} {c : ICarrierContract} :
    isEligible requiresColdChain requiresHazmat c = true ↔
      Supports requiresColdChain requiresHazmat c := by
  rw [isEligible, Supports]
  cases requiresColdChain <;> cases requiresHazmat <;> cases c.supportsColdChain <;>
    cases c.supportsHazmat <;> decide

/-- **What is selected** among the offers that support the request. -/
structure Selects (offers : List ICarrierContract) (distanceMiles : ℚ)
    (prioritizeSpeedOverCost : Bool) (selection : CarrierSelection) : Prop where
  /-- The first offer with the highest score. -/
  first_best : ∃ before after, offers = before ++ selection.selectedCarrier :: after ∧
    (∀ c ∈ before, score distanceMiles prioritizeSpeedOverCost c <
      score distanceMiles prioritizeSpeedOverCost selection.selectedCarrier) ∧
    ∀ c ∈ after, score distanceMiles prioritizeSpeedOverCost c ≤
      score distanceMiles prioritizeSpeedOverCost selection.selectedCarrier
  cost : selection.totalEstimatedCostUSD = totalCost distanceMiles selection.selectedCarrier
  score : selection.score =
    toFixed 2 (score distanceMiles prioritizeSpeedOverCost selection.selectedCarrier)

/-- **No offer is as cheap and more punctual.** -/
def Undominated (offers : List ICarrierContract) (distanceMiles : ℚ)
    (selection : CarrierSelection) : Prop :=
  ∀ c ∈ offers, totalCost distanceMiles c ≤ selection.totalEstimatedCostUSD →
    c.historicalOnTimeDeliveryPct ≤ selection.selectedCarrier.historicalOnTimeDeliveryPct

variable {distanceMiles prioritizeSpeedOverCost} {offers : List ICarrierContract}
  {selection cheap fast : CarrierSelection}

theorem Selects.score_le (h : Selects offers distanceMiles prioritizeSpeedOverCost selection)
    {c : ICarrierContract} (hc : c ∈ offers) : DynamicCarrierSelectionEngine.score distanceMiles
      prioritizeSpeedOverCost c ≤ DynamicCarrierSelectionEngine.score distanceMiles
      prioritizeSpeedOverCost selection.selectedCarrier := by
  obtain ⟨before, after, rfl, hbefore, hafter⟩ := h.first_best
  rcases List.mem_append.mp hc with hc | hc
  · exact (hbefore c hc).le
  · rcases List.mem_cons.mp hc with rfl | hc
    · exact le_rfl
    · exact hafter c hc

theorem Selects.mem (h : Selects offers distanceMiles prioritizeSpeedOverCost selection) :
    selection.selectedCarrier ∈ offers := by
  obtain ⟨before, after, rfl, -, -⟩ := h.first_best
  exact List.mem_append_right _ List.mem_cons_self

theorem Selects.undominated (h : Selects offers distanceMiles prioritizeSpeedOverCost selection) :
    Undominated offers distanceMiles selection := by
  intro c hc hcost
  have hscore := h.score_le hc
  rw [h.cost] at hcost
  simp only [DynamicCarrierSelectionEngine.score] at hscore
  split_ifs at hscore <;> linarith

/-- **Speed before cost**: the carrier is at least as punctual, and costs at least as much. -/
theorem Selects.speed_costs (hcheap : Selects offers distanceMiles false cheap)
    (hfast : Selects offers distanceMiles true fast) :
    cheap.selectedCarrier.historicalOnTimeDeliveryPct ≤
        fast.selectedCarrier.historicalOnTimeDeliveryPct ∧
      cheap.totalEstimatedCostUSD ≤ fast.totalEstimatedCostUSD := by
  have hcheap_le := hcheap.score_le hfast.mem
  have hfast_le := hfast.score_le hcheap.mem
  simp only [DynamicCarrierSelectionEngine.score, Bool.false_eq_true, if_false, if_true] at *
  rw [hcheap.cost, hfast.cost]
  constructor <;> linarith

theorem exists_selects (s : DynamicCarrierSelectionEngine) (distanceMiles : ℚ)
    {requiresColdChain requiresHazmat : Bool} (prioritizeSpeedOverCost : Bool)
    (h : s.carrierContracts.values.filter (isEligible requiresColdChain requiresHazmat) ≠ []) :
    ∃ selection, selectOptimalCarrier s distanceMiles requiresColdChain requiresHazmat
        prioritizeSpeedOverCost = .ok selection ∧
      Selects (s.carrierContracts.values.filter (isEligible requiresColdChain requiresHazmat))
        distanceMiles prioritizeSpeedOverCost selection := by
  obtain ⟨c, eligible, heq⟩ := List.exists_cons_of_ne_nil h
  obtain ⟨before, best, after, hsplit, hfold, hbefore, hafter⟩ :=
    foldl_considerCarrier distanceMiles prioritizeSpeedOverCost c (c :: eligible)
      (List.cons_ne_nil _ _)
  refine ⟨⟨best, totalCost distanceMiles best,
    toFixed 2 (score distanceMiles prioritizeSpeedOverCost best)⟩, ?_,
    ⟨before, after, heq.trans hsplit, hbefore, hafter⟩, rfl, rfl⟩
  rw [selectOptimalCarrier, heq]
  dsimp only
  rw [hfold]
  rfl

/-- **The selection after any run of registrations**: it fails if no contract in force supports the
request, and otherwise selects one of them, whether speed comes before cost or not. -/
theorem selectOptimalCarrier_spec (contracts : List ICarrierContract) (distanceMiles : ℚ)
    (requiresColdChain requiresHazmat : Bool) :
    let offers := (inForce contracts).filter (isEligible requiresColdChain requiresHazmat)
    let select := selectOptimalCarrier (registered contracts) distanceMiles requiresColdChain
      requiresHazmat
    (∀ c, c ∈ offers ↔ c ∈ inForce contracts ∧ Supports requiresColdChain requiresHazmat c) ∧
    (offers = [] ∧ (∀ prioritizeSpeedOverCost, select prioritizeSpeedOverCost =
        .error "No eligible carriers match the requested freight constraints") ∨
      ∃ cheap fast, select false = .ok cheap ∧ select true = .ok fast ∧
        Selects offers distanceMiles false cheap ∧ Selects offers distanceMiles true fast ∧
        Undominated offers distanceMiles cheap ∧ Undominated offers distanceMiles fast ∧
        cheap.selectedCarrier.historicalOnTimeDeliveryPct ≤
          fast.selectedCarrier.historicalOnTimeDeliveryPct ∧
        cheap.totalEstimatedCostUSD ≤ fast.totalEstimatedCostUSD) := by
  intro offers select
  refine ⟨fun c => by rw [List.mem_filter, isEligible_iff], ?_⟩
  have hoffers : (registered contracts).carrierContracts.values.filter
      (isEligible requiresColdChain requiresHazmat) = offers := by
    rw [values_registered]
  by_cases hnil : offers = []
  · refine .inl ⟨hnil, fun prioritizeSpeedOverCost => ?_⟩
    simp only [select, selectOptimalCarrier, hoffers, hnil]
  · obtain ⟨cheap, hcheap, hselects⟩ := exists_selects (registered contracts) distanceMiles false
      (hoffers.trans_ne hnil)
    obtain ⟨fast, hfast, hselects'⟩ := exists_selects (registered contracts) distanceMiles true
      (hoffers.trans_ne hnil)
    rw [hoffers] at hselects hselects'
    exact .inr ⟨cheap, fast, hcheap, hfast, hselects, hselects', hselects.undominated,
      hselects'.undominated, hselects.speed_costs hselects'⟩

end DynamicCarrierSelectionEngine

end Logix.Logistics
