import Logix.Js.Date
import Logix.Spec.Registry

/-!
# Spot auctions

`AutonomousCarrierBiddingEngine` opens an auction for the freight of a shipment.

* `createSpotAuction`, `auctionMachine`: the code;
* `auctionRegistry`, `auctionStamped`: the auctions as records whose ids are made of the clock.
-/

namespace Logix.Logistics

open Spec

/-- `equipmentType`. -/
inductive EquipmentType where
  | DRY_VAN_53 | REEFER_53 | FLATBED | STEP_DECK
  deriving DecidableEq, Repr

/-- `status` of an auction. -/
inductive AuctionStatus where
  | OPEN | AWARDED | EXPIRED | CANCELLED
  deriving DecidableEq, Repr

/-- An entry of `bids`. -/
structure Bid where
  bidId : JsString
  carrierId : String
  bidAmountUSD : ℚ
  estimatedPickupAt : Option JsDate
  carrierSafetyScore : ℚ
  submittedAt : JsDate
  deriving DecidableEq, Repr

/-- `ISpotAuction`. -/
structure ISpotAuction where
  auctionId : JsString
  shipmentId : String
  originPostalCode : String
  destinationPostalCode : String
  equipmentType : EquipmentType
  maxCeilingRateUSD : ℚ
  auctionOpensAt : JsDate
  auctionClosesAt : Option JsDate
  status : AuctionStatus
  bids : List Bid
  winningBidId : Option JsString := none
  deriving DecidableEq, Repr

/-- **`AutonomousCarrierBiddingEngine`.** -/
structure AutonomousCarrierBiddingEngine where
  auctions : JsMap JsString ISpotAuction

/-- A call of `createSpotAuction`: its arguments, and the clock that it reads for the id and for the
opening. -/
structure CreateSpotAuction where
  shipmentId : String
  origin : String
  destination : String
  equipment : EquipmentType
  ceilingRate : ℚ
  durationMinutes : ℚ := 30
  idNow : JsDate
  now : JsDate
  deriving DecidableEq, Repr

namespace AutonomousCarrierBiddingEngine

/-- `new AutonomousCarrierBiddingEngine()`. -/
def new : AutonomousCarrierBiddingEngine := ⟨.empty⟩

/-- **`createSpotAuction`.** -/
def createSpotAuction (e : AutonomousCarrierBiddingEngine) (c : CreateSpotAuction) :
    AutonomousCarrierBiddingEngine × ISpotAuction :=
  let auctionId := stampId "AUC-" c.idNow
  let auction : ISpotAuction :=
    { auctionId := auctionId
      shipmentId := c.shipmentId
      originPostalCode := c.origin
      destinationPostalCode := c.destination
      equipmentType := c.equipment
      maxCeilingRateUSD := c.ceilingRate
      auctionOpensAt := c.now
      auctionClosesAt := dateOf (c.now + c.durationMinutes * 60000)
      status := .OPEN
      bids := [] }
  (⟨e.auctions.set auctionId auction⟩, auction)

end AutonomousCarrierBiddingEngine

open AutonomousCarrierBiddingEngine

/-- The clock readings of a call, in their order. -/
def CreateSpotAuction.clocks (c : CreateSpotAuction) : List JsDate := [c.idNow, c.now]

/-- The calls of `createSpotAuction`, one after another. -/
def auctionMachine : Machine AutonomousCarrierBiddingEngine CreateSpotAuction ISpotAuction where
  call c e := e.createSpotAuction c

/-- The auctions as a registry. -/
def auctionRegistry : Registry auctionMachine JsString ISpotAuction where
  table := auctions
  returned := some
  idOf := ISpotAuction.auctionId
  table_next _ _ := rfl

/-- The ids are made of the clock. -/
def auctionStamped : Stamped auctionRegistry JsDate where
  succeeds _ _ := true
  stamp c := some c.idNow
  key := stampId "AUC-"
  key_injective := stampId_injective "AUC-"
  isSome_returned _ _ := rfl
  idOf_returned _ _ auction h := by
    cases h
    rfl

end Logix.Logistics
