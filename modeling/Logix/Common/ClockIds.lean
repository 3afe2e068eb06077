import Logix.Inventory.DockDoors
import Logix.Inventory.Transfers
import Logix.Logistics.Auctions

/-!
# Identifiers made of the clock

Appointments, transfers and auctions get their ids from `Date.now()` alone, and are stored with an
overwriting `set`.

* **`records_kept_iff`**: their records stay exactly when no two of them are made in one
  millisecond;
* `same_millisecond`: the records of two calls in one millisecond.
-/

namespace Logix

open Spec Inventory Logistics

/-- **When do the records stay?** In every run of bookings, of transfers and of auctions, the records
that the successful calls returned are all stored at the end, and no others are, exactly when the
clock readings of these calls are pairwise distinct; a booking succeeds when it finds a free door,
and the other calls always do. -/
theorem records_kept_iff (bookings : List DockCall) (transfers : List CreateTransfer)
    (auctions : List CreateSpotAuction) :
    (dockRegistry.Keeps .new bookings ↔
      (dockStamped.stamps (dockMachine.history .new bookings)).Nodup) ∧
    (transferRegistry.Keeps .new transfers ↔ (transfers.map CreateTransfer.idNow).Nodup) ∧
    (auctionRegistry.Keeps .new auctions ↔ (auctions.map CreateSpotAuction.idNow).Nodup) := by
  refine ⟨dockStamped.keeps_iff rfl bookings, ?_, ?_⟩
  · have hstamps := transferStamped.stamps_eq_map CreateTransfer.idNow (fun _ _ => rfl)
      (fun _ => rfl) .new transfers
    rw [← hstamps]
    exact transferStamped.keeps_iff rfl transfers
  · have hstamps := auctionStamped.stamps_eq_map CreateSpotAuction.idNow (fun _ _ => rfl)
      (fun _ => rfl) .new auctions
    rw [← hstamps]
    exact auctionStamped.keeps_iff rfl auctions

/-- A transfer to a warehouse, at the time 0. -/
def transferTo (destination : String) : CreateTransfer where
  origin := "WH-1"
  destination := destination
  items := []
  idNow := 0
  createdNow := 0

/-- An auction for a shipment, at the time 0. -/
def auctionFor (shipmentId : String) : CreateSpotAuction where
  shipmentId := shipmentId
  origin := "10115"
  destination := "80331"
  equipment := .FLATBED
  ceilingRate := 900
  idNow := 0
  now := 0

/-- **Two calls in one millisecond** leave one record, with any of the three services. -/
theorem same_millisecond :
    (¬ ∀ calls : List DockCall, (calls.flatMap DockCall.clocks).Pairwise (· ≤ ·) →
      dockRegistry.Keeps .new calls) ∧
    (¬ ∀ calls : List CreateTransfer, (calls.flatMap CreateTransfer.clocks).Pairwise (· ≤ ·) →
      transferRegistry.Keeps .new calls) ∧
    ¬ ∀ calls : List CreateSpotAuction,
      (calls.flatMap CreateSpotAuction.clocks).Pairwise (· ≤ ·) →
      auctionRegistry.Keeps .new calls := by
  refine ⟨fun h => ?_, fun h => ?_, fun h => ?_⟩
  · have hsize := (h [.registerDoor dockOne, .bookAppointment (unload 0 60) 0,
      .bookAppointment (unload 3600000 60) 0] (by decide +kernel)).2
    exact absurd hsize (by decide +kernel)
  · have hsize := (h [transferTo "WH-2", transferTo "WH-3"] (by decide +kernel)).2
    exact absurd hsize (by decide +kernel)
  · have hsize := (h [auctionFor "S-1", auctionFor "S-2"] (by decide +kernel)).2
    exact absurd hsize (by decide +kernel)

end Logix
