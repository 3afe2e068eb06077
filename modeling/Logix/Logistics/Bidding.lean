import Logix.Common.Errors
import Logix.Logistics.Auctions
import Logix.Spec.Ranking

/-!
# Bids

Carriers bid for the freight of an auction, and the award goes to the first of the ranked bids.
`Math.random().toString(36)` and the clock readings are arguments of the calls.

* `submitBid`, `awardAuction`, `biddingMachine`: the code;
* `bidsOf`, `isAwarded`: what a state says of an auction;
* `bidOrder_iff`: the comparison of the sort, a total preorder;
* **`bidding_call_cases`**: what a call does.
-/

namespace Logix.Logistics

open Spec

/-- A call of `submitBid`: its arguments, the clock that it reads for the closing, for the id and
for the bid, and the random number in the id. -/
structure SubmitBid where
  auctionId : JsString
  carrierId : String
  bidAmountUSD : ℚ
  estimatedPickupAt : Option JsDate
  carrierSafetyScore : ℚ
  closeNow : JsDate
  idNow : JsDate
  random : JsString
  now : JsDate
  deriving DecidableEq, Repr

/-- The bid that a call pushes. -/
def SubmitBid.bid (c : SubmitBid) : Bid where
  bidId := js "BID-" ++ intToBase 36 c.idNow ++ substring c.random 2 4
  carrierId := c.carrierId
  bidAmountUSD := c.bidAmountUSD
  estimatedPickupAt := c.estimatedPickupAt
  carrierSafetyScore := c.carrierSafetyScore
  submittedAt := c.now

/-- What `submitBid` returns. -/
structure BidReceipt where
  isAccepted : Bool
  rank : ℕ
  message : String
  deriving DecidableEq, Repr

/-- What `awardAuction` returns. -/
structure Award where
  winningBidId : JsString
  winningCarrierId : String
  agreedRateUSD : ℚ
  deriving DecidableEq, Repr

/-- The award for a bid. -/
def Bid.award (winner : Bid) : Award := ⟨winner.bidId, winner.carrierId, winner.bidAmountUSD⟩

/-- `a.bidAmountUSD - b.bidAmountUSD || b.carrierSafetyScore - a.carrierSafetyScore`. -/
def compareBids (a b : Bid) : ℚ :=
  if a.bidAmountUSD - b.bidAmountUSD ≠ 0 then a.bidAmountUSD - b.bidAmountUSD
  else b.carrierSafetyScore - a.carrierSafetyScore

/-- The sort leaves `a` before `b`. -/
def bidOrder (a b : Bid) : Prop := compareBids a b ≤ 0

instance : DecidableRel bidOrder := fun a b => inferInstanceAs (Decidable (compareBids a b ≤ 0))

/-- `bids.findIndex(b => b.bidId === bidId) + 1`. -/
def rankOf (bidId : JsString) (bids : List Bid) : ℕ :=
  ((bids.findIdx? fun b => b.bidId == bidId).map (· + 1)).getD 0

namespace AutonomousCarrierBiddingEngine

/-- `auction.bids = bids`. -/
def setBids (e : AutonomousCarrierBiddingEngine) (auctionId : JsString) (bids : List Bid) :
    AutonomousCarrierBiddingEngine :=
  ⟨e.auctions.modify auctionId fun auction => { auction with bids := bids }⟩

/-- `auction.status = 'AWARDED'` and `auction.winningBidId = winner.bidId`. -/
def setWinner (e : AutonomousCarrierBiddingEngine) (auctionId : JsString) (winner : Bid) :
    AutonomousCarrierBiddingEngine :=
  ⟨e.auctions.modify auctionId fun auction =>
    { auction with status := .AWARDED, winningBidId := some winner.bidId }⟩

/-- **`submitBid`**: the bid is pushed and the bids are sorted. -/
def submitBid (e : AutonomousCarrierBiddingEngine) (c : SubmitBid) :
    AutonomousCarrierBiddingEngine × BidReceipt :=
  match e.auctions.get c.auctionId with
  | none => (e, ⟨false, 0, "Auction does not exist"⟩)
  | some auction =>
    if auction.status ≠ .OPEN ∨ dateLt auction.auctionClosesAt (some c.closeNow) = true then
      (e, ⟨false, 0, "Auction is closed"⟩)
    else if auction.maxCeilingRateUSD < c.bidAmountUSD then
      (e, ⟨false, 0, "Bid exceeds maximum ceiling price"⟩)
    else
      let bids := (auction.bids ++ [c.bid]).insertionSort bidOrder
      (e.setBids c.auctionId bids, ⟨true, rankOf c.bid.bidId bids, "Bid successfully placed"⟩)

/-- **`awardAuction(auctionId)`**. -/
def awardAuction (e : AutonomousCarrierBiddingEngine) (auctionId : JsString) :
    AutonomousCarrierBiddingEngine × Except DomainException Award :=
  match (e.auctions.get auctionId).bind fun auction => auction.bids.head? with
  | none => (e, .error (.error "Cannot award auction: No valid bids received"))
  | some winner => (e.setWinner auctionId winner, .ok winner.award)

end AutonomousCarrierBiddingEngine

open AutonomousCarrierBiddingEngine

/-- The calls. -/
inductive BiddingCall where
  | createSpotAuction (c : CreateSpotAuction)
  | submitBid (c : SubmitBid)
  | awardAuction (auctionId : JsString)
  deriving DecidableEq, Repr

/-- What a call returns. -/
inductive BiddingResult where
  | created (auction : ISpotAuction)
  | submitted (receipt : BidReceipt)
  | awarded (award : Award)
  deriving DecidableEq, Repr

/-- The engine under its calls. -/
def biddingMachine :
    Machine AutonomousCarrierBiddingEngine BiddingCall (Except DomainException BiddingResult) where
  call
    | .createSpotAuction c, e =>
      let (e', auction) := e.createSpotAuction c
      (e', .ok (.created auction))
    | .submitBid c, e =>
      let (e', receipt) := e.submitBid c
      (e', .ok (.submitted receipt))
    | .awardAuction auctionId, e =>
      let (e', award) := e.awardAuction auctionId
      (e', award.map .awarded)

abbrev BiddingEvent :=
  Event AutonomousCarrierBiddingEngine BiddingCall (Except DomainException BiddingResult)

/-- The bids of an auction. -/
def bidsOf (e : AutonomousCarrierBiddingEngine) (auctionId : JsString) : List Bid :=
  ((e.auctions.get auctionId).map ISpotAuction.bids).getD []

/-- The auction is awarded. -/
def isAwarded (e : AutonomousCarrierBiddingEngine) (auctionId : JsString) : Prop :=
  (e.auctions.get auctionId).map ISpotAuction.status = some .AWARDED

/-- The id that a call gives to an auction. -/
def BiddingCall.createdId : BiddingCall → Option JsString
  | .createSpotAuction c => some (stampId "AUC-" c.idNow)
  | .submitBid _ | .awardAuction _ => none

/-! ## The order of the bids -/

theorem bidOrder_iff {a b : Bid} : bidOrder a b ↔ a.bidAmountUSD < b.bidAmountUSD ∨
    a.bidAmountUSD = b.bidAmountUSD ∧ b.carrierSafetyScore ≤ a.carrierSafetyScore := by
  unfold bidOrder compareBids
  split_ifs with h
  · have hne : a.bidAmountUSD ≠ b.bidAmountUSD := fun heq => h (sub_eq_zero.mpr heq)
    rw [sub_nonpos]
    exact ⟨fun hle => Or.inl (lt_of_le_of_ne hle hne), fun hor =>
      hor.elim le_of_lt fun heq => absurd heq.1 hne⟩
  · have heq : a.bidAmountUSD = b.bidAmountUSD := sub_eq_zero.mp (not_not.mp h)
    rw [sub_nonpos]
    exact ⟨fun hle => Or.inr ⟨heq, hle⟩, fun hor =>
      hor.elim (fun hlt => absurd heq hlt.ne) And.right⟩

instance : Std.Total bidOrder where
  total a b := by
    rw [bidOrder_iff, bidOrder_iff]
    rcases lt_trichotomy a.bidAmountUSD b.bidAmountUSD with h | h | h
    · exact Or.inl (Or.inl h)
    · exact (le_total b.carrierSafetyScore a.carrierSafetyScore).imp (fun hs => Or.inr ⟨h, hs⟩)
        fun hs => Or.inr ⟨h.symm, hs⟩
    · exact Or.inr (Or.inl h)

instance : IsTrans Bid bidOrder where
  trans a b c hab hbc := by
    rw [bidOrder_iff] at hab hbc ⊢
    rcases hab with hab | ⟨hab, hsab⟩
    · rcases hbc with hbc | ⟨hbc, -⟩
      · exact Or.inl (hab.trans hbc)
      · exact Or.inl (hbc ▸ hab)
    · rcases hbc with hbc | ⟨hbc, hsbc⟩
      · exact Or.inl (hab ▸ hbc)
      · exact Or.inr ⟨hab.trans hbc, hsbc.trans hsab⟩

/-! ## One call -/

/-- The bid that a call placed, with its auction. -/
def placed (e : BiddingEvent) : Option (JsString × Bid) :=
  match e.input, e.result with
  | .submitBid c, .ok (.submitted receipt) =>
    if receipt.isAccepted then some (c.auctionId, c.bid) else none
  | _, _ => none

section Calls

variable {e : AutonomousCarrierBiddingEngine} {auctionId id : JsString} {bids : List Bid}
  {winner : Bid} {auction : ISpotAuction}

/-- The bids after a bid was placed. -/
def SubmitBid.ranked (c : SubmitBid) (bids : List Bid) : List Bid :=
  (bids ++ [c.bid]).insertionSort bidOrder

theorem bidsOf_of_get (h : e.auctions.get auctionId = some auction) :
    bidsOf e auctionId = auction.bids := by
  rw [bidsOf, h]
  rfl

/-- **What `submitBid` does**: it places the bid, or leaves the engine as it is. -/
theorem submitBid_cases (e : AutonomousCarrierBiddingEngine) (b : SubmitBid) :
    (∃ auction, e.auctions.get b.auctionId = some auction ∧ auction.status = .OPEN ∧
      b.bidAmountUSD ≤ auction.maxCeilingRateUSD ∧
      e.submitBid b = (e.setBids b.auctionId (b.ranked auction.bids),
        ⟨true, rankOf b.bid.bidId (b.ranked auction.bids), "Bid successfully placed"⟩)) ∨
    ∃ message, e.submitBid b = (e, ⟨false, 0, message⟩) := by
  unfold submitBid
  cases e.auctions.get b.auctionId with
  | none => exact Or.inr ⟨_, rfl⟩
  | some auction =>
    dsimp only
    split_ifs with hclosed hhigh
    · exact Or.inr ⟨_, rfl⟩
    · exact Or.inr ⟨_, rfl⟩
    · obtain ⟨hopen, -⟩ := not_or.mp hclosed
      exact Or.inl ⟨auction, rfl, not_not.mp hopen, not_lt.mp hhigh, rfl⟩

/-- **What `awardAuction` does**: it awards the auction to its first bid, unless there is none. -/
theorem awardAuction_cases (e : AutonomousCarrierBiddingEngine) (auctionId : JsString) :
    (∃ auction first rest, e.auctions.get auctionId = some auction ∧
      auction.bids = first :: rest ∧
      e.awardAuction auctionId = (e.setWinner auctionId first, .ok first.award)) ∨
    bidsOf e auctionId = [] ∧ e.awardAuction auctionId =
      (e, .error (.error "Cannot award auction: No valid bids received")) := by
  unfold awardAuction bidsOf
  cases hget : e.auctions.get auctionId with
  | none => exact Or.inr ⟨rfl, rfl⟩
  | some auction =>
    cases hbids : auction.bids with
    | nil => exact Or.inr ⟨hbids, by simp [hbids]⟩
    | cons first rest => exact Or.inl ⟨auction, first, rest, rfl, hbids, by simp [hbids]⟩

theorem call_submitBid (b : SubmitBid) : biddingMachine.call (.submitBid b) e =
    ((e.submitBid b).1, .ok (.submitted (e.submitBid b).2)) := rfl

theorem call_awardAuction : biddingMachine.call (.awardAuction auctionId) e =
    ((e.awardAuction auctionId).1, (e.awardAuction auctionId).2.map .awarded) := rfl

/-- **What a call does**: it opens an auction, places a bid, awards an auction, or leaves the engine
as it is. -/
theorem bidding_call_cases (e : AutonomousCarrierBiddingEngine) (c : BiddingCall) :
    (∃ a auction, c = .createSpotAuction a ∧ auction.bids = [] ∧
      biddingMachine.call c e =
        (⟨e.auctions.set (stampId "AUC-" a.idNow) auction⟩, .ok (.created auction))) ∨
    (∃ b auction, c = .submitBid b ∧ e.auctions.get b.auctionId = some auction ∧
      auction.status = .OPEN ∧ b.bidAmountUSD ≤ auction.maxCeilingRateUSD ∧
      biddingMachine.call c e = (e.setBids b.auctionId (b.ranked auction.bids),
        .ok (.submitted ⟨true, rankOf b.bid.bidId (b.ranked auction.bids),
          "Bid successfully placed"⟩))) ∨
    (∃ auctionId auction first rest, c = .awardAuction auctionId ∧
      e.auctions.get auctionId = some auction ∧ auction.bids = first :: rest ∧
      biddingMachine.call c e = (e.setWinner auctionId first, .ok (.awarded first.award))) ∨
    c.createdId = none ∧ biddingMachine.next e c = e ∧ placed (biddingMachine.event e c) = none ∧
      ∀ award, (biddingMachine.event e c).result ≠ .ok (.awarded award) := by
  cases c with
  | createSpotAuction a => exact Or.inl ⟨a, _, rfl, rfl, rfl⟩
  | submitBid b =>
    rcases submitBid_cases e b with ⟨auction, hget, hopen, hle, hsubmit⟩ | ⟨message, hsubmit⟩
    · exact Or.inr (Or.inl ⟨b, auction, rfl, hget, hopen, hle, by rw [call_submitBid, hsubmit]⟩)
    · refine Or.inr (Or.inr (Or.inr ⟨rfl, ?_⟩))
      simp [Machine.next, Machine.event, placed, call_submitBid, hsubmit]
  | awardAuction auctionId =>
    rcases awardAuction_cases e auctionId with ⟨auction, first, rest, hget, hbids, haward⟩ |
      ⟨-, haward⟩
    · refine Or.inr (Or.inr (Or.inl ⟨auctionId, auction, first, rest, rfl, hget, hbids, ?_⟩))
      rw [call_awardAuction, haward]
      rfl
    · refine Or.inr (Or.inr (Or.inr ⟨rfl, ?_⟩))
      simp [Machine.next, Machine.event, placed, call_awardAuction, haward, Except.map]

theorem isAwarded_iff : isAwarded e auctionId ↔
    ∃ auction, e.auctions.get auctionId = some auction ∧ auction.status = .AWARDED :=
  Option.map_eq_some_iff

theorem bidsOf_setBids (h : e.auctions.get auctionId = some auction) :
    bidsOf (e.setBids auctionId bids) id = if id = auctionId then bids else bidsOf e id := by
  unfold bidsOf setBids
  rw [JsMap.map_get_modify (φ := fun _ => bids) fun _ => rfl]
  split_ifs with hid
  · rw [hid, h]
    rfl
  · rfl

theorem bidsOf_setWinner : bidsOf (e.setWinner auctionId winner) id = bidsOf e id :=
  congrArg (Option.getD · []) (JsMap.map_get_modify_of_eq (fun _ => by rfl) _ _ _)

theorem isAwarded_setBids : isAwarded (e.setBids auctionId bids) id ↔ isAwarded e id := by
  unfold isAwarded
  exact Eq.congr_left (JsMap.map_get_modify_of_eq (fun _ => by rfl) _ _ _)

theorem isAwarded_setWinner (h : e.auctions.get auctionId = some auction) :
    isAwarded (e.setWinner auctionId winner) id ↔ id = auctionId ∨ isAwarded e id := by
  unfold isAwarded
  refine (Eq.congr_left (JsMap.map_get_modify (φ := fun _ => .AWARDED) (fun _ => by rfl)
    _ _ _)).trans ?_
  split_ifs with hid
  · rw [hid, h]
    simp
  · simp [hid]

end Calls

end Logix.Logistics
