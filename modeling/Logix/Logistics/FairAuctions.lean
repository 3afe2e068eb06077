import Logix.Logistics.Bidding
import Logix.Spec.Stable

/-!
# Are spot auctions fair?

* `placedIn`: the accepted bids of an auction, in the order of submission;
* `Precedes`: price ascending, then safety score descending, then order of submission;
* `Fair`: admissible bids are accepted, the bids of every auction are the accepted ones in this
  order, a rank is a position in it, the award goes to the first, and an awarded auction stays as it
  is;
* `Booked`: the invariant of the bids; `AwardKept`, `isAwarded_next`: what an award freezes;
* **`auctions_fair`**: every run whose auction ids and bid ids are pairwise distinct is fair.
-/

namespace Logix.Logistics

open Spec AutonomousCarrierBiddingEngine

/-- The accepted bids of an auction, in the order of submission. -/
def placedIn (auctionId : JsString) (es : List BiddingEvent) : List Bid :=
  ((es.filterMap placed).filter fun p => p.1 = auctionId).map Prod.snd

/-- The ids of all accepted bids. -/
def placedIds (es : List BiddingEvent) : List JsString :=
  (es.filterMap placed).map fun p => p.2.bidId

/-- The ids that the calls give to auctions. -/
def createdIds (calls : List BiddingCall) : List JsString := calls.filterMap BiddingCall.createdId

/-- **`a` comes before `b`**: by price ascending, then by safety score descending, then in the order
of submission. -/
def Precedes (submitted : List Bid) (a b : Bid) : Prop :=
  a.bidAmountUSD < b.bidAmountUSD ∨ a.bidAmountUSD = b.bidAmountUSD ∧
    (b.carrierSafetyScore < a.carrierSafetyScore ∨
      a.carrierSafetyScore = b.carrierSafetyScore ∧ List.Sublist [a, b] submitted)

/-- What an award promises of a later call: the bids are those of the award, and another award of
the auction returns the same. -/
def AwardKept (e e' : BiddingEvent) : Prop :=
  ∀ auctionId award, e.input = .awardAuction auctionId → e.result = .ok (.awarded award) →
    bidsOf e'.after auctionId = bidsOf e.after auctionId ∧
    (e'.input = .awardAuction auctionId → e'.result = .ok (.awarded award))

/-- **An admissible bid**: its auction is open, and it is in time and not above the ceiling. -/
def Admissible (e : AutonomousCarrierBiddingEngine) (c : SubmitBid) : Prop :=
  ∃ auction, e.auctions.get c.auctionId = some auction ∧ auction.status = .OPEN ∧
    ¬ dateLt auction.auctionClosesAt (some c.closeNow) = true ∧
    c.bidAmountUSD ≤ auction.maxCeilingRateUSD

/-- **Fair auctions.** -/
structure Fair (calls : List BiddingCall) : Prop where
  admitted : ∀ e ∈ biddingMachine.history .new calls, ∀ c receipt, e.input = .submitBid c →
    e.result = .ok (.submitted receipt) → (receipt.isAccepted = true ↔ Admissible e.before c)
  accepted : ∀ auctionId, (bidsOf (biddingMachine.run .new calls) auctionId).Perm
    (placedIn auctionId (biddingMachine.history .new calls))
  ordered : ∀ auctionId, (bidsOf (biddingMachine.run .new calls) auctionId).Pairwise
    (Precedes (placedIn auctionId (biddingMachine.history .new calls)))
  ceiling : ∀ auctionId auction,
    (biddingMachine.run .new calls).auctions.get auctionId = some auction →
    ∀ bid ∈ auction.bids, bid.bidAmountUSD ≤ auction.maxCeilingRateUSD
  rank : ∀ e ∈ biddingMachine.history .new calls, ∀ c receipt, e.input = .submitBid c →
    e.result = .ok (.submitted receipt) → receipt.isAccepted = true →
    ∃ above below, bidsOf e.after c.auctionId = above ++ c.bid :: below ∧
      receipt.rank = above.length + 1
  winner : ∀ e ∈ biddingMachine.history .new calls, ∀ auctionId first rest,
    e.input = .awardAuction auctionId → bidsOf e.before auctionId = first :: rest →
    e.result = .ok (.awarded first.award)
  kept : (biddingMachine.history .new calls).Pairwise AwardKept

theorem precedes_of_ranksBefore {submitted : List Bid} {a b : Bid}
    (h : RanksBefore bidOrder submitted a b) : Precedes submitted a b := by
  obtain ⟨hab, htied⟩ := h
  rcases bidOrder_iff.mp hab with hlt | ⟨heq, hle⟩
  · exact Or.inl hlt
  · refine Or.inr ⟨heq, ?_⟩
    rcases lt_or_eq_of_le hle with hlt | hscore
    · exact Or.inl hlt
    · exact Or.inr ⟨hscore.symm, htied (bidOrder_iff.mpr (Or.inr ⟨heq.symm, hscore.ge⟩))⟩

/-! ## Ids -/

theorem placedIn_concat (auctionId : JsString) (es : List BiddingEvent) (e : BiddingEvent) :
    placedIn auctionId (es ++ [e]) = placedIn auctionId es ++
      ((placed e).toList.filter fun p => p.1 = auctionId).map Prod.snd := by
  rw [placedIn, placedIn, List.filterMap_append, List.filter_append, List.map_append]
  rfl

theorem placedIn_concat_of_placed {auctionId id : JsString} {bid : Bid} {es : List BiddingEvent}
    {e : BiddingEvent} (h : placed e = some (id, bid)) : placedIn auctionId (es ++ [e]) =
      if auctionId = id then placedIn auctionId es ++ [bid] else placedIn auctionId es := by
  rw [placedIn_concat, h]
  split_ifs with hid
  · simp [hid]
  · simp [Ne.symm hid]

theorem placedIn_concat_of_none {auctionId : JsString} {es : List BiddingEvent}
    {e : BiddingEvent} (h : placed e = none) :
    placedIn auctionId (es ++ [e]) = placedIn auctionId es := by
  rw [placedIn_concat, h]
  exact List.append_nil _

theorem ids_sublist (auctionId : JsString) (es : List BiddingEvent) :
    ((placedIn auctionId es).map Bid.bidId).Sublist (placedIds es) := by
  rw [placedIn, List.map_map]
  exact List.filter_sublist.map _

theorem rankOf_append {above below : List Bid} {bid : Bid}
    (h : ((above ++ bid :: below).map Bid.bidId).Nodup) :
    rankOf bid.bidId (above ++ bid :: below) = above.length + 1 := by
  have hnone : above.findIdx? (fun b => b.bidId == bid.bidId) = none := by
    rw [List.findIdx?_eq_none_iff]
    intro b hb
    rw [List.map_append, List.nodup_append'] at h
    have hmem : b.bidId ∈ above.map Bid.bidId := List.mem_map_of_mem hb
    refine beq_false_of_ne fun heq => h.2.2 hmem ?_
    rw [heq]
    exact List.mem_cons_self
  rw [rankOf, List.findIdx?_append, hnone, List.findIdx?_cons, beq_self_eq_true]
  simp

/-! ## The bids -/

/-- **An engine, after the calls of a record**: its bids are the ranked ones of the record. -/
structure Booked (es : List BiddingEvent) (e : AutonomousCarrierBiddingEngine) : Prop where
  ranked : ∀ auctionId, Ranked bidOrder (placedIn auctionId es) (bidsOf e auctionId)
  ceiling : ∀ auctionId auction, e.auctions.get auctionId = some auction →
    ∀ bid ∈ auction.bids, bid.bidAmountUSD ≤ auction.maxCeilingRateUSD

/-- The call opens no auction under an id that is there. -/
def IsFresh (e : AutonomousCarrierBiddingEngine) (c : BiddingCall) : Prop :=
  ∀ id ∈ c.createdId, id ∉ e.auctions.keys

section Calls

variable {e : AutonomousCarrierBiddingEngine} {c : BiddingCall} {es : List BiddingEvent}
  {auctionId : JsString}

theorem bidsOf_set {id : JsString} {auction : ISpotAuction} (hfresh : id ∉ e.auctions.keys)
    (hbids : auction.bids = []) :
    bidsOf ⟨e.auctions.set id auction⟩ auctionId = bidsOf e auctionId := by
  unfold bidsOf
  rw [JsMap.get_set]
  split_ifs with hid
  · rw [hid, JsMap.get_eq_none_iff.mpr hfresh]
    exact hbids
  · rfl

theorem isAccepted_submitBid (e : AutonomousCarrierBiddingEngine) (b : SubmitBid) :
    (e.submitBid b).2.isAccepted = true ↔ Admissible e b := by
  unfold submitBid Admissible
  cases e.auctions.get b.auctionId with
  | none => simp
  | some auction =>
    dsimp only
    split_ifs with hclosed hhigh
    · refine iff_of_false not_false ?_
      rintro ⟨_, ⟨⟩, hopen, hintime, -⟩
      exact hclosed.elim (· hopen) hintime
    · refine iff_of_false not_false ?_
      rintro ⟨_, ⟨⟩, -, -, hle⟩
      exact absurd hhigh (not_lt.mpr hle)
    · obtain ⟨hopen, hintime⟩ := not_or.mp hclosed
      exact iff_of_true rfl ⟨auction, rfl, not_not.mp hopen, hintime, not_lt.mp hhigh⟩

theorem mem_keys_next (e : AutonomousCarrierBiddingEngine) (c : BiddingCall) :
    ∀ id ∈ (biddingMachine.next e c).auctions.keys, id ∈ e.auctions.keys ∨ id ∈ c.createdId := by
  intro id hid
  rcases bidding_call_cases e c with ⟨a, auction, rfl, -, hcall⟩ |
    ⟨b, auction, rfl, -, -, -, hcall⟩ | ⟨auctionId, auction, first, rest, rfl, -, -, hcall⟩ |
    ⟨-, hnext, -⟩
  · rw [Machine.next, hcall] at hid
    rcases JsMap.mem_keys_set.mp hid with rfl | hid
    · exact Or.inr rfl
    · exact Or.inl hid
  · rw [Machine.next, hcall] at hid
    exact Or.inl (by rwa [setBids, JsMap.keys_modify] at hid)
  · rw [Machine.next, hcall] at hid
    exact Or.inl (by rwa [setWinner, JsMap.keys_modify] at hid)
  · rw [hnext] at hid
    exact Or.inl hid

theorem ranked_next (h : Booked es e) (hfresh : IsFresh e c) :
    Ranked bidOrder (placedIn auctionId (es ++ [biddingMachine.event e c]))
      (bidsOf (biddingMachine.next e c) auctionId) := by
  rcases bidding_call_cases e c with ⟨a, auction, rfl, hbids, hcall⟩ |
    ⟨b, auction, rfl, hget, -, -, hcall⟩ | ⟨id, auction, first, rest, rfl, hget, -, hcall⟩ |
    ⟨-, hnext, hplaced, -⟩
  · have hplaced : placed (biddingMachine.event e (.createSpotAuction a)) = none := rfl
    rw [Machine.next, hcall, placedIn_concat_of_none hplaced, bidsOf_set (hfresh _ rfl) hbids]
    exact h.ranked auctionId
  · have hplaced : placed (biddingMachine.event e (.submitBid b)) = some (b.auctionId, b.bid) := by
      simp [placed, Machine.event, hcall]
    rw [Machine.next, hcall, placedIn_concat_of_placed hplaced, bidsOf_setBids hget]
    split_ifs with hid
    · subst hid
      have hranked := (h.ranked b.auctionId).insert b.bid
      rwa [bidsOf_of_get hget] at hranked
    · exact h.ranked auctionId
  · have hplaced : placed (biddingMachine.event e (.awardAuction id)) = none := rfl
    rw [Machine.next, hcall, placedIn_concat_of_none hplaced, bidsOf_setWinner]
    exact h.ranked auctionId
  · rw [hnext, placedIn_concat_of_none hplaced]
    exact h.ranked auctionId

theorem ceiling_next (h : Booked es e) {auction : ISpotAuction}
    (hauction : (biddingMachine.next e c).auctions.get auctionId = some auction) :
    ∀ bid ∈ auction.bids, bid.bidAmountUSD ≤ auction.maxCeilingRateUSD := by
  rcases bidding_call_cases e c with ⟨a, auction', rfl, hbids, hcall⟩ |
    ⟨b, auction', rfl, hget, -, hle, hcall⟩ | ⟨id, auction', first, rest, rfl, -, -, hcall⟩ |
    ⟨-, hnext, -⟩
  · rw [Machine.next, hcall, JsMap.get_set] at hauction
    split_ifs at hauction
    · obtain rfl := Option.some.inj hauction
      rw [hbids]
      exact fun bid hbid => absurd hbid List.not_mem_nil
    · exact h.ceiling auctionId auction hauction
  · rw [Machine.next, hcall] at hauction
    obtain ⟨auction'', hget', rfl⟩ := JsMap.exists_of_get_modify hauction
    split_ifs with hid
    · subst hid
      obtain rfl := Option.some.inj (hget.symm.trans hget')
      intro bid hbid
      rcases List.mem_append.mp ((List.mem_insertionSort _).mp hbid) with hbid | hbid
      · exact h.ceiling _ auction' hget bid hbid
      · obtain rfl := List.mem_singleton.mp hbid
        exact hle
    · exact h.ceiling auctionId auction'' hget'
  · rw [Machine.next, hcall] at hauction
    obtain ⟨auction'', hget', rfl⟩ := JsMap.exists_of_get_modify hauction
    split_ifs
    · exact h.ceiling auctionId auction'' hget'
    · exact h.ceiling auctionId auction'' hget'
  · rw [hnext] at hauction
    exact h.ceiling auctionId auction hauction

theorem Booked.next (h : Booked es e) (hfresh : IsFresh e c) :
    Booked (es ++ [biddingMachine.event e c]) (biddingMachine.next e c) :=
  ⟨fun _ => ranked_next h hfresh, fun _ _ => ceiling_next h⟩

/-! ## Awards -/

/-- **An awarded auction stays awarded, with its bids.** -/
theorem isAwarded_next (hfresh : IsFresh e c) (h : isAwarded e auctionId) :
    isAwarded (biddingMachine.next e c) auctionId ∧
      bidsOf (biddingMachine.next e c) auctionId = bidsOf e auctionId := by
  obtain ⟨auction, hget, hstatus⟩ := isAwarded_iff.mp h
  rcases bidding_call_cases e c with ⟨a, auction', rfl, hbids, hcall⟩ |
    ⟨b, auction', rfl, hget', hopen, -, hcall⟩ |
    ⟨id, auction', first, rest, rfl, hget', hbids, hcall⟩ | ⟨-, hnext, -, -⟩
  · have hnew := hfresh _ rfl
    rw [Machine.next, hcall]
    refine ⟨isAwarded_iff.mpr ⟨auction, JsMap.get_set_of_get hnew hget _, hstatus⟩, ?_⟩
    exact bidsOf_set hnew hbids
  · -- the auction of the bid is open
    rw [Machine.next, hcall, isAwarded_setBids, bidsOf_setBids hget', if_neg]
    · exact ⟨h, rfl⟩
    · rintro rfl
      obtain rfl := Option.some.inj (hget.symm.trans hget')
      rw [hstatus] at hopen
      cases hopen
  · rw [Machine.next, hcall, isAwarded_setWinner hget', bidsOf_setWinner]
    exact ⟨Or.inr h, rfl⟩
  · rw [hnext]
    exact ⟨h, rfl⟩

theorem result_awardAuction {first : Bid} {rest : List Bid}
    (h : bidsOf e auctionId = first :: rest) :
    (biddingMachine.event e (.awardAuction auctionId)).result = .ok (.awarded first.award) := by
  change (biddingMachine.call (.awardAuction auctionId) e).2 = _
  rcases awardAuction_cases e auctionId with ⟨auction, first', rest', hget, hbids, haward⟩ |
    ⟨hnone, -⟩
  · rw [bidsOf_of_get hget, hbids] at h
    obtain rfl := (List.cons.inj h).1
    rw [call_awardAuction, haward]
    rfl
  · rw [hnone] at h
    cases h

theorem awarded_cases {award : Award}
    (h : (biddingMachine.event e (.awardAuction auctionId)).result = .ok (.awarded award)) :
    isAwarded (biddingMachine.next e (.awardAuction auctionId)) auctionId ∧
      ∃ first rest, bidsOf (biddingMachine.next e (.awardAuction auctionId)) auctionId =
        first :: rest ∧ award = first.award := by
  replace h : (biddingMachine.call (.awardAuction auctionId) e).2 = _ := h
  rw [Machine.next]
  rcases awardAuction_cases e auctionId with ⟨auction, first, rest, hget, hbids, haward⟩ |
    ⟨-, haward⟩
  · rw [call_awardAuction, haward] at h
    rw [call_awardAuction, haward, isAwarded_setWinner hget, bidsOf_setWinner, bidsOf_of_get hget]
    cases h
    exact ⟨Or.inl rfl, first, rest, hbids, rfl⟩
  · rw [call_awardAuction, haward] at h
    cases h

end Calls

/-! ## Runs -/

section Runs

variable {calls : List BiddingCall}

theorem isFresh_run (hids : (createdIds calls).Nodup) :
    ∀ e ∈ biddingMachine.history .new calls, IsFresh e.before e.input :=
  Machine.fresh_of_nodup (fun e : AutonomousCarrierBiddingEngine => e.auctions.keys) rfl
    mem_keys_next calls hids

theorem booked_run (hids : (createdIds calls).Nodup) :
    Booked (biddingMachine.history .new calls) (biddingMachine.run .new calls) := by
  refine Machine.history_invariant ?_ (fun es e c h (hfresh : IsFresh e c) => h.next hfresh) calls
    (isFresh_run hids)
  refine ⟨fun auctionId => ranked_nil, fun auctionId auction hget => ?_⟩
  exact absurd (JsMap.mem_keys_of_get hget) List.not_mem_nil

theorem rank_eq {js ks : List BiddingCall} {c : SubmitBid} {receipt : BidReceipt}
    (hauctions : (createdIds (js ++ .submitBid c :: ks)).Nodup)
    (hbids : (placedIds (biddingMachine.history .new (js ++ .submitBid c :: ks))).Nodup)
    (hresult : (biddingMachine.call (.submitBid c) (biddingMachine.run .new js)).2 =
      .ok (.submitted receipt)) (haccepted : receipt.isAccepted = true) :
    ∃ above below, bidsOf (biddingMachine.run .new (js ++ [.submitBid c])) c.auctionId =
      above ++ c.bid :: below ∧ receipt.rank = above.length + 1 := by
  rw [List.append_cons] at hauctions hbids
  have hcreated : (createdIds (js ++ [.submitBid c])).Nodup := by
    rw [createdIds, List.filterMap_append] at hauctions
    exact (List.nodup_append'.mp hauctions).1
  have hplaced : (placedIds (biddingMachine.history .new (js ++ [.submitBid c]))).Nodup := by
    rw [Machine.history_append, placedIds, List.filterMap_append, List.map_append] at hbids
    exact (List.nodup_append'.mp hbids).1
  have hperm := ((booked_run hcreated).ranked c.auctionId).perm
  have hnodup := (hperm.map Bid.bidId).nodup_iff.mpr ((ids_sublist c.auctionId _).nodup hplaced)
  rw [Machine.run_concat] at hnodup ⊢
  generalize biddingMachine.run .new js = e at hresult hnodup ⊢
  rw [Machine.next, call_submitBid] at hnodup ⊢
  rw [call_submitBid] at hresult
  obtain rfl := BiddingResult.submitted.inj (Except.ok.inj hresult)
  rcases submitBid_cases e c with ⟨auction, hget, -, -, hsubmit⟩ | ⟨message, hsubmit⟩
  · rw [hsubmit, bidsOf_setBids hget, if_pos rfl] at hnodup ⊢
    have hmem : c.bid ∈ c.ranked auction.bids :=
      (List.mem_insertionSort bidOrder).mpr (List.mem_append_right _ List.mem_cons_self)
    obtain ⟨above, below, hlist⟩ := List.append_of_mem hmem
    rw [hlist] at hnodup
    refine ⟨above, below, hlist, ?_⟩
    rw [hlist]
    exact rankOf_append hnodup
  · rw [hsubmit] at haccepted
    cases haccepted

theorem awards_kept (hids : (createdIds calls).Nodup) :
    (biddingMachine.history .new calls).Pairwise AwardKept := by
  refine Machine.history_pairwise
    (K := fun e s => ∀ auctionId award, e.input = .awardAuction auctionId →
      e.result = .ok (.awarded award) → isAwarded s auctionId ∧
        bidsOf s auctionId = bidsOf e.after auctionId ∧
        ∃ first rest, bidsOf s auctionId = first :: rest ∧ award = first.award)
    ?_ ?_ calls (isFresh_run hids)
  · intro s c _ auctionId award hinput hresult
    obtain rfl : c = _ := hinput
    obtain ⟨hawarded, hfirst⟩ := awarded_cases hresult
    exact ⟨hawarded, rfl, hfirst⟩
  · intro e s c hK hfresh
    replace hfresh : IsFresh s c := hfresh
    refine ⟨fun auctionId award hinput hresult => ?_, fun auctionId award hinput hresult => ?_⟩
    · obtain ⟨hawarded, hbids, first, rest, hfirst, haward⟩ := hK auctionId award hinput hresult
      obtain ⟨hawarded', hbids'⟩ := isAwarded_next hfresh hawarded
      rw [hbids']
      exact ⟨hawarded', hbids, first, rest, hfirst, haward⟩
    · obtain ⟨hawarded, hbids, first, rest, hfirst, rfl⟩ := hK auctionId award hinput hresult
      refine ⟨(isAwarded_next hfresh hawarded).2.trans hbids, fun hagain => ?_⟩
      obtain rfl : c = _ := hagain
      exact result_awardAuction hfirst

end Runs

/-- **Every run whose auction ids and bid ids are pairwise distinct is fair.** -/
theorem auctions_fair (calls : List BiddingCall) (hauctions : (createdIds calls).Nodup)
    (hbids : (placedIds (biddingMachine.history .new calls)).Nodup) : Fair calls where
  admitted e he c receipt hinput hresult := by
    obtain ⟨js, c', ks, rfl, rfl⟩ := Machine.mem_history_iff.mp he
    obtain rfl : c' = _ := hinput
    rw [← BiddingResult.submitted.inj (Except.ok.inj hresult)]
    exact isAccepted_submitBid _ c
  accepted auctionId := ((booked_run hauctions).ranked auctionId).perm
  ordered auctionId :=
    ((booked_run hauctions).ranked auctionId).ordered.imp precedes_of_ranksBefore
  ceiling := (booked_run hauctions).ceiling
  rank e he c receipt hinput hresult haccepted := by
    obtain ⟨js, c', ks, rfl, rfl⟩ := Machine.mem_history_iff.mp he
    obtain rfl : c' = _ := hinput
    have hrank := rank_eq hauctions hbids hresult haccepted
    rwa [Machine.run_concat] at hrank
  winner e he auctionId first rest hinput hfirst := by
    obtain ⟨js, c, ks, rfl, rfl⟩ := Machine.mem_history_iff.mp he
    obtain rfl : c = _ := hinput
    exact result_awardAuction hfirst
  kept := awards_kept hauctions

/-- A bid of 800 and one of 700, for an auction that is open for half an hour; the lower one is
ranked first and wins. -/
def twoBids : List BiddingCall :=
  [.createSpotAuction
      { shipmentId := "S-1", origin := "10115", destination := "80331", equipment := .FLATBED,
        ceilingRate := 900, idNow := 0, now := 0 },
    .submitBid ⟨stampId "AUC-" 0, "C-1", 800, none, 90, 1, 1, js "0.ab", 1⟩,
    .submitBid ⟨stampId "AUC-" 0, "C-2", 700, none, 80, 2, 2, js "0.cd", 2⟩,
    .awardAuction (stampId "AUC-" 0)]

theorem auctions_fair_two : Fair twoBids :=
  auctions_fair twoBids (by decide) (by decide +kernel)

end Logix.Logistics
