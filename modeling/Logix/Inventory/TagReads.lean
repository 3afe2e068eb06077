import Mathlib.Data.List.Chain
import Logix.Js.Date
import Logix.Js.Map
import Logix.Spec.Slots

/-!
# Tag reads

A read of a tag is dropped when it comes less than 2500 ms after the last one that was accepted. The
reads of many tags come interleaved, in any order of their timestamps.

* `RfidAntennaStreamProcessor.processTagScan`, `getTagLocation`: the code, and the machine of its
  runs;
* `debounceTag`: the machine of one tag; `rfidMachine_slotted`: the code runs it for every tag;
* `Debounced`: the accepted reads of a tag, its location, and what the results say of them;
* **`processTagScan_debounced`**: this holds of every tag in every stream, as if there were no reads
  of other tags.
-/

namespace Logix.Inventory

open Spec

/-- `portalZone`. -/
inductive PortalZone where
  | INBOUND_DOCK | PICK_FACE | PACK_STATION | OUTBOUND_STAGING
  deriving DecidableEq, Repr

/-- `IRfidTagRead`: what the processor reads of it. -/
structure IRfidTagRead where
  epcCode : String
  portalZone : PortalZone
  readTimestamp : JsDate
  deriving DecidableEq, Repr

/-- What `processTagScan` returns. -/
structure TagScan where
  isAccepted : Bool
  previousZone : Option PortalZone
  newZone : PortalZone
  deriving DecidableEq, Repr

/-- **`RfidAntennaStreamProcessor`.** -/
structure RfidAntennaStreamProcessor where
  lastSeenTags : JsMap String JsDate
  locationIndex : JsMap String PortalZone

namespace RfidAntennaStreamProcessor

/-- `tagDebounceWindowMs`. -/
def tagDebounceWindowMs : ℤ := 2500

/-- `new RfidAntennaStreamProcessor()`. -/
def new : RfidAntennaStreamProcessor := ⟨.empty, .empty⟩

/-- `lastSeen && now.getTime() - lastSeen.getTime() < this.tagDebounceWindowMs`. -/
def bounces (lastSeen : Option JsDate) (now : JsDate) : Bool :=
  match lastSeen with
  | none => false
  | some lastSeen => now - lastSeen < tagDebounceWindowMs

/-- **`processTagScan(read)`.** -/
def processTagScan (s : RfidAntennaStreamProcessor) (read : IRfidTagRead) :
    RfidAntennaStreamProcessor × TagScan :=
  let lastSeen := s.lastSeenTags.get read.epcCode
  let now := read.readTimestamp
  if bounces lastSeen now then
    (s, { isAccepted := false, previousZone := none, newZone := read.portalZone })
  else
    let previousZone := s.locationIndex.get read.epcCode
    ({ lastSeenTags := s.lastSeenTags.set read.epcCode now
       locationIndex := s.locationIndex.set read.epcCode read.portalZone },
      { isAccepted := true, previousZone := previousZone, newZone := read.portalZone })

/-- **`getTagLocation(epcCode)`.** -/
def getTagLocation (s : RfidAntennaStreamProcessor) (epcCode : String) : Option PortalZone :=
  s.locationIndex.get epcCode

end RfidAntennaStreamProcessor

open RfidAntennaStreamProcessor

/-- The runs of the processor. -/
def rfidMachine : Machine RfidAntennaStreamProcessor IRfidTagRead TagScan where
  call read s := s.processTagScan read

/-! ## One tag -/

/-- What the processor keeps of one tag. -/
structure TagSlot where
  lastSeen : Option JsDate
  location : Option PortalZone
  deriving DecidableEq, Repr

/-- **The machine of one tag.** -/
def debounceTag : Machine TagSlot IRfidTagRead TagScan where
  call read slot :=
    if bounces slot.lastSeen read.readTimestamp then
      (slot, { isAccepted := false, previousZone := none, newZone := read.portalZone })
    else
      (⟨some read.readTimestamp, some read.portalZone⟩,
        { isAccepted := true, previousZone := slot.location, newZone := read.portalZone })

/-- The slot of a tag. -/
def tagSlot (epcCode : String) (s : RfidAntennaStreamProcessor) : TagSlot :=
  ⟨s.lastSeenTags.get epcCode, s.locationIndex.get epcCode⟩

/-- **The processor runs the machine of one tag for every tag.** -/
theorem rfidMachine_slotted : rfidMachine.Slotted debounceTag IRfidTagRead.epcCode tagSlot where
  own s read := by
    simp only [Machine.next, rfidMachine, processTagScan, debounceTag, tagSlot]
    split_ifs
    · rfl
    · simp only [JsMap.get_set_self]
  other s read epcCode h := by
    simp only [Machine.next, rfidMachine, processTagScan, tagSlot]
    split_ifs
    · rfl
    · simp only [JsMap.get_set_ne h]

/-- The accepted reads. -/
def acceptedReads (es : List (IRfidTagRead × TagScan)) : List IRfidTagRead :=
  (es.filter fun e => e.2.isAccepted).map Prod.fst

/-- `read'` comes at least 2500 ms after `read`. -/
def WellAfter (read read' : IRfidTagRead) : Prop :=
  read.readTimestamp + 2500 ≤ read'.readTimestamp

/-- **The reads of a tag are debounced**, and `location` is where it was seen last. -/
structure Debounced (es : List (IRfidTagRead × TagScan)) (location : Option PortalZone) : Prop where
  /-- Accepted reads are at least 2500 ms apart. -/
  spaced : (acceptedReads es).Pairwise WellAfter
  /-- A rejected read comes less than 2500 ms after the last accepted one. -/
  rejected : ∀ before read scan after, es = before ++ (read, scan) :: after →
    scan.isAccepted = false → ∃ last ∈ (acceptedReads before).getLast?,
      read.readTimestamp < last.readTimestamp + 2500
  /-- The previous zone is that of the accepted read before. -/
  previousZone : ∀ before read scan after, es = before ++ (read, scan) :: after →
    scan.isAccepted = true →
      scan.previousZone = (acceptedReads before).getLast?.map IRfidTagRead.portalZone
  /-- The location is the zone of the last accepted read. -/
  location : location = (acceptedReads es).getLast?.map IRfidTagRead.portalZone

/-- The slot of a tag whose accepted reads are `reads`. -/
def slotAfter (reads : List IRfidTagRead) : TagSlot :=
  ⟨reads.getLast?.map IRfidTagRead.readTimestamp, reads.getLast?.map IRfidTagRead.portalZone⟩

theorem acceptedReads_append (es es' : List (IRfidTagRead × TagScan)) :
    acceptedReads (es ++ es') = acceptedReads es ++ acceptedReads es' := by
  rw [acceptedReads, List.filter_append, List.map_append]
  rfl

theorem call_slotAfter (reads : List IRfidTagRead) (read : IRfidTagRead) :
    (∃ last ∈ reads.getLast?, read.readTimestamp < last.readTimestamp + 2500 ∧
      debounceTag.call read (slotAfter reads) =
        (slotAfter reads, ⟨false, none, read.portalZone⟩)) ∨
    ((∀ last ∈ reads.getLast?, WellAfter last read) ∧
      debounceTag.call read (slotAfter reads) = (slotAfter (reads ++ [read]),
        ⟨true, reads.getLast?.map IRfidTagRead.portalZone, read.portalZone⟩)) := by
  have hnew : slotAfter (reads ++ [read]) = ⟨some read.readTimestamp, some read.portalZone⟩ := by
    rw [slotAfter, List.getLast?_concat]
    rfl
  rw [hnew]
  cases hlast : reads.getLast? with
  | none =>
    have hslot : slotAfter reads = ⟨none, none⟩ := by rw [slotAfter, hlast]; rfl
    rw [hslot]
    exact Or.inr ⟨fun last h => (Option.not_mem_none last h).elim, rfl⟩
  | some last =>
    have hslot : slotAfter reads = ⟨some last.readTimestamp, some last.portalZone⟩ := by
      rw [slotAfter, hlast]
      rfl
    by_cases hsoon : read.readTimestamp - last.readTimestamp < tagDebounceWindowMs
    · refine Or.inl ⟨last, rfl, sub_lt_iff_lt_add'.mp hsoon, ?_⟩
      rw [hslot]
      exact if_pos (decide_eq_true hsoon)
    · refine Or.inr ⟨fun last' h => ?_, ?_⟩
      · obtain rfl := Option.some.inj (Option.mem_def.mp h)
        exact le_sub_iff_add_le'.mp (not_lt.mp hsoon)
      · rw [hslot]
        exact if_neg (by simpa [bounces] using hsoon)

instance : Trans WellAfter WellAfter WellAfter where
  trans h h' := le_trans (le_trans h (le_add_of_nonneg_right (by decide))) h'

/-- The calls of one tag, and their results. -/
def tagEntries (reads : List IRfidTagRead) : List (IRfidTagRead × TagScan) :=
  entries (debounceTag.history ⟨none, none⟩ reads)

/-- **After any reads of one tag**, its slot is that of the accepted ones, each well after the one
before it. -/
theorem run_debounceTag (reads : List IRfidTagRead) :
    debounceTag.run ⟨none, none⟩ reads = slotAfter (acceptedReads (tagEntries reads)) ∧
      (acceptedReads (tagEntries reads)).IsChain WellAfter := by
  refine Machine.history_induction (M := debounceTag) (J := fun es slot =>
    slot = slotAfter (acceptedReads (entries es)) ∧ (acceptedReads (entries es)).IsChain WellAfter)
    ⟨rfl, List.IsChain.nil⟩ ?_ reads
  rintro es _ read ⟨rfl, hspaced⟩
  have hes : entries (es ++ [debounceTag.event (slotAfter (acceptedReads (entries es))) read]) =
      entries es ++ [(read, (debounceTag.call read (slotAfter (acceptedReads (entries es)))).2)] :=
    List.map_append
  rw [hes, acceptedReads_append, Machine.next]
  obtain ⟨last, -, -, hcall⟩ | ⟨hlate, hcall⟩ := call_slotAfter (acceptedReads (entries es)) read
  · rw [hcall]
    have hnone : acceptedReads [(read, (⟨false, none, read.portalZone⟩ : TagScan))] = [] := rfl
    rw [hnone, List.append_nil]
    exact ⟨rfl, hspaced⟩
  · rw [hcall]
    refine ⟨rfl, List.isChain_append.mpr ⟨hspaced, List.isChain_singleton _, ?_⟩⟩
    intro last hlast read' hread'
    obtain rfl := Option.some.inj (Option.mem_def.mp hread')
    exact hlate last hlast

theorem call_of_tagEntries {reads : List IRfidTagRead}
    {before after : List (IRfidTagRead × TagScan)} {read : IRfidTagRead} {scan : TagScan}
    (h : tagEntries reads = before ++ (read, scan) :: after) :
    (debounceTag.call read (slotAfter (acceptedReads before))).2 = scan := by
  obtain ⟨es, es', hes, rfl, hafter⟩ := List.map_eq_append_iff.mp h
  obtain ⟨e, post, rfl, he, -⟩ := List.map_eq_cons_iff.mp hafter
  obtain ⟨js, j, ks, -, rfl, rfl⟩ := Machine.exists_of_history_eq hes
  obtain ⟨rfl, hscan⟩ := Prod.mk.inj he
  exact (congrArg (fun slot => (debounceTag.call j slot).2) (run_debounceTag js).1).symm.trans hscan

theorem tagEntries_debounced (reads : List IRfidTagRead) :
    Debounced (tagEntries reads) (debounceTag.run ⟨none, none⟩ reads).location where
  spaced := List.isChain_iff_pairwise.mp (run_debounceTag reads).2
  rejected before read scan after h hrejected := by
    have hscan := call_of_tagEntries h
    obtain ⟨last, hlast, hsoon, -⟩ | ⟨-, hcall⟩ := call_slotAfter (acceptedReads before) read
    · exact ⟨last, hlast, hsoon⟩
    · rw [hcall] at hscan
      subst hscan
      cases hrejected
  previousZone before read scan after h haccepted := by
    have hscan := call_of_tagEntries h
    obtain ⟨last, -, -, hcall⟩ | ⟨-, hcall⟩ := call_slotAfter (acceptedReads before) read
    · rw [hcall] at hscan
      subst hscan
      cases haccepted
    · rw [hcall] at hscan
      subst hscan
      rfl
  location := congrArg TagSlot.location (run_debounceTag reads).1

/-! ## All tags -/

/-- The calls of a tag in a stream, and their results. -/
def scansOf (epcCode : String) (reads : List IRfidTagRead) : List (IRfidTagRead × TagScan) :=
  entriesOf IRfidTagRead.epcCode epcCode (rfidMachine.history new reads)

/-- The location of a tag after a stream. -/
def locationOf (epcCode : String) (reads : List IRfidTagRead) : Option PortalZone :=
  (rfidMachine.run new reads).getTagLocation epcCode

/-- The reads of a tag. -/
def readsOf (epcCode : String) (reads : List IRfidTagRead) : List IRfidTagRead :=
  reads.filter fun read => read.epcCode = epcCode

/-- **Every tag of every stream is debounced**, and neither its results nor its location depend on
the reads of other tags. -/
theorem processTagScan_debounced (reads : List IRfidTagRead) (epcCode : String) :
    Debounced (scansOf epcCode reads) (locationOf epcCode reads) ∧
      scansOf epcCode reads = entries (rfidMachine.history new (readsOf epcCode reads)) ∧
        locationOf epcCode reads = locationOf epcCode (readsOf epcCode reads) := by
  have hscans : scansOf epcCode reads = tagEntries (readsOf epcCode reads) :=
    rfidMachine_slotted.entriesOf_history new reads epcCode
  have hlocation : locationOf epcCode reads =
      (debounceTag.run ⟨none, none⟩ (readsOf epcCode reads)).location :=
    congrArg TagSlot.location (rfidMachine_slotted.slot_run new reads epcCode)
  refine ⟨?_, rfidMachine_slotted.entriesOf_filter new reads epcCode,
    congrArg TagSlot.location (rfidMachine_slotted.slot_run_filter new reads epcCode)⟩
  rw [hscans, hlocation]
  exact tagEntries_debounced (readsOf epcCode reads)

end Logix.Inventory
