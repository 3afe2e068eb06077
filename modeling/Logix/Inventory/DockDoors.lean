import Logix.Js.Date
import Logix.Spec.Registry

/-!
# The appointments of the dock doors

`AutomatedDockDoorAppointmentScheduler` books an appointment on the first eligible door without a
conflict.

* `eligibleDoors`, `hasConflict`, `bookAppointment`, `dockMachine`: the code;
* `Overlap`, `Clash`, `NoDoubleBooking`: no two appointments of a door share an instant;
* `Encloses`: a requested time that begins before an appointment and ends after it, which the
  conflict test does not see (`clash_iff_encloses`);
* `dockRegistry`, `dockStamped`: the appointments as records whose ids are made of the clock;
* **`no_double_booking_iff`**: there is no double booking exactly when no booked time encloses an
  appointment of its door;
* `long_over_short`: a long appointment over a short one.
-/

namespace Logix.Inventory

open Spec

/-- `doorType`. -/
inductive DoorType where
  | INBOUND_UNLOAD | OUTBOUND_LOAD | DUAL_PURPOSE
  deriving DecidableEq, Repr

/-- `status` of an appointment. -/
inductive AppointmentStatus where
  | BOOKED | CHECKED_IN | AT_DOCK | COMPLETED | CANCELLED | NO_SHOW
  deriving DecidableEq, Repr

/-- `IDockDoor`. -/
structure IDockDoor where
  doorId : String
  doorNumber : String
  warehouseId : String
  doorType : DoorType
  hasColdTunnelSeal : Bool
  maxTrailerLengthFeet : ℚ
  isOperational : Bool
  deriving DecidableEq, Repr

/-- `IAppointmentSlot`. -/
structure IAppointmentSlot where
  appointmentId : JsString
  doorId : String
  carrierCode : String
  scheduledStart : Option JsDate
  scheduledEnd : Option JsDate
  status : AppointmentStatus
  deriving DecidableEq, Repr

/-- The arguments of `bookAppointment`, with their defaults. -/
structure AppointmentRequest where
  warehouseId : String
  carrierCode : String
  doorType : DoorType
  startTime : Option JsDate
  durationMinutes : ℚ := 60
  requiresColdSeal : Bool := false
  deriving DecidableEq, Repr

/-- `new Date(startTime.getTime() + durationMinutes * 60000)`. -/
def AppointmentRequest.endTime (b : AppointmentRequest) : Option JsDate :=
  b.startTime.bind fun startTime => dateOf (startTime + b.durationMinutes * 60000)

/-- **`AutomatedDockDoorAppointmentScheduler`.** -/
structure AutomatedDockDoorAppointmentScheduler where
  doors : JsMap String IDockDoor
  appointments : JsMap JsString IAppointmentSlot

namespace AutomatedDockDoorAppointmentScheduler

/-- `new AutomatedDockDoorAppointmentScheduler()`. -/
def new : AutomatedDockDoorAppointmentScheduler := ⟨.empty, .empty⟩

/-- `registerDoor(door)`. -/
def registerDoor (s : AutomatedDockDoorAppointmentScheduler) (door : IDockDoor) :
    AutomatedDockDoorAppointmentScheduler := { s with doors := s.doors.set door.doorId door }

/-- `eligibleDoors`. -/
def eligibleDoors (s : AutomatedDockDoorAppointmentScheduler) (b : AppointmentRequest) :
    List IDockDoor :=
  s.doors.values.filter fun d =>
    d.warehouseId = b.warehouseId ∧
    d.isOperational ∧
    (d.doorType = b.doorType ∨ d.doorType = .DUAL_PURPOSE) ∧
    (!b.requiresColdSeal ∨ d.hasColdTunnelSeal)

/-- `hasConflict` of a door. -/
def hasConflict (s : AutomatedDockDoorAppointmentScheduler) (b : AppointmentRequest)
    (door : IDockDoor) : Bool :=
  s.appointments.values.any fun app =>
    app.doorId = door.doorId ∧
    app.status ≠ .CANCELLED ∧
    ((dateLe app.scheduledStart b.startTime ∧ dateLt b.startTime app.scheduledEnd) ∨
     (dateLt app.scheduledStart b.endTime ∧ dateLe b.endTime app.scheduledEnd))

/-- The door that the loop of `bookAppointment` finds. -/
def freeDoor (s : AutomatedDockDoorAppointmentScheduler) (b : AppointmentRequest) :
    Option IDockDoor := (s.eligibleDoors b).find? fun door => !s.hasConflict b door

/-- The appointment that `bookAppointment` makes; `now` is the clock that it reads. -/
def newSlot (b : AppointmentRequest) (now : JsDate) (door : IDockDoor) : IAppointmentSlot where
  appointmentId := stampId "DOCK-APT-" now
  doorId := door.doorId
  carrierCode := b.carrierCode
  scheduledStart := b.startTime
  scheduledEnd := b.endTime
  status := .BOOKED

/-- **`bookAppointment`.** -/
def bookAppointment (s : AutomatedDockDoorAppointmentScheduler) (b : AppointmentRequest)
    (now : JsDate) : AutomatedDockDoorAppointmentScheduler × Except String IAppointmentSlot :=
  if (s.eligibleDoors b).isEmpty then
    (s, .error "No eligible dock doors found matching the requested facility criteria")
  else
    match s.freeDoor b with
    | some door =>
      let slot := newSlot b now door
      ({ s with appointments := s.appointments.set slot.appointmentId slot }, .ok slot)
    | none => (s, .error "All eligible dock doors are fully booked for the requested time window")

end AutomatedDockDoorAppointmentScheduler

open AutomatedDockDoorAppointmentScheduler

/-- The calls. -/
inductive DockCall where
  | registerDoor (door : IDockDoor)
  | bookAppointment (b : AppointmentRequest) (now : JsDate)
  deriving DecidableEq, Repr

/-- The duration of a booking is positive. -/
def DockCall.Positive : DockCall → Prop
  | .registerDoor _ => True
  | .bookAppointment b _ => 0 < b.durationMinutes

instance : DecidablePred DockCall.Positive
  | .registerDoor _ => .isTrue trivial
  | .bookAppointment b _ => inferInstanceAs (Decidable (0 < b.durationMinutes))

/-- The clock readings of a call. -/
def DockCall.clocks : DockCall → List JsDate
  | .registerDoor _ => []
  | .bookAppointment _ now => [now]

/-- The results of the calls. -/
inductive DockResult where
  | registered
  | booked (slot : Except String IAppointmentSlot)

/-- The scheduler under its calls. -/
def dockMachine : Machine AutomatedDockDoorAppointmentScheduler DockCall DockResult where
  call
    | .registerDoor door, s => (s.registerDoor door, .registered)
    | .bookAppointment b now, s =>
      let (s', slot) := s.bookAppointment b now
      (s', .booked slot)

/-- The appointment that a call made. -/
def DockResult.slot : DockResult → Option IAppointmentSlot
  | .registered | .booked (.error _) => none
  | .booked (.ok slot) => some slot

/-! ## Overlaps -/

/-- The instant is in the half-open time of the appointment. -/
def IAppointmentSlot.During (a : IAppointmentSlot) (t : ℤ) : Prop :=
  ∃ x y, a.scheduledStart = some x ∧ a.scheduledEnd = some y ∧ x ≤ t ∧ t < y

/-- **Two appointments share an instant.** -/
def Overlap (a b : IAppointmentSlot) : Prop := ∃ t, a.During t ∧ b.During t

/-- Two appointments that hold, on one door, overlap. -/
def Clash (a b : IAppointmentSlot) : Prop :=
  a.status ≠ .CANCELLED ∧ b.status ≠ .CANCELLED ∧ a.doorId = b.doorId ∧ Overlap a b

/-- **No door is booked twice.** -/
def NoDoubleBooking (s : AutomatedDockDoorAppointmentScheduler) : Prop :=
  s.appointments.Apart fun a b => ¬ Clash a b

/-- **The requested time begins before the appointment and ends after it.** -/
def Encloses (b : AppointmentRequest) (a : IAppointmentSlot) : Prop :=
  ∃ s e x y, b.startTime = some s ∧ b.endTime = some e ∧ a.scheduledStart = some x ∧
    a.scheduledEnd = some y ∧ s < x ∧ x < y ∧ y < e

/-- A call that books no time which encloses an appointment of the door. -/
def Fits (s : AutomatedDockDoorAppointmentScheduler) : DockCall → Prop
  | .registerDoor _ => True
  | .bookAppointment b _ => ∀ door ∈ s.freeDoor b, ∀ a ∈ s.appointments.values,
    a.doorId = door.doorId → a.status ≠ .CANCELLED → ¬ Encloses b a

theorem clash_comm {a b : IAppointmentSlot} (h : Clash a b) : Clash b a := by
  obtain ⟨ha, hb, hdoor, t, hat, hbt⟩ := h
  exact ⟨hb, ha, hdoor.symm, t, hbt, hat⟩

section Step

variable {s : AutomatedDockDoorAppointmentScheduler}

theorem not_hasConflict_of_freeDoor {b : AppointmentRequest} {door : IDockDoor}
    (h : s.freeDoor b = some door) : s.hasConflict b door = false := by
  simpa using List.find?_some h

/-- **What the conflict test misses**: an appointment of a free door overlaps the new one exactly
when the requested time encloses it. -/
theorem clash_iff_encloses {b : AppointmentRequest} {door : IDockDoor} {a : IAppointmentSlot}
    (now : JsDate) (hfree : s.hasConflict b door = false) (ha : a ∈ s.appointments.values) :
    Clash a (newSlot b now door) ↔
      a.doorId = door.doorId ∧ a.status ≠ .CANCELLED ∧ Encloses b a := by
  have hmiss := List.any_eq_false.mp hfree a ha
  simp only [decide_eq_true_eq, not_and, not_or, dateLe_iff, dateLt_iff] at hmiss
  constructor
  · rintro ⟨hactive, -, hdoor, t, ⟨x, y, hx, hy, hxt, hty⟩, ⟨u, e, hu, he, hut, hte⟩⟩
    obtain ⟨hstart, hend⟩ := hmiss hdoor hactive
    refine ⟨hdoor, hactive, u, e, x, y, hu, he, hx, hy, ?_, hxt.trans_lt hty, ?_⟩
    · by_contra hxu
      exact hstart ⟨x, u, hx, hu, not_lt.mp hxu⟩ ⟨u, y, hu, hy, hut.trans_lt hty⟩
    · by_contra hye
      exact hend ⟨x, e, hx, he, hxt.trans_lt hte⟩ ⟨e, y, he, hy, not_lt.mp hye⟩
  · rintro ⟨hdoor, hactive, u, e, x, y, hu, he, hx, hy, hux, hxy, hye⟩
    refine ⟨hactive, AppointmentStatus.noConfusion, hdoor, x, ?_, ?_⟩
    · exact ⟨x, y, hx, hy, le_refl x, hxy⟩
    · exact ⟨u, e, hu, he, hux.le, hxy.trans hye⟩

/-- **What a booking does**: it stores the appointment on the free door, or nothing. -/
theorem bookAppointment_cases (s : AutomatedDockDoorAppointmentScheduler) (b : AppointmentRequest)
    (now : JsDate) :
    (∃ door, s.freeDoor b = some door ∧ s.bookAppointment b now =
      ({ s with appointments :=
          s.appointments.set (stampId "DOCK-APT-" now) (newSlot b now door) },
        .ok (newSlot b now door))) ∨
    (s.freeDoor b = none ∧ ∃ message, s.bookAppointment b now = (s, .error message)) := by
  unfold bookAppointment
  cases hfree : s.freeDoor b with
  | none =>
    refine Or.inr ⟨rfl, ?_⟩
    split_ifs
    · exact ⟨_, rfl⟩
    · exact ⟨_, rfl⟩
  | some door =>
    have hdoor : door ∈ s.eligibleDoors b := List.mem_of_find?_eq_some hfree
    have hne : (s.eligibleDoors b).isEmpty = false := by
      simpa using List.ne_nil_of_mem hdoor
    refine Or.inl ⟨door, rfl, ?_⟩
    rw [hne]
    rfl

end Step

/-- **The appointments as a registry.** -/
def dockRegistry : Registry dockMachine JsString IAppointmentSlot where
  table := appointments
  returned := DockResult.slot
  idOf := IAppointmentSlot.appointmentId
  table_next s i := by
    cases i with
    | registerDoor door => rfl
    | bookAppointment b now =>
      rcases bookAppointment_cases s b now with ⟨door, -, h⟩ | ⟨-, message, h⟩ <;>
        simp only [Machine.next, dockMachine, h] <;> rfl

/-- **The ids are made of the clock** that a booking reads when it has found a door. -/
def dockStamped : Stamped dockRegistry JsDate where
  succeeds
    | .registerDoor _, _ => false
    | .bookAppointment b _, s => (s.freeDoor b).isSome
  stamp
    | .registerDoor _ => none
    | .bookAppointment _ now => some now
  key := stampId "DOCK-APT-"
  key_injective := stampId_injective "DOCK-APT-"
  isSome_returned s i := by
    cases i with
    | registerDoor door => rfl
    | bookAppointment b now =>
      rcases bookAppointment_cases s b now with ⟨door, hfree, h⟩ | ⟨hnone, message, h⟩
      · simp only [dockMachine, h, hfree]
        rfl
      · simp only [dockMachine, h, hnone]
        rfl
  idOf_returned s i slot hslot := by
    cases i with
    | registerDoor door => cases hslot
    | bookAppointment b now =>
      rcases bookAppointment_cases s b now with ⟨door, -, h⟩ | ⟨-, message, h⟩
      · simp only [dockMachine, h] at hslot
        cases hslot
        rfl
      · simp only [dockMachine, h] at hslot
        cases hslot

theorem noDoubleBooking_next_iff (s : AutomatedDockDoorAppointmentScheduler) (i : DockCall)
    (hfresh : ∀ slot, (dockMachine.call i s).2.slot = some slot →
      slot.appointmentId ∉ s.appointments.keys) :
    NoDoubleBooking (dockMachine.next s i) ↔ NoDoubleBooking s ∧ Fits s i := by
  cases i with
  | registerDoor door => exact (and_iff_left trivial).symm
  | bookAppointment b now =>
    rcases bookAppointment_cases s b now with ⟨door, hfree, h⟩ | ⟨hnone, message, h⟩
    · have hcall : dockMachine.call (.bookAppointment b now) s =
          ({ s with appointments :=
              s.appointments.set (stampId "DOCK-APT-" now) (newSlot b now door) },
            .booked (.ok (newSlot b now door))) := by simp only [dockMachine, h]
      have hkey := hfresh (newSlot b now door) (by rw [hcall]; rfl)
      rw [Machine.next, hcall]
      refine (JsMap.apart_set_iff (fun v w hvw hc => hvw (clash_comm hc)) hkey _).trans ?_
      refine and_congr_right fun _ => ?_
      simp only [Fits, hfree, Option.mem_some_iff, forall_eq']
      refine forall₂_congr fun a ha => ?_
      rw [clash_iff_encloses now (not_hasConflict_of_freeDoor hfree) ha]
      exact ⟨fun hn hdoor hactive he => hn ⟨hdoor, hactive, he⟩,
        fun hfits hc => hfits hc.1 hc.2.1 hc.2.2⟩
    · have hfits : Fits s (.bookAppointment b now) := by
        intro door hdoor
        rw [hnone] at hdoor
        cases hdoor
      have hcall : dockMachine.next s (.bookAppointment b now) = s := by
        simp only [Machine.next, dockMachine, h]
      rw [hcall]
      exact (and_iff_left hfits).symm

/-! ## Runs -/

/-- **When is no door booked twice?** In a run from a new scheduler whose generated ids are pairwise
distinct there is no double booking exactly when no booked time encloses an appointment that holds
on its door. -/
theorem no_double_booking_iff (calls : List DockCall)
    (hids : (dockRegistry.ids (dockMachine.history new calls)).Nodup) :
    NoDoubleBooking (dockMachine.run new calls) ↔
      ∀ e ∈ dockMachine.history new calls, Fits e.before e.input := by
  induction calls using List.reverseRecOn with
  | nil => exact iff_of_true (JsMap.apart_empty _) fun e he => absurd he List.not_mem_nil
  | append_singleton calls i ih =>
    have hall : ∀ e, e ∈ dockMachine.history new (calls ++ [i]) ↔
        e ∈ dockMachine.history new calls ∨ e = dockMachine.event (dockMachine.run new calls) i := by
      intro e
      rw [Machine.history_concat, List.mem_append, List.mem_singleton]
    rw [Machine.history_concat, Registry.ids, Registry.records_concat, List.map_append,
      List.nodup_append'] at hids
    obtain ⟨hpre, -, hdisjoint⟩ := hids
    have hfresh : ∀ slot, (dockMachine.call i (dockMachine.run new calls)).2.slot = some slot →
        slot.appointmentId ∉ (dockMachine.run new calls).appointments.keys := by
      intro slot hslot hmem
      have hid := (dockRegistry.mem_keys_run rfl calls slot.appointmentId).mp hmem
      refine hdisjoint hid (List.mem_map.mpr ⟨slot, ?_, rfl⟩)
      exact Option.mem_toList.mpr hslot
    rw [Machine.run_concat, noDoubleBooking_next_iff _ i hfresh, ih hpre]
    constructor
    · rintro ⟨hold, hnew⟩ e he
      rcases (hall e).mp he with he | rfl
      · exact hold e he
      · exact hnew
    · intro h
      exact ⟨fun e he => h e ((hall e).mpr (Or.inl he)), h _ ((hall _).mpr (Or.inr rfl))⟩

/-- A door of one warehouse. -/
def dockOne : IDockDoor where
  doorId := "D-1"
  doorNumber := "1"
  warehouseId := "WH-1"
  doorType := .DUAL_PURPOSE
  hasColdTunnelSeal := false
  maxTrailerLengthFeet := 53
  isOperational := true

/-- A request of so many minutes from an instant. -/
def unload (startTime : JsDate) (durationMinutes : ℚ) : AppointmentRequest where
  warehouseId := "WH-1"
  carrierCode := "C-1"
  doorType := .INBOUND_UNLOAD
  startTime := some startTime
  durationMinutes := durationMinutes

/-- Two appointments, one after the other. -/
theorem no_double_booking_in_turn :
    NoDoubleBooking (dockMachine.run new [.registerDoor dockOne,
        .bookAppointment (unload 0 60) 0, .bookAppointment (unload 3600000 60) 1]) ↔
      ∀ e ∈ dockMachine.history new [.registerDoor dockOne,
        .bookAppointment (unload 0 60) 0, .bookAppointment (unload 3600000 60) 1],
        Fits e.before e.input :=
  no_double_booking_iff _ (by decide +kernel)

/-- **A long appointment over a short one**: it begins before the other one and ends after it. -/
theorem long_over_short :
    ¬ ∀ calls : List DockCall, (∀ i ∈ calls, i.Positive) →
      (dockRegistry.ids (dockMachine.history new calls)).Nodup →
      NoDoubleBooking (dockMachine.run new calls) := by
  intro h
  have hnone := h [.registerDoor dockOne, .bookAppointment (unload 3600000 60) 0,
    .bookAppointment (unload 0 180) 1] (by decide +kernel) (by decide +kernel)
  have hshort : (dockMachine.run new [.registerDoor dockOne,
      .bookAppointment (unload 3600000 60) 0, .bookAppointment (unload 0 180) 1]).appointments.get
      (stampId "DOCK-APT-" 0) = some (newSlot (unload 3600000 60) 0 dockOne) := by decide +kernel
  have hlong : (dockMachine.run new [.registerDoor dockOne,
      .bookAppointment (unload 3600000 60) 0, .bookAppointment (unload 0 180) 1]).appointments.get
      (stampId "DOCK-APT-" 1) = some (newSlot (unload 0 180) 1 dockOne) := by decide +kernel
  refine hnone _ _ _ _ (by decide +kernel) hshort hlong ⟨by decide, by decide, rfl, 3600000, ?_⟩
  exact ⟨⟨3600000, 7200000, rfl, by decide +kernel, by decide, by decide⟩,
    ⟨0, 10800000, rfl, by decide +kernel, by decide, by decide⟩⟩

end Logix.Inventory
