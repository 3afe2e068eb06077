import Mathlib.Logic.Function.Basic
import Logix.Js.Bits
import Logix.Spec.Machine

/-!
# The ring buffer

An item is written to the slot of its sequence number, masked to the capacity.

* `HighThroughputDisruptorRingBuffer`: the code; `ringMachine`: the machine of its runs;
* `Window`: the slots hold the last items; **`Window.publish`**: a publication keeps this;
* **`publish_window`**: the sequence numbers count the publications, and the last ones are read
  back.
-/

namespace Logix.Common

open Spec

/-- **`HighThroughputDisruptorRingBuffer`**; an array is read and written at any integer. -/
structure HighThroughputDisruptorRingBuffer (T : Type) where
  buffer : ℤ → Option T
  capacity : ℕ
  mask : ℤ
  sequence : ℕ

namespace HighThroughputDisruptorRingBuffer

variable {T : Type}

/-- `new HighThroughputDisruptorRingBuffer(powerOfTwoCapacity)`. -/
def new (powerOfTwoCapacity : ℕ := 1024) : HighThroughputDisruptorRingBuffer T where
  buffer _ := none
  capacity := powerOfTwoCapacity
  mask := powerOfTwoCapacity - 1
  sequence := 0

/-- **`publish(item)`.** -/
def publish (item : T) (s : HighThroughputDisruptorRingBuffer T) :
    HighThroughputDisruptorRingBuffer T × ℕ :=
  let currentSeq := s.sequence
  let idx := bitAnd currentSeq s.mask
  ({ s with
      buffer := Function.update s.buffer idx (some item)
      sequence := increment currentSeq },
    currentSeq)

/-- **`get(seq)`.** -/
def get (s : HighThroughputDisruptorRingBuffer T) (seq : ℤ) : Option T :=
  s.buffer (bitAnd seq s.mask)

end HighThroughputDisruptorRingBuffer

open HighThroughputDisruptorRingBuffer

variable {T : Type}

/-- The runs of a ring buffer. -/
def ringMachine (T : Type) : Machine (HighThroughputDisruptorRingBuffer T) T ℕ where
  call item s := s.publish item

/-- **The slots hold the last items**, each at the remainder of its number. -/
structure Window (k : ℕ) (items : List T) (s : HighThroughputDisruptorRingBuffer T) : Prop where
  mask_eq : s.mask = (2 ^ k - 1 : ℕ)
  sequence_eq : s.sequence = items.length
  slots : ∀ seq < items.length, items.length ≤ seq + 2 ^ k →
    s.buffer (seq % 2 ^ k : ℕ) = items[seq]?

theorem window_new (k : ℕ) : Window k ([] : List T) (new (2 ^ k)) where
  mask_eq := by
    rw [new, Nat.cast_sub Nat.one_le_two_pow]
    rfl
  sequence_eq := rfl
  slots _ h := absurd h (Nat.not_lt_zero _)

theorem mod_ne_mod_of_lt {m n c : ℕ} (hlt : m < n) (hn : n < m + c) : m % c ≠ n % c := by
  intro heq
  have hdvd : c ∣ n - m := Nat.dvd_of_mod_eq_zero (Nat.sub_mod_eq_zero_of_mod_eq heq.symm)
  have hle : c ≤ n - m := Nat.le_of_dvd (Nat.sub_pos_of_lt hlt) hdvd
  omega

/-- **A publication keeps the window**: it overwrites the slot of the item that leaves it. -/
theorem Window.publish {k : ℕ} {items : List T} {s : HighThroughputDisruptorRingBuffer T}
    (h : Window k items s) (hk : k ≤ 31) (hn : items.length < 2 ^ 53) (item : T) :
    Window k (items ++ [item]) (s.publish item).1 where
  mask_eq := h.mask_eq
  sequence_eq := by
    rw [HighThroughputDisruptorRingBuffer.publish, List.length_append, h.sequence_eq]
    exact if_pos hn
  slots seq hseq hlast := by
    rw [List.length_append, List.length_singleton] at hseq hlast
    have hidx : bitAnd s.sequence s.mask = (items.length % 2 ^ k : ℕ) := by
      rw [h.mask_eq, h.sequence_eq, bitAnd_two_pow_sub_one hk]
    simp only [HighThroughputDisruptorRingBuffer.publish, hidx]
    rcases Nat.lt_succ_iff_lt_or_eq.mp hseq with hold | rfl
    · have hne : seq % 2 ^ k ≠ items.length % 2 ^ k := mod_ne_mod_of_lt hold (by omega)
      rw [Function.update_of_ne (Nat.cast_injective.ne hne), List.getElem?_append_left hold]
      exact h.slots seq hold (by omega)
    · rw [Function.update_self, List.getElem?_concat_length]

/-- **After any publications** the numbers count them, and the slots hold the last items. -/
theorem run_publish {k : ℕ} (hk : k ≤ 31) {items : List T} (hn : items.length ≤ 2 ^ 53) :
    ((ringMachine T).history (new (2 ^ k)) items).map Event.result = List.range items.length ∧
      Window k items ((ringMachine T).run (new (2 ^ k)) items) := by
  induction items using List.reverseRecOn with
  | nil => exact ⟨rfl, window_new k⟩
  | append_singleton items item ih =>
    rw [List.length_append, List.length_singleton] at hn ⊢
    obtain ⟨hresults, hwindow⟩ := ih (by omega)
    constructor
    · rw [Machine.history_append, List.map_append, hresults, List.range_succ]
      exact congrArg (_ ++ [·]) hwindow.sequence_eq
    · rw [Machine.run_append]
      exact hwindow.publish hk (by omega) item

/-- **The window of a ring buffer**: `publish` counts from 0 on, and `get` finds the last items by
their numbers. -/
theorem publish_window (T : Type) (k : ℕ) (hk : k ≤ 31) (items : List T)
    (hn : items.length ≤ 2 ^ 53) :
    ((ringMachine T).history (new (2 ^ k)) items).map Event.result = List.range items.length ∧
      ∀ seq < items.length, items.length ≤ seq + 2 ^ k →
        ((ringMachine T).run (new (2 ^ k)) items).get seq = items[seq]? := by
  obtain ⟨hresults, hwindow⟩ := run_publish hk hn
  refine ⟨hresults, fun seq hseq hlast => ?_⟩
  rw [HighThroughputDisruptorRingBuffer.get, hwindow.mask_eq, bitAnd_two_pow_sub_one hk]
  exact hwindow.slots seq hseq hlast

/-- A case: three items in two slots. -/
theorem publish_window_three :
    ((ringMachine ℕ).history (new (2 ^ 1)) [10, 11, 12]).map Event.result = List.range 3 ∧
      ∀ seq : ℕ, seq < 3 → 3 ≤ seq + 2 ^ 1 →
        ((ringMachine ℕ).run (new (2 ^ 1)) [10, 11, 12]).get seq = [10, 11, 12][seq]? :=
  publish_window ℕ 1 (by decide) [10, 11, 12] (by decide)

end Logix.Common
