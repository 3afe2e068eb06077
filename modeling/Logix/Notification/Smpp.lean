import Logix.Js.Buffer

/-!
# SMPP frames

`SmppShortMessageProtocolHandler` writes and reads the frames of SMPP 3.4: a header of four numbers,
the first of which is the length of the frame, and a body.

* `ISmppPdu`, `encodePdu`, `decodePdu`: the code; a method gives `none` where it throws;
* `IsFrame`: a complete frame, `isFrame_encodePdu`: what `encodePdu` writes is one;
* **`decodePdu_encodePdu`**: the round trip, whatever follows the frame;
* **`readsCompleteFrame_iff`**: `decodePdu` does not compare the length with the buffer.
-/

namespace Logix.Notification

/-- `ISmppPdu`. -/
structure ISmppPdu where
  commandLength : ℕ
  commandId : ℕ
  commandStatus : ℕ
  sequenceNumber : ℕ
  body : List UInt8
  deriving DecidableEq, Repr

/-- `encodePdu(commandId, sequenceNumber, body)`. -/
def encodePdu (commandId sequenceNumber : ℕ) (body : List UInt8) : Option (List UInt8) := do
  let length := 16 + body.length
  let header := bufferAlloc 16
  let header ← writeUInt32BE header length 0
  let header ← writeUInt32BE header commandId 4
  let header ← writeUInt32BE header 0 8 -- Command status
  let header ← writeUInt32BE header sequenceNumber 12
  return header ++ body

/-- `decodePdu(buf)`: `null`, or a PDU. -/
def decodePdu (buf : List UInt8) : Option (Option ISmppPdu) :=
  if buf.length < 16 then some none
  else do
    let commandLength ← readUInt32BE buf 0
    let commandId ← readUInt32BE buf 4
    let commandStatus ← readUInt32BE buf 8
    let sequenceNumber ← readUInt32BE buf 12
    let body := subarray buf 16 commandLength
    return some { commandLength, commandId, commandStatus, sequenceNumber, body }

/-! ## The round trip -/

theorem encodePdu_eq {commandId sequenceNumber : ℕ} {body : List UInt8}
    (hid : commandId < 2 ^ 32) (hseq : sequenceNumber < 2 ^ 32)
    (hbody : body.length ≤ 2 ^ 32 - 17) :
    encodePdu commandId sequenceNumber body =
      some (uint32BE (16 + body.length) ++ uint32BE commandId ++ uint32BE 0 ++
        uint32BE sequenceNumber ++ body) := by
  have hlen : 16 + body.length < 2 ^ 32 := by omega
  have hzero : (0 : ℕ) < 2 ^ 32 := by omega
  let z := bufferAlloc 4
  -- one field after another
  have h₁ : writeUInt32BE (bufferAlloc 16) (16 + body.length) 0 =
      some ([] ++ uint32BE (16 + body.length) ++ (z ++ z ++ z)) :=
    writeUInt32BE_append (a := []) (b := z) (c := z ++ z ++ z) hlen rfl
  have h₂ : writeUInt32BE ([] ++ uint32BE (16 + body.length) ++ (z ++ z ++ z)) commandId 4 =
      some (uint32BE (16 + body.length) ++ uint32BE commandId ++ (z ++ z)) :=
    writeUInt32BE_append (a := uint32BE (16 + body.length)) (b := z) (c := z ++ z) hid rfl
  have h₃ : writeUInt32BE (uint32BE (16 + body.length) ++ uint32BE commandId ++ (z ++ z)) 0 8 =
      some (uint32BE (16 + body.length) ++ uint32BE commandId ++ uint32BE 0 ++ z) :=
    writeUInt32BE_append (a := uint32BE (16 + body.length) ++ uint32BE commandId) (b := z) (c := z)
      hzero rfl
  have h₄ : writeUInt32BE (uint32BE (16 + body.length) ++ uint32BE commandId ++ uint32BE 0 ++ z)
      sequenceNumber 12 = some (uint32BE (16 + body.length) ++ uint32BE commandId ++ uint32BE 0 ++
        uint32BE sequenceNumber ++ []) :=
    writeUInt32BE_append (a := uint32BE (16 + body.length) ++ uint32BE commandId ++ uint32BE 0)
      (b := z) (c := []) hseq rfl
  simp only [encodePdu, Option.bind_eq_bind, h₁, h₂, h₃, h₄, Option.bind_some, List.append_nil,
    Option.pure_def]

theorem decodePdu_append {length commandId commandStatus sequenceNumber : ℕ}
    (hlen : length < 2 ^ 32) (hid : commandId < 2 ^ 32) (hstatus : commandStatus < 2 ^ 32)
    (hseq : sequenceNumber < 2 ^ 32) (payload : List UInt8) :
    decodePdu (uint32BE length ++ uint32BE commandId ++ uint32BE commandStatus ++
        uint32BE sequenceNumber ++ payload) =
      some (some ⟨length, commandId, commandStatus, sequenceNumber, payload.take (length - 16)⟩) := by
  let a := uint32BE length
  let b := uint32BE commandId
  let c := uint32BE commandStatus
  let d := uint32BE sequenceNumber
  have hread : ∀ {n : ℕ} (front rest : List UInt8), n < 2 ^ 32 →
      readUInt32BE (front ++ (uint32BE n ++ rest)) front.length = some n := fun front rest hn =>
    readUInt32BE_eq_some_iff.mpr ⟨hn, rest, List.drop_left⟩
  have h₁ : readUInt32BE (a ++ b ++ c ++ d ++ payload) 0 = some length := by
    simpa [a] using hread [] (b ++ c ++ d ++ payload) hlen
  have h₂ : readUInt32BE (a ++ b ++ c ++ d ++ payload) 4 = some commandId := by
    simpa [a, b] using hread a (c ++ d ++ payload) hid
  have h₃ : readUInt32BE (a ++ b ++ c ++ d ++ payload) 8 = some commandStatus := by
    simpa [a, b, c] using hread (a ++ b) (d ++ payload) hstatus
  have h₄ : readUInt32BE (a ++ b ++ c ++ d ++ payload) 12 = some sequenceNumber := by
    simpa [a, b, c, d] using hread (a ++ b ++ c) payload hseq
  have hbody : subarray (a ++ b ++ c ++ d ++ payload) 16 length = payload.take (length - 16) := by
    have h16 : (a ++ b ++ c ++ d).length = 16 := rfl
    rw [subarray, List.drop_take, ← h16, List.drop_left]
  have hge : ¬ (a ++ b ++ c ++ d ++ payload).length < 16 := by
    simp only [a, b, c, d, List.length_append, length_uint32BE]
    omega
  simp only [a, b, c, d] at h₁ h₂ h₃ h₄ hbody hge
  rw [decodePdu, if_neg hge]
  simp only [h₁, h₂, h₃, h₄, hbody, Option.bind_eq_bind, Option.bind_some, Option.pure_def]

/-- **The round trip**: what follows the frame does not matter. -/
theorem decodePdu_encodePdu {commandId sequenceNumber : ℕ} {body : List UInt8}
    (hid : commandId < 2 ^ 32) (hseq : sequenceNumber < 2 ^ 32)
    (hbody : body.length ≤ 2 ^ 32 - 17) (rest : List UInt8) :
    ∃ frame, encodePdu commandId sequenceNumber body = some frame ∧
      decodePdu (frame ++ rest) =
        some (some ⟨16 + body.length, commandId, 0, sequenceNumber, body⟩) := by
  refine ⟨_, encodePdu_eq hid hseq hbody, ?_⟩
  rw [List.append_assoc, decodePdu_append (by omega) hid (by omega) hseq, Nat.add_sub_cancel_left,
    List.take_left]

/-- A frame of three bytes, with the start of another one behind it. -/
theorem decodePdu_encodePdu_three : ∃ frame, encodePdu 4 7 [1, 2, 3] = some frame ∧
    decodePdu (frame ++ [0, 0]) = some (some ⟨19, 4, 0, 7, [1, 2, 3]⟩) :=
  decodePdu_encodePdu (by decide) (by decide) (by decide) [0, 0]

/-! ## Complete frames -/

/-- **A complete frame**: a header at least, whose first four bytes spell the length. -/
def IsFrame (frame : List UInt8) : Prop :=
  16 ≤ frame.length ∧ frame.length < 2 ^ 32 ∧ frame.take 4 = uint32BE frame.length

/-- The buffer starts with a complete frame. -/
def StartsWithFrame (buf : List UInt8) : Prop := ∃ frame, frame <+: buf ∧ IsFrame frame

/-- What is accepted is a frame of the length that it states. -/
def ReadsCompleteFrame (buf : List UInt8) : Prop :=
  ∀ pdu, decodePdu buf = some (some pdu) →
    16 ≤ pdu.commandLength ∧ pdu.commandLength ≤ buf.length ∧
      pdu.body.length = pdu.commandLength - 16

theorem isFrame_encodePdu {commandId sequenceNumber : ℕ} {body frame : List UInt8}
    (hid : commandId < 2 ^ 32) (hseq : sequenceNumber < 2 ^ 32)
    (hbody : body.length ≤ 2 ^ 32 - 17) (h : encodePdu commandId sequenceNumber body = some frame) :
    IsFrame frame := by
  rw [encodePdu_eq hid hseq hbody] at h
  obtain rfl := Option.some.inj h
  have hlen : (uint32BE (16 + body.length) ++ uint32BE commandId ++ uint32BE 0 ++
      uint32BE sequenceNumber ++ body).length = 16 + body.length := by
    simp
    omega
  refine ⟨by omega, by omega, ?_⟩
  rw [hlen]
  rfl

/-- **`decodePdu` never throws**, and rejects only buffers that are shorter than a header. -/
theorem exists_decodePdu {buf : List UInt8} (h : 16 ≤ buf.length) :
    ∃ pdu, decodePdu buf = some (some pdu) ∧ readUInt32BE buf 0 = some pdu.commandLength ∧
      pdu.body = subarray buf 16 pdu.commandLength := by
  obtain ⟨n₁, h₁⟩ := @exists_readUInt32BE buf 0 (by omega)
  obtain ⟨n₂, h₂⟩ := @exists_readUInt32BE buf 4 (by omega)
  obtain ⟨n₃, h₃⟩ := @exists_readUInt32BE buf 8 (by omega)
  obtain ⟨n₄, h₄⟩ := @exists_readUInt32BE buf 12 (by omega)
  refine ⟨⟨n₁, n₂, n₃, n₄, subarray buf 16 n₁⟩, ?_, h₁, rfl⟩
  simp [decodePdu, h₁, h₂, h₃, h₄, Nat.not_lt.mpr h]

theorem startsWithFrame_iff {buf : List UInt8} {n : ℕ} (hread : readUInt32BE buf 0 = some n) :
    StartsWithFrame buf ↔ 16 ≤ n ∧ n ≤ buf.length := by
  obtain ⟨hn, rest, hd⟩ := readUInt32BE_eq_some_iff.mp hread
  rw [List.drop_zero] at hd
  have htake : buf.take 4 = uint32BE n := by rw [hd, List.take_left' (length_uint32BE n)]
  constructor
  · rintro ⟨frame, ⟨rest', rfl⟩, h16, hlt, hspell⟩
    have hfour : (frame ++ rest').take 4 = frame.take 4 :=
      List.take_append_of_le_length (by omega)
    -- two numbers with the same four bytes
    have heq : readUInt32BE (frame ++ rest') 0 = some frame.length := by
      refine readUInt32BE_eq_some_iff.mpr ⟨hlt, (frame ++ rest').drop 4, ?_⟩
      rw [List.drop_zero, ← hspell, ← hfour, List.take_append_drop]
    obtain rfl := Option.some.inj (hread.symm.trans heq)
    rw [List.length_append]
    omega
  · rintro ⟨h16, hle⟩
    have hlen : (buf.take n).length = n := List.length_take_of_le hle
    refine ⟨buf.take n, List.take_prefix n buf, ?_⟩
    rw [IsFrame, hlen, List.take_take, Nat.min_eq_left (by omega), htake]
    exact ⟨h16, hn, rfl⟩

/-- **Only complete frames are read as such**: a header whose length field is below its own size, or
beyond the buffer, is accepted all the same. -/
theorem readsCompleteFrame_iff (buf : List UInt8) :
    ReadsCompleteFrame buf ↔ buf.length < 16 ∨ StartsWithFrame buf := by
  by_cases hlen : buf.length < 16
  · have hnull : decodePdu buf = some none := if_pos hlen
    refine iff_of_true (fun pdu h => ?_) (Or.inl hlen)
    rw [hnull] at h
    exact absurd h (by simp)
  · obtain ⟨pdu, hpdu, hread, hbody⟩ := exists_decodePdu (by omega : 16 ≤ buf.length)
    rw [startsWithFrame_iff hread]
    constructor
    · intro h
      obtain ⟨h16, hle, -⟩ := h pdu hpdu
      exact Or.inr ⟨h16, hle⟩
    · rintro (h | ⟨h16, hle⟩) pdu' hpdu'
      · exact absurd h hlen
      · obtain rfl := Option.some.inj (Option.some.inj (hpdu.symm.trans hpdu'))
        refine ⟨h16, hle, ?_⟩
        rw [hbody, length_subarray, Nat.min_eq_left hle]

/-- **A partial read**: of a frame of twenty bytes, the first sixteen are accepted with an empty
body. -/
theorem partial_read :
    decodePdu [0, 0, 0, 20, 0, 0, 0, 4, 0, 0, 0, 0, 0, 0, 0, 1] =
      some (some ⟨20, 4, 0, 1, []⟩) ∧
    ¬ ReadsCompleteFrame [0, 0, 0, 20, 0, 0, 0, 4, 0, 0, 0, 0, 0, 0, 0, 1] := by
  have h : decodePdu [0, 0, 0, 20, 0, 0, 0, 4, 0, 0, 0, 0, 0, 0, 0, 1] =
      some (some ⟨20, 4, 0, 1, []⟩) := by decide
  exact ⟨h, fun hr => absurd (hr _ h).2.1 (by decide)⟩

end Logix.Notification
