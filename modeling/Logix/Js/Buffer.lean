import Logix.Js.Text

/-!
# Buffers

A `Buffer` is a list of bytes. A method gives `none` where the code throws.

* `writeUInt32BE`, `readUInt32BE`: a number of 32 bits, the high byte first;
* `subarray`: a slice, with both ends clamped to the buffer;
* **`readUInt32BE_eq_some_iff`**: a read finds exactly the numbers whose four bytes stand there.
-/

namespace Logix

/-- The four bytes of a number below `2 ^ 32`. -/
def uint32BE (n : ℕ) : List UInt8 :=
  [.ofNat (n / 2 ^ 24), .ofNat (n / 2 ^ 16), .ofNat (n / 2 ^ 8), .ofNat n]

/-- `Buffer.alloc(n)`. -/
def bufferAlloc (n : ℕ) : List UInt8 := List.replicate n 0

/-- `buf.writeUInt32BE(value, offset)`: the buffer afterwards. -/
def writeUInt32BE (buf : List UInt8) (value offset : ℕ) : Option (List UInt8) :=
  if value < 2 ^ 32 ∧ offset + 4 ≤ buf.length then
    some (buf.take offset ++ uint32BE value ++ buf.drop (offset + 4))
  else none

/-- `buf.readUInt32BE(offset)`. -/
def readUInt32BE (buf : List UInt8) (offset : ℕ) : Option ℕ :=
  match buf.drop offset with
  | b₀ :: b₁ :: b₂ :: b₃ :: _ =>
    some (b₀.toNat * 2 ^ 24 + b₁.toNat * 2 ^ 16 + b₂.toNat * 2 ^ 8 + b₃.toNat)
  | _ => none

/-- `buf.subarray(start, end)`. -/
def subarray (buf : List UInt8) (start stop : ℕ) : List UInt8 := (buf.take stop).drop start

@[simp] theorem length_uint32BE (n : ℕ) : (uint32BE n).length = 4 := rfl

theorem writeUInt32BE_append {value : ℕ} (hv : value < 2 ^ 32) {a b c : List UInt8}
    (hb : b.length = 4) :
    writeUInt32BE (a ++ b ++ c) value a.length = some (a ++ uint32BE value ++ c) := by
  have htake : (a ++ b ++ c).take a.length = a := by rw [List.append_assoc, List.take_left]
  have hdrop : (a ++ b ++ c).drop (a.length + 4) = c := by
    rw [← hb, ← List.length_append, List.drop_left]
  rw [writeUInt32BE, if_pos ⟨hv, by simp [hb]⟩, htake, hdrop]

theorem uint32BE_ofNat (b₀ b₁ b₂ b₃ : UInt8) :
    uint32BE (b₀.toNat * 2 ^ 24 + b₁.toNat * 2 ^ 16 + b₂.toNat * 2 ^ 8 + b₃.toNat) =
      [b₀, b₁, b₂, b₃] := by
  have h₀ := b₀.toNat_lt
  have h₁ := b₁.toNat_lt
  have h₂ := b₂.toNat_lt
  have h₃ := b₃.toNat_lt
  simp only [uint32BE, List.cons.injEq, and_true, ← UInt8.toNat_inj, UInt8.toNat_ofNat']
  omega

/-- **A read** finds exactly the numbers whose four bytes stand at the offset. -/
theorem readUInt32BE_eq_some_iff {buf : List UInt8} {offset n : ℕ} :
    readUInt32BE buf offset = some n ↔
      n < 2 ^ 32 ∧ ∃ rest, buf.drop offset = uint32BE n ++ rest := by
  constructor
  · intro h
    unfold readUInt32BE at h
    split at h
    · next b₀ b₁ b₂ b₃ rest hd =>
      obtain rfl := Option.some.inj h
      have h₀ := b₀.toNat_lt
      have h₁ := b₁.toNat_lt
      have h₂ := b₂.toNat_lt
      have h₃ := b₃.toNat_lt
      refine ⟨by omega, rest, ?_⟩
      rw [hd, uint32BE_ofNat]
      rfl
    · exact absurd h (by simp)
  · rintro ⟨hn, rest, hd⟩
    simp only [readUInt32BE, hd, uint32BE, List.cons_append, UInt8.toNat_ofNat', Option.some.injEq]
    omega

theorem exists_readUInt32BE {buf : List UInt8} {offset : ℕ} (h : offset + 4 ≤ buf.length) :
    ∃ n, readUInt32BE buf offset = some n := by
  have hlen : 4 ≤ (buf.drop offset).length := by
    rw [List.length_drop]
    omega
  unfold readUInt32BE
  split
  · exact ⟨_, rfl⟩
  · next hno =>
    match hd : buf.drop offset, hlen with
    | b₀ :: b₁ :: b₂ :: b₃ :: rest, _ => exact absurd hd (hno b₀ b₁ b₂ b₃ rest)

theorem length_subarray (buf : List UInt8) (start stop : ℕ) :
    (subarray buf start stop).length = min stop buf.length - start := by
  simp [subarray]

end Logix
