import Mathlib

namespace FinanceCore.Framing

open List

/-- The bytes of a number at a fixed width, the highest first. -/
def bigEndian : ℕ → ℕ → List UInt8
  | 0, _ => []
  | width + 1, value => bigEndian width (value / 256) ++ [UInt8.ofNat value]

def readBigEndian (bytes : List UInt8) : ℕ := bytes.foldl (fun value byte => value * 256 + byte.toNat) 0

@[simp] theorem length_bigEndian (width value : ℕ) : (bigEndian width value).length = width := by
  induction width generalizing value with
  | zero => rfl
  | succ width ih => rw [bigEndian, length_append, ih, length_singleton]

theorem readBigEndian_concat (bytes : List UInt8) (byte : UInt8) :
    readBigEndian (bytes ++ [byte]) = readBigEndian bytes * 256 + byte.toNat := by
  rw [readBigEndian, foldl_append]
  rfl

variable {width tagWidth valueWidth : ℕ} {rest other : List UInt8}

/-- A number below the capacity of its width is read back. -/
theorem readBigEndian_bigEndian {value : ℕ} (fits : value < 256 ^ width) :
    readBigEndian (bigEndian width value) = value := by
  induction width generalizing value with
  | zero =>
    simp only [pow_zero, Nat.lt_one_iff] at fits
    rw [fits]
    rfl
  | succ width ih =>
    have quotient : value / 256 < 256 ^ width := by
      omega
    rw [bigEndian, readBigEndian_concat, ih quotient, UInt8.toNat_ofNat']
    omega

theorem bigEndian_injective {first second : ℕ} (fitsFirst : first < 256 ^ width)
    (fitsSecond : second < 256 ^ width)
    (same : bigEndian width first = bigEndian width second) : first = second := by
  rw [← readBigEndian_bigEndian fitsFirst, same, readBigEndian_bigEndian fitsSecond]

/-- A byte sequence behind its length. -/
def counted (width : ℕ) (bytes : List UInt8) : List UInt8 := bigEndian width bytes.length ++ bytes

/-- A counted sequence ends where its count says, whatever follows it. -/
theorem counted_append {first second : List UInt8} (fitsFirst : first.length < 256 ^ width)
    (fitsSecond : second.length < 256 ^ width) (same : counted width first ++ rest = counted width second ++ other) :
    first = second ∧ rest = other := by
  rw [counted, counted, append_assoc, append_assoc] at same
  have parts := append_inj same (by rw [length_bigEndian, length_bigEndian])
  have lengths := bigEndian_injective fitsFirst fitsSecond parts.1
  exact append_inj parts.2 lengths

/-- A tagged value: both parts stand behind their lengths. -/
def frame (tagWidth valueWidth : ℕ) (field : List UInt8 × List UInt8) : List UInt8 :=
  counted tagWidth field.1 ++ counted valueWidth field.2

def Fits (tagWidth valueWidth : ℕ) (field : List UInt8 × List UInt8) : Prop :=
  field.1.length < 256 ^ tagWidth ∧ field.2.length < 256 ^ valueWidth

theorem frame_append {first second : List UInt8 × List UInt8}
    (fitsFirst : Fits tagWidth valueWidth first) (fitsSecond : Fits tagWidth valueWidth second)
    (same : frame tagWidth valueWidth first ++ rest = frame tagWidth valueWidth second ++ other) :
    first = second ∧ rest = other := by
  rw [frame, frame, append_assoc, append_assoc] at same
  have tags := counted_append fitsFirst.1 fitsSecond.1 same
  have values := counted_append fitsFirst.2 fitsSecond.2 tags.2
  exact ⟨Prod.ext tags.1 values.1, values.2⟩

/-- The frames of equally many fields are told apart from their concatenation. -/
theorem frames_injective {first second : List (List UInt8 × List UInt8)}
    (fitsFirst : ∀ field ∈ first, Fits tagWidth valueWidth field)
    (fitsSecond : ∀ field ∈ second, Fits tagWidth valueWidth field)
    (lengths : first.length = second.length)
    (same : first.flatMap (frame tagWidth valueWidth) = second.flatMap (frame tagWidth valueWidth)) :
    first = second := by
  induction first generalizing second with
  | nil =>
    apply Eq.symm
    apply eq_nil_of_length_eq_zero
    rw [← lengths]
    rfl
  | cons field rest ih =>
    cases second with
    | nil => cases lengths
    | cons other others =>
      rw [forall_mem_cons] at fitsFirst fitsSecond
      have parts := frame_append fitsFirst.1 fitsSecond.1 same
      have rests := ih fitsFirst.2 fitsSecond.2 (Nat.succ.inj lengths) parts.2
      rw [parts.1, rests]

end FinanceCore.Framing
