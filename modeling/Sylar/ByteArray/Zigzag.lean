import Sylar.ByteArray.RoundTrip

/-! The signed operations of the zigzag encodings, which C++ leaves undefined where they overflow
their type. `-v` and `v * 2` are evaluated in the type of `v`; what comes after the cast to an
unsigned type, and all of the decoding, wraps around. -/
namespace Sylar.ByteArray

open Lib.IntCodec

section Signed

variable {w : Nat} (v : BitVec w)

/-- `-v` of a signed type, nothing where it overflows. -/
def signedNeg : Option (BitVec w) := if v.negOverflow then none else some (-v)

/-- `v * u` of a signed type, nothing where it overflows. -/
def signedMul (u : BitVec w) : Option (BitVec w) :=
  if v.smulOverflow u then none else some (v * u)

def evalEncodeZigzag : Option (BitVec w) :=
  if v.slt 0#w then do
    let n ← signedNeg v
    return n * 2#w - 1#w
  else signedMul v 2#w

theorem negOverflow_iff : v.negOverflow = true ↔ ¬ -2 ^ (w - 1) < v.toInt := by
  have hle : -2 ^ (w - 1) ≤ v.toInt := BitVec.le_toInt v
  unfold BitVec.negOverflow
  rw [beq_iff_eq, Int.not_lt]
  exact ⟨fun heq => heq.le, fun hge => hge.antisymm hle⟩

theorem smulOverflow_two_iff (hw : 3 ≤ w) (hpos : 0 ≤ v.toInt) :
    v.smulOverflow 2#w = true ↔ ¬ v.toInt < 2 ^ (w - 2) := by
  obtain ⟨k, rfl⟩ : ∃ k, w = k + 3 := ⟨w - 3, by omega⟩
  have hsmall : 2 ^ 3 ≤ 2 ^ (k + 3) := Nat.pow_le_pow_right (by decide) hw
  have hnat : (2#(k + 3)).toNat = 2 := by
    rw [BitVec.toNat_ofNat, Nat.mod_eq_of_lt (by omega)]
  have htwo : (2#(k + 3)).toInt = 2 := by
    rw [BitVec.toInt_eq_toNat_of_lt (by omega), hnat]
    rfl
  have hpow : (2 : Int) ^ (k + 3 - 1) = 2 * 2 ^ (k + 3 - 2) := pow_succ' 2 (k + 1)
  have hone : (0 : Int) < 2 ^ (k + 3 - 2) := Int.pow_pos (by decide)
  unfold BitVec.smulOverflow
  rw [htwo, Bool.or_eq_true, decide_eq_true_eq, decide_eq_true_eq, hpow]
  omega

/-- The encoding has a value exactly between the minimum and a quarter of the range, and there it
is the folded word. -/
theorem evalEncodeZigzag_eq (hw : 3 ≤ w) :
    evalEncodeZigzag v =
      if -2 ^ (w - 1) < v.toInt ∧ v.toInt < 2 ^ (w - 2) then some (zigzag v) else none := by
  have hone : (0 : Int) < 2 ^ (w - 2) := Int.pow_pos (by decide)
  have hmin : (0 : Int) < 2 ^ (w - 1) := Int.pow_pos (by decide)
  have hsign : v.slt 0#w = true ↔ v.toInt < 0 := by
    rw [BitVec.slt_iff_toInt_lt, BitVec.toInt_zero]
  unfold evalEncodeZigzag zigzag
  by_cases hneg : v.toInt < 0
  · rw [if_pos (hsign.mpr hneg), if_pos (hsign.mpr hneg)]
    unfold signedNeg
    by_cases hover : v.negOverflow = true
    · rw [if_pos hover, if_neg fun h => (negOverflow_iff v).mp hover h.1]
      rfl
    · have hgt : -2 ^ (w - 1) < v.toInt := not_not.mp (mt (negOverflow_iff v).mpr hover)
      rw [if_neg hover, if_pos ⟨hgt, by omega⟩]
      rfl
  · rw [if_neg (mt hsign.mp hneg), if_neg (mt hsign.mp hneg)]
    have hpos : 0 ≤ v.toInt := Int.not_lt.mp hneg
    unfold signedMul
    by_cases hover : v.smulOverflow 2#w = true
    · rw [if_pos hover, if_neg fun h => (smulOverflow_two_iff v hw hpos).mp hover h.2]
    · have hlt : v.toInt < 2 ^ (w - 2) := not_not.mp (mt (smulOverflow_two_iff v hw hpos).mpr hover)
      rw [if_neg hover, if_pos ⟨by omega, hlt⟩]

end Signed

def evalEncodeZigzag32 (v : Int32) : Option UInt32 :=
  (evalEncodeZigzag v.toBitVec).map UInt32.ofBitVec

def evalEncodeZigzag64 (v : Int64) : Option UInt64 :=
  (evalEncodeZigzag v.toBitVec).map UInt64.ofBitVec

def evalWriteInt32 (heap : Heap) (value : Int32) : Option (M Unit) :=
  (evalEncodeZigzag32 value).map (writeUint32 heap)

def evalWriteInt64 (heap : Heap) (value : Int64) : Option (M Unit) :=
  (evalEncodeZigzag64 value).map (writeUint64 heap)

/-- No signed operation overflows when the value is written, and decoding undoes the encoding. -/
def Defined32 (v : Int32) : Prop :=
  (∃ code, evalEncodeZigzag32 v = some code ∧ decodeZigzag32 code = v) ∧
    ∀ heap, evalWriteInt32 heap v = some (writeInt32 heap v)

def Defined64 (v : Int64) : Prop :=
  (∃ code, evalEncodeZigzag64 v = some code ∧ decodeZigzag64 code = v) ∧
    ∀ heap, evalWriteInt64 heap v = some (writeInt64 heap v)

theorem evalEncodeZigzag32_eq (v : Int32) :
    evalEncodeZigzag32 v =
      if -2 ^ 31 < v.toInt ∧ v.toInt < 2 ^ 30 then some (encodeZigzag32 v) else none := by
  unfold evalEncodeZigzag32
  rw [evalEncodeZigzag_eq v.toBitVec (by decide), ← toBitVec_encodeZigzag32]
  exact apply_ite (Option.map UInt32.ofBitVec) _ _ _

theorem evalEncodeZigzag64_eq (v : Int64) :
    evalEncodeZigzag64 v =
      if -2 ^ 63 < v.toInt ∧ v.toInt < 2 ^ 62 then some (encodeZigzag64 v) else none := by
  unfold evalEncodeZigzag64
  rw [evalEncodeZigzag_eq v.toBitVec (by decide), ← toBitVec_encodeZigzag64]
  exact apply_ite (Option.map UInt64.ofBitVec) _ _ _

theorem defined_iff {α β γ : Type} {range : Prop} [Decidable range] {eval : Option α} {code : α}
    (heval : eval = if range then some code else none) {decode : α → β} {v : β}
    (hdecode : decode code = v) (write : Heap → α → γ) :
    (∃ c, eval = some c ∧ decode c = v) ∧ (∀ heap, eval.map (write heap) = some (write heap code)) ↔
      range := by
  constructor
  · rintro ⟨⟨c, hc, -⟩, -⟩
    by_contra hout
    rw [heval, if_neg hout] at hc
    cases hc
  · intro hin
    rw [if_pos hin] at heval
    rw [heval]
    exact ⟨⟨code, rfl, hdecode⟩, fun heap => rfl⟩

/-- The values that can be written without an overflow are those above the minimum and below half
of the positive range. -/
theorem zigzag_defined_iff (v₃₂ : Int32) (v₆₄ : Int64) :
    (Defined32 v₃₂ ↔ -2 ^ 31 < v₃₂.toInt ∧ v₃₂.toInt < 2 ^ 30) ∧
    (Defined64 v₆₄ ↔ -2 ^ 63 < v₆₄.toInt ∧ v₆₄.toInt < 2 ^ 62) :=
  ⟨defined_iff (evalEncodeZigzag32_eq v₃₂) (decodeZigzag32_encode v₃₂) writeUint32,
    defined_iff (evalEncodeZigzag64_eq v₆₄) (decodeZigzag64_encode v₆₄) writeUint64⟩

/-- The product overflows for the first value of the upper half, and the negation for the
minimum. -/
theorem zigzag_overflows :
    evalEncodeZigzag32 1073741824 = none ∧ evalEncodeZigzag32 Int32.minValue = none ∧
    evalEncodeZigzag64 4611686018427387904 = none ∧
    evalEncodeZigzag64 Int64.minValue = none := by
  decide +kernel

end Sylar.ByteArray
