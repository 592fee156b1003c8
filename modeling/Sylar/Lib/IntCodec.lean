import Mathlib.Algebra.BigOperators.Ring.List
import Mathlib.Data.Nat.Basic
import Mathlib.Tactic.Ring

/-! Integer codecs over bytes: fixed-width little-endian words, base-128 groups
with a continuation bit, and the zigzag folding of two's complement words. -/
namespace Sylar.Lib.IntCodec

/-- The `k` low bytes of `v`, least significant first. -/
def bytesLE (k v : Nat) : List UInt8 :=
  (List.range k).map fun i => UInt8.ofNat (v / 256 ^ i)

def ofBytesLE (bytes : List UInt8) : Nat :=
  bytes.foldr (fun byte acc => byte.toNat + 256 * acc) 0

@[simp] theorem length_bytesLE (k v : Nat) : (bytesLE k v).length = k := by
  simp [bytesLE]

theorem bytesLE_succ (k v : Nat) :
    bytesLE (k + 1) v = UInt8.ofNat v :: bytesLE k (v / 256) := by
  unfold bytesLE
  rw [List.range_succ_eq_map, List.map_cons, List.map_map, Nat.pow_zero, Nat.div_one]
  congr 1
  apply List.map_congr_left
  intro i _
  simp only [Function.comp_apply, Nat.succ_eq_add_one]
  rw [Nat.div_div_eq_div_mul, Nat.pow_succ, Nat.mul_comm 256]

theorem ofBytesLE_bytesLE (k v : Nat) (h : v < 256 ^ k) : ofBytesLE (bytesLE k v) = v := by
  induction k generalizing v with
  | zero =>
    obtain rfl : v = 0 := by simpa using h
    rfl
  | succ k ih =>
    have hrest : v / 256 < 256 ^ k := by
      apply Nat.div_lt_of_lt_mul
      rwa [Nat.pow_succ, Nat.mul_comm] at h
    have hstep := ih (v / 256) hrest
    unfold ofBytesLE at hstep ⊢
    rw [bytesLE_succ, List.foldr_cons, hstep, UInt8.toNat_ofNat']
    omega

theorem ofBytesLE_lt (bytes : List UInt8) : ofBytesLE bytes < 256 ^ bytes.length := by
  induction bytes with
  | nil => simp [ofBytesLE]
  | cons byte bytes ih =>
    have hbyte : byte.toNat < 256 := byte.toNat_lt
    unfold ofBytesLE at ih ⊢
    rw [List.foldr_cons, List.length_cons, Nat.pow_succ]
    omega

theorem bytesLE_ofBytesLE (bytes : List UInt8) :
    bytesLE bytes.length (ofBytesLE bytes) = bytes := by
  induction bytes with
  | nil => rfl
  | cons byte bytes ih =>
    have hbyte : byte.toNat < 256 := byte.toNat_lt
    have hcons : ofBytesLE (byte :: bytes) = byte.toNat + 256 * ofBytesLE bytes := rfl
    rw [List.length_cons, bytesLE_succ, hcons,
      show (byte.toNat + 256 * ofBytesLE bytes) / 256 = ofBytesLE bytes by omega, ih]
    congr 1
    apply UInt8.toNat_inj.mp
    rw [UInt8.toNat_ofNat']
    omega

/-- Reversing the bytes of a word of `k` bytes. -/
def swapBytes (k : Nat) (v : BitVec (8 * k)) : BitVec (8 * k) :=
  BitVec.ofNat _ (ofBytesLE (bytesLE k v.toNat).reverse)

theorem two_pow_bytes (k : Nat) : 2 ^ (8 * k) = 256 ^ k := by
  rw [Nat.pow_mul]

theorem toNat_swapBytes (k : Nat) (v : BitVec (8 * k)) :
    (swapBytes k v).toNat = ofBytesLE (bytesLE k v.toNat).reverse := by
  have hlt := ofBytesLE_lt (bytesLE k v.toNat).reverse
  rw [List.length_reverse, length_bytesLE, ← two_pow_bytes] at hlt
  rw [swapBytes, BitVec.toNat_ofNat, Nat.mod_eq_of_lt hlt]

@[simp] theorem swapBytes_swapBytes (k : Nat) (v : BitVec (8 * k)) :
    swapBytes k (swapBytes k v) = v := by
  apply BitVec.eq_of_toNat_eq
  have hlen : (bytesLE k v.toNat).reverse.length = k := by simp
  have hbytes := bytesLE_ofBytesLE (bytesLE k v.toNat).reverse
  rw [hlen] at hbytes
  rw [toNat_swapBytes, toNat_swapBytes, hbytes, List.reverse_reverse,
    ofBytesLE_bytesLE k _ (by rw [← two_pow_bytes]; exact v.isLt)]

theorem testBit_ofBytesLE (bytes : List UInt8) (i : Nat) :
    (ofBytesLE bytes).testBit i = (bytes.getD (i / 8) 0).toNat.testBit (i % 8) := by
  induction bytes generalizing i with
  | nil => simp [ofBytesLE]
  | cons byte bytes ih =>
    have hcons : ofBytesLE (byte :: bytes) = 2 ^ 8 * ofBytesLE bytes + byte.toNat :=
      Nat.add_comm _ _
    rw [hcons, Nat.testBit_two_pow_mul_add _ byte.toNat_lt]
    split
    · rw [Nat.div_eq_of_lt (by omega), Nat.mod_eq_of_lt (by omega), List.getD_cons_zero]
    · rw [ih, show i / 8 = (i - 8) / 8 + 1 by omega, List.getD_cons_succ,
        show (i - 8) % 8 = i % 8 by omega]

theorem testBit_bytesLE (k v m j : Nat) (hm : m < k) (hj : j < 8) :
    ((bytesLE k v).getD m 0).toNat.testBit j = v.testBit (8 * m + j) := by
  have hget : (bytesLE k v).getD m 0 = UInt8.ofNat (v / 256 ^ m) := by
    simp [bytesLE, hm]
  rw [hget, UInt8.toNat_ofNat', Nat.testBit_mod_two_pow, decide_eq_true hj, Bool.true_and,
    ← two_pow_bytes, Nat.testBit_div_two_pow]
  congr 1
  omega

theorem getLsbD_swapBytes (k : Nat) (v : BitVec (8 * k)) (i : Nat) (hi : i < 8 * k) :
    (swapBytes k v).getLsbD i = v.getLsbD (8 * (k - 1 - i / 8) + i % 8) := by
  have hbyte : (bytesLE k v.toNat).reverse.getD (i / 8) 0 =
      (bytesLE k v.toNat).getD (k - 1 - i / 8) 0 := by
    rw [List.getD_eq_getElem?_getD, List.getD_eq_getElem?_getD,
      List.getElem?_reverse (by rw [length_bytesLE]; omega), length_bytesLE]
  rw [BitVec.getLsbD, toNat_swapBytes, testBit_ofBytesLE, hbyte,
    testBit_bytesLE k _ _ _ (by omega) (by omega), BitVec.getLsbD]

theorem swapBytes_and (k : Nat) (v w : BitVec (8 * k)) :
    swapBytes k (v &&& w) = swapBytes k v &&& swapBytes k w := by
  apply BitVec.eq_of_getLsbD_eq
  intro i hi
  simp only [BitVec.getLsbD_and, getLsbD_swapBytes k _ i hi]

theorem swapBytes_or (k : Nat) (v w : BitVec (8 * k)) :
    swapBytes k (v ||| w) = swapBytes k v ||| swapBytes k w := by
  apply BitVec.eq_of_getLsbD_eq
  intro i hi
  simp only [BitVec.getLsbD_or, getLsbD_swapBytes k _ i hi]

theorem swapBytes_not (k : Nat) (v : BitVec (8 * k)) :
    swapBytes k (~~~v) = ~~~swapBytes k v := by
  apply BitVec.eq_of_getLsbD_eq
  intro i hi
  have hplace : 8 * (k - 1 - i / 8) + i % 8 < 8 * k := by omega
  simp only [BitVec.getLsbD_not, getLsbD_swapBytes k _ i hi, hi, hplace]

/-- Base-128 groups, least significant first; every byte but the last has its
high bit set. `fuel` bounds the number of groups. -/
def groups : Nat → Nat → List UInt8
  | 0, _ => []
  | fuel + 1, v =>
    if 128 ≤ v then UInt8.ofNat (v % 128 + 128) :: groups fuel (v / 128)
    else [UInt8.ofNat v]

/-- The value of base-128 groups, least significant first, whatever their high bits are. -/
def ofGroups (bytes : List UInt8) : Nat :=
  bytes.foldr (fun byte acc => byte.toNat % 128 + 128 * acc) 0

@[simp] theorem ofGroups_nil : ofGroups [] = 0 := rfl

@[simp] theorem ofGroups_cons (byte : UInt8) (bytes : List UInt8) :
    ofGroups (byte :: bytes) = byte.toNat % 128 + 128 * ofGroups bytes := rfl

theorem ofGroups_groups (fuel v : Nat) (h : v < 128 ^ fuel) : ofGroups (groups fuel v) = v := by
  induction fuel generalizing v with
  | zero =>
    obtain rfl : v = 0 := by simpa using h
    rfl
  | succ fuel ih =>
    rw [groups]
    by_cases hbig : 128 ≤ v
    · have hrest : v / 128 < 128 ^ fuel := by
        apply Nat.div_lt_of_lt_mul
        rwa [Nat.pow_succ, Nat.mul_comm] at h
      rw [if_pos hbig, ofGroups_cons, ih (v / 128) hrest, UInt8.toNat_ofNat']
      omega
    · rw [if_neg hbig, ofGroups_cons, ofGroups_nil, UInt8.toNat_ofNat']
      omega

theorem ofGroups_take (bytes : List UInt8) (k : Nat) (hk : k ≤ bytes.length) :
    ofGroups (bytes.take k) =
      ((List.range k).map fun i => (bytes.getD i 0).toNat % 128 * 2 ^ (7 * i)).sum := by
  induction k generalizing bytes with
  | zero => rfl
  | succ k ih =>
    cases bytes with
    | nil => cases hk
    | cons byte bytes =>
      have hshift : ∀ i, (bytes.getD i 0).toNat % 128 * 2 ^ (7 * (i + 1)) =
          128 * ((bytes.getD i 0).toNat % 128 * 2 ^ (7 * i)) := by
        intro i
        rw [Nat.mul_add, Nat.pow_add]
        ring
      rw [List.take_succ_cons, ofGroups_cons, ih bytes (Nat.le_of_succ_le_succ hk),
        List.range_succ_eq_map, List.map_cons, List.sum_cons, List.map_map]
      simp only [Function.comp_def, Nat.succ_eq_add_one, List.getD_cons_succ, hshift,
        List.getD_cons_zero, Nat.mul_zero, Nat.pow_zero, Nat.mul_one, List.sum_map_mul_left]

theorem toNat_or_shiftLeft {w : Nat} (r : BitVec w) (i x : Nat) (hr : r.toNat < 2 ^ i) :
    (r ||| (BitVec.ofNat w x <<< i)).toNat = (r.toNat + 2 ^ i * x) % 2 ^ w := by
  have hshift : (BitVec.ofNat w x <<< i).toNat = 2 ^ i * x % 2 ^ w := by
    rw [BitVec.toNat_shiftLeft, BitVec.toNat_ofNat, Nat.shiftLeft_eq, Nat.mod_mul_mod,
      Nat.mul_comm]
  rw [BitVec.toNat_or, hshift]
  by_cases hi : w ≤ i
  · have hpow : 2 ^ i = 2 ^ w * 2 ^ (i - w) := by
      rw [← Nat.pow_add, Nat.add_sub_cancel' hi]
    rw [hpow, Nat.mul_assoc, Nat.mul_mod_right, Nat.or_zero, Nat.add_mul_mod_self_left,
      Nat.mod_eq_of_lt r.isLt]
  · have hpow : 2 ^ w = 2 ^ i * 2 ^ (w - i) := by
      rw [← Nat.pow_add, Nat.add_sub_cancel' (by omega)]
    have hdiv : (r.toNat + 2 ^ i * x) / 2 ^ i = x := by
      rw [Nat.add_mul_div_left _ _ (Nat.two_pow_pos i), Nat.div_eq_of_lt hr, Nat.zero_add]
    have hmod : (r.toNat + 2 ^ i * x) % 2 ^ i = r.toNat := by
      rw [Nat.add_mul_mod_self_left, Nat.mod_eq_of_lt hr]
    rw [hpow, Nat.mul_mod_mul_left, Nat.mod_mul, hdiv, hmod, Nat.or_comm,
      ← Nat.two_pow_add_eq_or_of_lt hr, Nat.add_comm]

theorem toNat_or_group {w : Nat} (r : BitVec w) (i x : Nat) (hr : r.toNat < 2 ^ i) :
    (r ||| (BitVec.ofNat w (x &&& 0x7f) <<< i)).toNat = (r.toNat + 2 ^ i * (x % 128)) % 2 ^ w ∧
      (r ||| (BitVec.ofNat w (x &&& 0x7f) <<< i)).toNat < 2 ^ (i + 7) := by
  have hand : x &&& 0x7f = x % 128 := Nat.and_two_pow_sub_one_eq_mod x 7
  have hor := toNat_or_shiftLeft r i (x &&& 0x7f) hr
  rw [hand] at hor ⊢
  refine ⟨hor, ?_⟩
  have hmod := Nat.mod_le (r.toNat + 2 ^ i * (x % 128)) (2 ^ w)
  have hgroup : 2 ^ i * (x % 128) ≤ 2 ^ i * 127 := Nat.mul_le_mul_left _ (by omega)
  rw [hor, Nat.pow_add]
  omega

section Zigzag

variable {w : Nat}

/-- Fold a two's complement word so that small magnitudes get small codes. -/
def zigzag (v : BitVec w) : BitVec w :=
  if v.slt 0#w then -v * 2#w - 1#w else v * 2#w

def unzigzag (v : BitVec w) : BitVec w :=
  (v >>> 1) ^^^ -(v &&& 1#w)

private theorem toNat_one (hw : 2 ≤ w) : (1#w).toNat = 1 := by
  have : 2 ^ 1 < 2 ^ w := Nat.pow_lt_pow_right (by omega) (by omega)
  rw [BitVec.toNat_ofNat, Nat.mod_eq_of_lt (by omega)]

private theorem toNat_two (hw : 2 ≤ w) : (2#w).toNat = 2 := by
  have : 2 ^ 1 < 2 ^ w := Nat.pow_lt_pow_right (by omega) (by omega)
  rw [BitVec.toNat_ofNat, Nat.mod_eq_of_lt (by omega)]

private theorem and_one_eq (v : BitVec w) (hw : 2 ≤ w) :
    v &&& 1#w = BitVec.ofNat w (v.toNat % 2) := by
  apply BitVec.eq_of_toNat_eq
  have hpow : 2 ^ 1 < 2 ^ w := Nat.pow_lt_pow_right (by omega) (by omega)
  rw [BitVec.toNat_and, toNat_one hw, Nat.and_one_is_mod, BitVec.toNat_ofNat,
    Nat.mod_eq_of_lt (a := v.toNat % 2) (by omega)]

theorem unzigzag_even (v : BitVec w) (hw : 2 ≤ w) (h : v.toNat % 2 = 0) :
    (unzigzag v).toNat = v.toNat / 2 := by
  unfold unzigzag
  rw [and_one_eq v hw, h, BitVec.neg_zero]
  simp [Nat.shiftRight_eq_div_pow]

theorem unzigzag_odd (v : BitVec w) (hw : 2 ≤ w) (h : v.toNat % 2 = 1) :
    (unzigzag v).toNat = 2 ^ w - 1 - v.toNat / 2 := by
  unfold unzigzag
  rw [and_one_eq v hw, h]
  have hones : -(BitVec.ofNat w 1) = BitVec.allOnes w := BitVec.neg_one_eq_allOnes
  rw [hones, BitVec.xor_allOnes, BitVec.toNat_not]
  simp [Nat.shiftRight_eq_div_pow]

theorem toNat_zigzag_neg (v : BitVec w) (hw : 2 ≤ w) (hneg : v.msb = true) :
    (zigzag v).toNat = 2 * (2 ^ w - v.toNat) - 1 := by
  have hlt := v.isLt
  have hge := BitVec.toNat_ge_of_msb_true hneg
  have hpow : 2 ^ w = 2 * 2 ^ (w - 1) := by
    rw [← Nat.pow_succ']
    congr 1
    omega
  have hone : 0 < 2 ^ (w - 1) := Nat.two_pow_pos _
  unfold zigzag
  rw [if_pos (by rw [BitVec.slt_zero_eq_msb]; exact hneg), BitVec.toNat_sub, BitVec.toNat_mul,
    BitVec.toNat_neg, toNat_one hw, toNat_two hw, Nat.mod_eq_of_lt (a := 2 ^ w - v.toNat)
    (by omega)]
  by_cases hmin : v.toNat = 2 ^ (w - 1)
  · rw [show (2 ^ w - v.toNat) * 2 = 2 ^ w by omega, Nat.mod_self, Nat.add_zero,
      Nat.mod_eq_of_lt (by omega)]
    omega
  · rw [Nat.mod_eq_of_lt (a := (2 ^ w - v.toNat) * 2) (by omega),
      show 2 ^ w - 1 + (2 ^ w - v.toNat) * 2 = 2 ^ w + (2 * (2 ^ w - v.toNat) - 1) by omega,
      Nat.add_mod_left, Nat.mod_eq_of_lt (by omega)]

theorem toNat_zigzag_nonneg (v : BitVec w) (hw : 2 ≤ w) (hpos : v.msb = false) :
    (zigzag v).toNat = 2 * v.toNat := by
  have hlt := BitVec.toNat_lt_of_msb_false hpos
  have hpow : 2 ^ w = 2 * 2 ^ (w - 1) := by
    rw [← Nat.pow_succ']
    congr 1
    omega
  unfold zigzag
  rw [if_neg (by rw [BitVec.slt_zero_eq_msb, hpos]; simp), BitVec.toNat_mul, toNat_two hw,
    Nat.mod_eq_of_lt (by omega), Nat.mul_comm]

theorem unzigzag_zigzag (v : BitVec w) (hw : 2 ≤ w) : unzigzag (zigzag v) = v := by
  apply BitVec.eq_of_toNat_eq
  have hlt := v.isLt
  cases hsign : v.msb with
  | true =>
    have hcode := toNat_zigzag_neg v hw hsign
    rw [unzigzag_odd _ hw (by omega), hcode]
    omega
  | false =>
    have hcode := toNat_zigzag_nonneg v hw hsign
    rw [unzigzag_even _ hw (by omega), hcode]
    omega

end Zigzag

end Sylar.Lib.IntCodec
