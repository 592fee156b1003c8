import Sylar.ByteArray.RoundTrip

/-! Strings behind a length. Reading the empty string reads no byte, but `read` looks at
the size of the cursor's node before it looks at the count, so the cursor must not stand
at the end of the capacity. Which lists of strings bring it there is worked out from the
blocks that the writers allocate: never more than the stored bytes need. -/
namespace Sylar.ByteArray

open Lib.Blocks Lib.IntCodec

section Definitions

variable (heap : Heap) (host : Endian)

def writeStringF16 (value : List UInt8) : M Unit := do
  writeFuint16 heap host (UInt16.ofNat value.length)
  write heap value

def writeStringF32 (value : List UInt8) : M Unit := do
  writeFuint32 heap host (UInt32.ofNat value.length)
  write heap value

def writeStringF64 (value : List UInt8) : M Unit := do
  writeFuint64 heap host (UInt64.ofNat value.length)
  write heap value

def writeStringVint (value : List UInt8) : M Unit := do
  writeUint64 heap (UInt64.ofNat value.length)
  write heap value

/-- `buff.resize(len); read(&buff[0], len)`. A string holds fewer than `2 ^ 63` bytes, and
memory for them is taken to be there. -/
def readChars (len : Nat) : M (List UInt8) :=
  if len < 2 ^ 63 then read len else throw .lengthError

def readStringF16 : M (List UInt8) := do
  let len ← readFuint16 host
  readChars len.toNat

def readStringF32 : M (List UInt8) := do
  let len ← readFuint32 host
  readChars len.toNat

def readStringF64 : M (List UInt8) := do
  let len ← readFuint64 host
  readChars len.toNat

def readStringVint : M (List UInt8) := do
  let len ← readUint64 host
  readChars len.toNat

inductive LengthCode where
  | f16 | f32 | f64 | vint
  deriving DecidableEq, Repr

def LengthCode.writeString : LengthCode → List UInt8 → M Unit
  | .f16 => writeStringF16 heap host
  | .f32 => writeStringF32 heap host
  | .f64 => writeStringF64 heap host
  | .vint => writeStringVint heap

def LengthCode.readString : LengthCode → M (List UInt8)
  | .f16 => readStringF16 host
  | .f32 => readStringF32 host
  | .f64 => readStringF64 host
  | .vint => readStringVint host

def writeStrings : List (LengthCode × List UInt8) → M Unit
  | [] => pure ()
  | x :: xs => do
    x.1.writeString heap host x.2
    writeStrings xs

def readStrings : List LengthCode → M (List (List UInt8))
  | [] => pure []
  | k :: ks => do
    let x ← k.readString host
    let xs ← readStrings ks
    pure (x :: xs)

/-- Set the byte order, write the strings, rewind, read them back, and report
`getReadSize()`. -/
def stringTrip (little : Bool) (xs : List (LengthCode × List UInt8)) :
    M (List (List UInt8) × Nat) := do
  setLittleEndian little
  writeStrings heap host xs
  setPosition 0
  let ys ← readStrings host (xs.map Prod.fst)
  let s ← get
  pure (ys, s.getReadSize)

end Definitions

variable {α β : Type} {b : Nat} {e : Endian} {s s' : ByteArray}

/-- The length fits its code; no string has `2 ^ 63` bytes. -/
def LengthCode.Fits (n : Nat) : LengthCode → Prop
  | .f16 => n < 2 ^ 16
  | .f32 => n < 2 ^ 32
  | .f64 | .vint => n < 2 ^ 63

theorem LengthCode.Fits.lt {n : Nat} {k : LengthCode} (h : k.Fits n) : n < 2 ^ 63 := by
  cases k with
  | f16 => exact Nat.lt_trans h (by decide)
  | f32 => exact Nat.lt_trans h (by decide)
  | f64 | vint => exact h

instance (n : Nat) (k : LengthCode) : Decidable (k.Fits n) := by
  cases k <;> unfold LengthCode.Fits <;> infer_instance

def LengthCode.bytes (host e : Endian) (n : Nat) : LengthCode → List UInt8
  | .f16 => fixedBytes host e 2 (UInt16.ofNat n).toBitVec
  | .f32 => fixedBytes host e 4 (UInt32.ofNat n).toBitVec
  | .f64 => fixedBytes host e 8 (UInt64.ofNat n).toBitVec
  | .vint => groups 64 (UInt64.ofNat n).toBitVec.toNat

def stringBytes (host e : Endian) (x : LengthCode × List UInt8) : List UInt8 :=
  x.1.bytes host e x.2.length ++ x.2

section Writing

variable (heap : Heap) (host : Endian)

theorem run_writeFixed (he : s.endian = e) (k : Nat) (value : BitVec (8 * k)) :
    (writeFixed heap host k value).run s = (write heap (fixedBytes host e k value)).run s := by
  unfold writeFixed
  rw [EStateM.run_bind, EStateM.run_get]
  simp only [he]
  rfl

theorem run_writeUint64 (value : UInt64) :
    (writeUint64 heap value).run s = (write heap (groups 64 value.toBitVec.toNat)).run s := by
  have hloop := run_varintLoop 10 64 9 [] value.toBitVec s (by decide)
    (Nat.lt_trans value.toBitVec.isLt (by decide)) (by decide)
  unfold writeUint64 writeVarint
  rw [EStateM.run_bind, hloop]
  rfl

theorem LengthCode.run_writeString (he : s.endian = e) (k : LengthCode) (value : List UInt8) :
    (k.writeString heap host value).run s =
      (do write heap (k.bytes host e value.length); write heap value : M Unit).run s := by
  cases k with
  | f16 => simp only [writeString, writeStringF16, writeFuint16, EStateM.run_bind,
      run_writeFixed heap host he]; rfl
  | f32 => simp only [writeString, writeStringF32, writeFuint32, EStateM.run_bind,
      run_writeFixed heap host he]; rfl
  | f64 => simp only [writeString, writeStringF64, writeFuint64, EStateM.run_bind,
      run_writeFixed heap host he]; rfl
  | vint => simp only [writeString, writeStringVint, EStateM.run_bind, run_writeUint64]; rfl

end Writing

/-- No block was allocated beyond the one that the last stored byte is in. -/
def Tight (b : Nat) (s : ByteArray) : Prop := s.capacity = b ∨ s.capacity < s.size + b

theorem WellFormed.size_eq_capacity_iff (h : WellFormed b s) (ht : Tight b s)
    (hpos : 0 < s.size) : s.size = s.capacity ↔ b ∣ s.size := by
  have hle := h.size_le
  constructor
  · intro heq
    rw [heq, h.capacity]
    exact Nat.dvd_mul_right b _
  · intro hdvd
    have hcap : b ∣ s.capacity := by
      rw [h.capacity]
      exact Nat.dvd_mul_right b _
    rcases ht with hone | hlast
    · have := Nat.le_of_dvd hpos hdvd
      omega
    · have hdiff := Nat.dvd_sub hcap hdvd
      by_contra hne
      have := Nat.le_of_dvd (by omega) hdiff
      omega

/-- `m` appends `bytes` at the end of the data and allocates no more than it needs. -/
def Packs (b : Nat) (e : Endian) (m : M Unit) (bytes : List UInt8) : Prop :=
  ∀ s : ByteArray, WellFormed b s → s.endian = e → s.position = s.size → Tight b s →
    ∃ s', m.run s = .ok () s' ∧ WellFormed b s' ∧ s'.endian = e ∧
      s'.position = s'.size ∧ s'.stored = s.stored ++ bytes ∧ Tight b s'

theorem Packs.write (hb : 1 ≤ b) (heap : Heap) (bytes : List UInt8) :
    Packs b e (ByteArray.write heap bytes) bytes := by
  intro s h he hpos ht
  obtain ⟨s', hrun, h', he', hpos', hstored⟩ := Appends.write hb heap bytes s h he hpos
  obtain ⟨s'', hrun', -, -, -, hsize, -, hcap⟩ := h.run_write hb heap bytes
  obtain rfl : s' = s'' := by
    rw [hrun] at hrun'
    exact (EStateM.Result.ok.inj hrun').2
  refine ⟨s', hrun, h', he', hpos', hstored, ?_⟩
  have hle := h.size_le
  have hroom := missing_room hb s bytes.length
  have hsize' : s'.size = s.size + bytes.length := by
    rw [hsize, hpos]
    exact Nat.max_eq_right (Nat.le_add_right _ _)
  have hdiv := Nat.div_mul_le_self (bytes.length - (s.capacity - s.position) + b - 1) b
  rw [Nat.mul_comm] at hdiv
  unfold Tight at ht ⊢
  by_cases hzero : missing b s bytes.length = 0
  · rw [hcap, hzero]
    omega
  · have hshort : s.capacity - s.position < bytes.length := by
      by_contra hfit
      exact hzero (missing_eq_zero hb (Nat.not_lt.mp hfit))
    unfold missing at hcap
    omega

theorem Packs.bind {m k : M Unit} {xs ys : List UInt8} (hm : Packs b e m xs)
    (hk : Packs b e k ys) : Packs b e (do m; k) (xs ++ ys) := by
  intro s h he hpos ht
  obtain ⟨s₁, hrun, h₁, he₁, hpos₁, hst₁, ht₁⟩ := hm s h he hpos ht
  obtain ⟨s₂, hrun₂, h₂, he₂, hpos₂, hst₂, ht₂⟩ := hk s₁ h₁ he₁ hpos₁ ht₁
  refine ⟨s₂, ?_, h₂, he₂, hpos₂, by rw [hst₂, hst₁, List.append_assoc], ht₂⟩
  rw [EStateM.run_bind, hrun]
  exact hrun₂

theorem packs_writeStrings (hb : 1 ≤ b) (heap : Heap) (host : Endian)
    (xs : List (LengthCode × List UInt8)) :
    Packs b e (writeStrings heap host xs) (xs.flatMap (stringBytes host e)) := by
  induction xs with
  | nil =>
    intro s h he hpos ht
    exact ⟨s, rfl, h, he, hpos, by simp, ht⟩
  | cons x xs ih =>
    refine Packs.bind ?_ ih
    intro s h he hpos ht
    rw [x.1.run_writeString heap host he]
    exact (Packs.write hb heap _).bind (Packs.write hb heap x.2) s h he hpos ht

/-- The length in front of a string, as the reader of the string reads it. -/
def LengthCode.readLength (host : Endian) : LengthCode → M Nat
  | .f16 => do let len ← readFuint16 host; pure len.toNat
  | .f32 => do let len ← readFuint32 host; pure len.toNat
  | .f64 => do let len ← readFuint64 host; pure len.toNat
  | .vint => do let len ← readUint64 host; pure len.toNat

theorem readChars_of_lt {n : Nat} (h : n < 2 ^ 63) : readChars n = read n := if_pos h

theorem Aligned.consumes_readChars_long (hal : Aligned b s) {n : Nat} (h : ¬ n < 2 ^ 63) :
    Consumes b (readChars n) s 0 (.error .lengthError) := by
  unfold Consumes readChars
  rw [if_neg h, hal.shift_zero]
  rfl

theorem LengthCode.readString_eq (host : Endian) (k : LengthCode) :
    k.readString host = k.readLength host >>= readChars := by
  cases k with
  | f16 => simp only [readString, readStringF16, readLength, bind_assoc, pure_bind]
  | f32 => simp only [readString, readStringF32, readLength, bind_assoc, pure_bind]
  | f64 => simp only [readString, readStringF64, readLength, bind_assoc, pure_bind]
  | vint => simp only [readString, readStringVint, readLength, bind_assoc, pure_bind]

def LengthCode.width (unread : List UInt8) : LengthCode → Nat
  | .f16 => 2
  | .f32 => 4
  | .f64 => 8
  | .vint => varintLength 10 unread

def LengthCode.value (e : Endian) (unread : List UInt8) : LengthCode → Nat
  | .f16 => objectValue e (unread.take 2)
  | .f32 => objectValue e (unread.take 4)
  | .f64 => objectValue e (unread.take 8)
  | .vint => ofGroups (unread.take (varintLength 10 unread)) % 2 ^ 64

theorem LengthCode.consumes_readLength (h : WellFormed b s) (hb : 1 ≤ b) (host : Endian)
    {k : LengthCode} (hfit : k.width s.unread ≤ s.unread.length) :
    Consumes b (k.readLength host) s (k.width s.unread) (.ok (k.value s.endian s.unread)) := by
  cases k with
  | f16 =>
    obtain ⟨v, hv, hvalue⟩ := h.consumes_readFixed (k := 2) hb host (by decide) hfit
    rw [value, ← hvalue]
    exact (hv.map UInt16.ofBitVec).map UInt16.toNat
  | f32 =>
    obtain ⟨v, hv, hvalue⟩ := h.consumes_readFixed (k := 4) hb host (by decide) hfit
    rw [value, ← hvalue]
    exact (hv.map UInt32.ofBitVec).map UInt32.toNat
  | f64 =>
    obtain ⟨v, hv, hvalue⟩ := h.consumes_readFixed (k := 8) hb host (by decide) hfit
    rw [value, ← hvalue]
    exact (hv.map UInt64.ofBitVec).map UInt64.toNat
  | vint =>
    have hread := h.readsVarint64 hb host
    rw [width] at hfit
    rw [ReadsVarint, if_pos hfit] at hread
    obtain ⟨v, hv, hvalue⟩ := hread
    rw [value, ← hvalue]
    exact hv.map UInt64.toNat

theorem LengthCode.consumes_readLength_short (h : WellFormed b s) (hb : 1 ≤ b) (host : Endian)
    {k : LengthCode} (hshort : s.unread.length < k.width s.unread) :
    Consumes b (k.readLength host) s (if k = .vint then s.unread.length else 0)
      (.error (.outOfRange "not enough len")) := by
  cases k with
  | f16 | f32 | f64 => exact (h.consumes_readFixed_short host hshort).bind_error.bind_error
  | vint =>
    have hread := h.readsVarint64 hb host
    rw [width] at hshort
    rw [ReadsVarint, if_neg (Nat.not_le.mpr hshort)] at hread
    exact hread.bind_error

theorem LengthCode.readLength_keeps (h : WellFormed b s) (hb : 1 ≤ b) {host : Endian}
    {k : LengthCode} {n : Nat} (hrun : (k.readLength host).run s = .ok n s') :
    s'.size = s.size ∧ s'.capacity = s.capacity := by
  by_cases hfit : k.width s.unread ≤ s.unread.length
  · have hread : (k.readLength host).run s = .ok _ _ := consumes_readLength h hb host hfit
    rw [hread] at hrun
    cases hrun
    exact ⟨rfl, rfl⟩
  · have hread : (k.readLength host).run s = .error _ _ :=
      consumes_readLength_short h hb host (Nat.not_le.mp hfit)
    rw [hread] at hrun
    cases hrun

theorem LengthCode.reads_readLength (hb : 1 ≤ b) (host : Endian) {n : Nat} {k : LengthCode}
    (hfit : k.Fits n) : Reads b e (k.readLength host) (k.bytes host e n) n := by
  cases k with
  | f16 =>
    have hread := ((Reads.readFixed (e := e) (k := 2) hb host (by decide)
      (UInt16.ofNat n).toBitVec).map UInt16.ofBitVec).map UInt16.toNat
    rwa [show (UInt16.ofBitVec (UInt16.ofNat n).toBitVec).toNat = n from
      UInt16.toNat_ofNat_of_lt' hfit] at hread
  | f32 =>
    have hread := ((Reads.readFixed (e := e) (k := 4) hb host (by decide)
      (UInt32.ofNat n).toBitVec).map UInt32.ofBitVec).map UInt32.toNat
    rwa [show (UInt32.ofBitVec (UInt32.ofNat n).toBitVec).toNat = n from
      UInt32.toNat_ofNat_of_lt' hfit] at hread
  | f64 =>
    have hread := ((Reads.readFixed (e := e) (k := 8) hb host (by decide)
      (UInt64.ofNat n).toBitVec).map UInt64.ofBitVec).map UInt64.toNat
    rwa [show (UInt64.ofBitVec (UInt64.ofNat n).toBitVec).toNat = n from
      UInt64.toNat_ofNat_of_lt' (hfit.lt.trans (by decide))] at hread
  | vint =>
    have hread := (Reads.readUint64 (e := e) hb host (UInt64.ofNat n)).map UInt64.toNat
    rwa [UInt64.toNat_ofNat_of_lt' (hfit.lt.trans (by decide))] at hread

theorem Aligned.run_read_zero (h : Aligned b s) :
    (read 0).run s = if s.position = s.capacity then .error .nullNode s else .ok [] s := by
  have hle := h.position_le_capacity
  unfold read
  simp only [EStateM.run_bind, EStateM.run_get, Nat.not_lt_zero, gt_iff_lt, if_false]
  by_cases hend : s.position = s.capacity
  · rw [h.cur, if_pos hend, if_pos hend]
    rfl
  · obtain ⟨node, hderef, -, -⟩ := h.run_deref_cur (by omega)
    rw [hderef, if_neg hend]
    rfl

/-- The last string is empty and the stored bytes fill whole blocks: the last read finds
the cursor at the end of the capacity. -/
def EndsBlocks (host e : Endian) (b : Nat) (xs : List (LengthCode × List UInt8)) : Prop :=
  xs.getLast?.any (·.2.isEmpty) = true ∧ b ∣ (xs.flatMap (stringBytes host e)).length

instance (host e : Endian) (b : Nat) (xs : List (LengthCode × List UInt8)) :
    Decidable (EndsBlocks host e b xs) :=
  inferInstanceAs (Decidable (_ ∧ _))

theorem stringBytes_ne_nil (host e : Endian) (x : LengthCode × List UInt8) :
    stringBytes host e x ≠ [] := by
  obtain ⟨k, value⟩ := x
  have hbytes : k.bytes host e value.length ≠ [] := by
    cases k with
    | f16 | f32 | f64 =>
      intro hnil
      have hlen := congrArg List.length hnil
      simp [LengthCode.bytes, fixedBytes] at hlen
    | vint =>
      show groups 64 _ ≠ []
      unfold groups
      split <;> simp
  simp [stringBytes, hbytes]

/-- The bytes of a string are read, unless there are none and the cursor is at the end of
the capacity. -/
theorem WellFormed.consumes_read_string (hb : 1 ≤ b) (h : WellFormed b s)
    {value rest : List UInt8} (hunread : s.unread = value ++ rest) :
    Consumes b (read value.length) s value.length
      (if value = [] ∧ rest = [] ∧ s.size = s.capacity then .error .nullNode else .ok value) := by
  cases value with
  | nil =>
    have hle := h.position_le
    have hcap := h.size_le
    have hlength := h.length_unread
    rw [hunread, List.nil_append] at hlength
    have hend : s.position = s.capacity ↔ rest = [] ∧ s.size = s.capacity := by
      rw [← List.length_eq_zero_iff]
      omega
    have hread := h.toAligned.run_read_zero
    simp only [hend] at hread
    simp only [true_and, List.length_nil]
    split at hread
    case isTrue hcond =>
      rw [if_pos hcond, Consumes, h.toAligned.shift_zero]
      exact hread
    case isFalse hcond =>
      rw [if_neg hcond, Consumes, h.toAligned.shift_zero]
      exact hread
  | cons x value =>
    rw [if_neg (by simp)]
    have hread := h.consumes_read hb (n := (x :: value).length) (Nat.succ_pos _)
      (by rw [hunread, List.length_append]; exact Nat.le_add_right _ _)
    rwa [hunread, List.take_left] at hread

/-- The reads give every string, unless the last one is empty and the data fills the
capacity; then the last read follows a null pointer. -/
theorem WellFormed.run_readStrings (hb : 1 ≤ b) (host : Endian)
    (xs : List (LengthCode × List UInt8)) (hfit : ∀ x ∈ xs, x.1.Fits x.2.length)
    (s : ByteArray) (h : WellFormed b s) (he : s.endian = e)
    (hunread : s.unread = xs.flatMap (stringBytes host e)) :
    if xs.getLast?.any (·.2.isEmpty) = true ∧ s.size = s.capacity then
      ∃ s', (readStrings host (xs.map Prod.fst)).run s = .error .nullNode s'
    else ∃ s', (readStrings host (xs.map Prod.fst)).run s = .ok (xs.map Prod.snd) s' ∧
      s'.getReadSize = 0 := by
  induction xs generalizing s with
  | nil =>
    rw [if_neg (by simp)]
    refine ⟨s, rfl, ?_⟩
    rw [getReadSize, ← h.length_unread, hunread]
    rfl
  | cons x xs ih =>
    obtain ⟨k, value⟩ := x
    rw [List.flatMap_cons, stringBytes, List.append_assoc] at hunread
    obtain ⟨s₁, hlen, h₁, he₁, hunread₁⟩ :=
      LengthCode.reads_readLength hb host (hfit (k, value) List.mem_cons_self) s _ h he hunread
    obtain ⟨hsize₁, hcap₁⟩ := LengthCode.readLength_keeps h hb hlen
    have hrest : xs.flatMap (stringBytes host e) = [] ↔ xs = [] := by
      cases xs with
      | nil => simp
      | cons y ys => simp [stringBytes_ne_nil]
    have hread := h₁.consumes_read_string hb hunread₁
    simp only [hrest, hsize₁, hcap₁] at hread
    simp only [List.map_cons, readStrings, LengthCode.readString_eq, EStateM.run_bind, hlen,
      readChars_of_lt (hfit (k, value) List.mem_cons_self).lt]
    by_cases hstop : value = [] ∧ xs = [] ∧ s.size = s.capacity
    · obtain ⟨rfl, rfl, hfull⟩ := hstop
      rw [if_pos ⟨rfl, rfl, hfull⟩] at hread
      have hnull : (read 0).run s₁ = .error .nullNode _ := hread
      rw [if_pos ⟨rfl, hfull⟩]
      simp only [List.length_nil, hnull]
      exact ⟨_, rfl⟩
    · rw [if_neg hstop] at hread
      have hvalue : (read value.length).run s₁ = .ok value (shift b value.length s₁) := hread
      have h₂ := h₁.shifted (k := value.length)
        (by rw [hunread₁, List.length_append]; exact Nat.le_add_right _ _)
      have hxs := ih (fun x hx => hfit x (List.mem_cons_of_mem _ hx)) (shift b value.length s₁) h₂
        he₁ (by rw [unread_shift, hunread₁, List.drop_left])
      have hlast : (((k, value) :: xs).getLast?.any (·.2.isEmpty) = true ∧ s.size = s.capacity) ↔
          (xs.getLast?.any (·.2.isEmpty) = true ∧
            (shift b value.length s₁).size = (shift b value.length s₁).capacity) := by
        rw [show (shift b value.length s₁).size = s.size from hsize₁,
          show (shift b value.length s₁).capacity = s.capacity from hcap₁]
        cases xs with
        | nil =>
          simp only [List.getLast?_singleton, Option.any_some, List.isEmpty_iff]
          constructor
          · rintro ⟨hnil, hfull⟩
            exact absurd ⟨hnil, rfl, hfull⟩ hstop
          · rintro ⟨hnone, -⟩
            cases hnone
        | cons y ys => rw [List.getLast?_cons_cons]
      simp only [hlast, hvalue]
      split
      · rename_i hcond
        rw [if_pos hcond] at hxs
        obtain ⟨s₃, hrun⟩ := hxs
        exact ⟨s₃, by rw [hrun]⟩
      · rename_i hcond
        rw [if_neg hcond] at hxs
        obtain ⟨s₃, hrun, hdone⟩ := hxs
        exact ⟨s₃, by rw [hrun]; rfl, hdone⟩

/-- Strings written into a fresh object and read back after `setPosition(0)` are returned
exactly, with nothing left to read, if and only if they do not end with an empty one at
the end of a block. -/
theorem stringTrip_fresh (heap : Heap) (host : Endian) (little : Bool) (b : Nat) (hb : 1 ≤ b)
    (xs : List (LengthCode × List UInt8)) (hfit : ∀ x ∈ xs, x.1.Fits x.2.length) :
    (∃ s', (stringTrip heap host little xs).run (fresh heap b) = .ok (xs.map Prod.snd, 0) s') ↔
      ¬ EndsBlocks host (if little then .little else .big) b xs := by
  obtain ⟨e, he⟩ : ∃ e, e = (if little then Endian.little else Endian.big) := ⟨_, rfl⟩
  have hfresh : WellFormed b { fresh heap b with endian := e } :=
    let h := wellFormed_fresh heap hb
    ⟨⟨h.baseSize, h.node_size, h.root, h.capacity, h.position_le_capacity, h.cur⟩,
      h.position_le, h.size_le⟩
  obtain ⟨s₁, hwrite, h₁, he₁, -, hstored, htight⟩ :=
    packs_writeStrings hb heap host xs { fresh heap b with endian := e } hfresh rfl rfl (.inl rfl)
  have hseek : ∃ s₂, (setPosition 0).run s₁ = .ok () s₂ ∧ WellFormed b s₂ ∧
      s₂.memory = s₁.memory ∧ s₂.position = 0 ∧ s₂.size = s₁.size ∧ s₂.endian = s₁.endian := by
    simpa using h₁.run_setPosition hb (Nat.zero_le _)
  obtain ⟨s₂, hseek, h₂, hmem, hpos, hsize, he₂⟩ := hseek
  have hbytes : s₁.stored = xs.flatMap (stringBytes host e) := by
    rw [hstored]
    simp [stored, fresh]
  have hunread : s₂.unread = xs.flatMap (stringBytes host e) := by
    rw [unread, stored, hpos, hmem, hsize, List.drop_zero, ← hbytes]
    rfl
  have hlength : s₂.size = (xs.flatMap (stringBytes host e)).length := by
    rw [← hunread, h₂.length_unread, hpos, Nat.sub_zero]
  have hcap : s₂.capacity = s₁.capacity := by
    rw [← h₂.toAligned.length_memory, hmem, h₁.toAligned.length_memory]
  have hends : EndsBlocks host e b xs ↔
      xs.getLast?.any (·.2.isEmpty) = true ∧ s₂.size = s₂.capacity := by
    unfold EndsBlocks
    refine and_congr_right fun hlast => ?_
    have hne : xs.flatMap (stringBytes host e) ≠ [] := by
      cases xs with
      | nil => cases hlast
      | cons x xs => simp [stringBytes_ne_nil]
    have hpositive : 0 < s₁.size := by
      rw [← hsize, hlength]
      exact List.length_pos_iff.mpr hne
    rw [hcap, hsize, h₁.size_eq_capacity_iff htight hpositive, ← hlength, hsize]
  have hread := h₂.run_readStrings hb host xs hfit s₂ (he₂.trans he₁) hunread
  simp only [stringTrip, setLittleEndian, EStateM.run_bind, EStateM.run_modify, ← he, hwrite,
    hseek, hends]
  split at hread
  case isTrue hcond =>
    obtain ⟨s₃, hrun⟩ := hread
    simp only [hrun]
    refine iff_of_false ?_ (not_not_intro hcond)
    rintro ⟨s', h⟩
    cases h
  case isFalse hcond =>
    obtain ⟨s₃, hrun, hdone⟩ := hread
    simp only [hrun]
    exact iff_of_true ⟨s₃, by simp only [EStateM.run_get, EStateM.run_pure, hdone]⟩ hcond

/-- An empty string in the middle of a block is read back. -/
theorem stringTrip_fresh_empty :
    ∃ s', (stringTrip (fun _ _ => 0) .little false [(.vint, []), (.f16, [7, 8])]).run
      (fresh (fun _ _ => 0) 4) = .ok ([[], [7, 8]], 0) s' :=
  (stringTrip_fresh (fun _ _ => 0) .little false 4 (by decide) [(.vint, []), (.f16, [7, 8])]
    (by simp [LengthCode.Fits])).mpr (by decide)

/-- Two length bytes fill the only block, and the empty read that follows has no node. -/
theorem stringTrip_null_node :
    ∃ s', (stringTrip (fun _ _ => 0) .little false [(.f16, [])]).run (fresh (fun _ _ => 0) 2) =
      .error .nullNode s' :=
  ⟨_, rfl⟩

end Sylar.ByteArray
