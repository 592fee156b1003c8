import Sylar.ByteArray.Scalars

/-! Readers on arbitrary bytes. `Consumes` says how far a reader has moved the cursor when it
returns or throws; it composes along `bind`, so the state that an exception leaves is known
for every reader that is put together from `read`. -/
namespace Sylar.ByteArray

open Lib.IntCodec

variable {α β : Type} {b : Nat} {s : ByteArray}

def stored (s : ByteArray) : List UInt8 := s.memory.take s.size

def unread (s : ByteArray) : List UInt8 := s.stored.drop s.position

@[simp] theorem WellFormed.length_unread {s : ByteArray} (h : WellFormed b s) :
    s.unread.length = s.size - s.position := by
  have hlen := h.toAligned.length_memory
  have hsize := h.size_le
  simp only [unread, stored, List.length_drop, List.length_take]
  omega

/-- From `s`, the reader `m` moves the cursor over `k` bytes and then ends as `r` says. -/
def Consumes (b : Nat) (m : M α) (s : ByteArray) (k : Nat) : Except Err α → Prop
  | .ok a => m.run s = .ok a (shift b k s)
  | .error err => m.run s = .error err (shift b k s)

@[simp] theorem shift_shift (j k : Nat) (s : ByteArray) :
    shift b j (shift b k s) = shift b (k + j) s := by
  simp only [shift, Nat.add_assoc]

@[simp] theorem unread_shift (k : Nat) (s : ByteArray) :
    (shift b k s).unread = s.unread.drop k := by
  rw [unread, unread, List.drop_drop]
  rfl

@[simp] theorem Aligned.shift_zero (h : Aligned b s) : shift b 0 s = s := by
  rw [shift, Nat.add_zero, ← h.cur]

theorem WellFormed.shifted (h : WellFormed b s) {k : Nat} (hk : k ≤ s.unread.length) :
    WellFormed b (shift b k s) := by
  have hle := h.position_le
  have hcap := h.size_le
  rw [h.length_unread] at hk
  exact ⟨h.toAligned.shifted (by omega), by simp only [shift]; omega, hcap⟩

namespace Consumes

variable {m : M α} {f : α → M β} {k j : Nat}

theorem pure (h : Aligned b s) (a : α) : Consumes b (Pure.pure a : M α) s 0 (.ok a) := by
  unfold Consumes
  rw [h.shift_zero]
  rfl

theorem bind {a : α} {r : Except Err β} (hm : Consumes b m s k (.ok a))
    (hf : Consumes b (f a) (shift b k s) j r) : Consumes b (m >>= f) s (k + j) r := by
  have hfirst : m.run s = .ok a (ByteArray.shift b k s) := hm
  cases r with
  | ok c =>
    have hrest : (f a).run _ = .ok c _ := hf
    show (m >>= f).run s = .ok c _
    rw [EStateM.run_bind, hfirst]
    simp only [hrest, shift_shift]
  | error err =>
    have hrest : (f a).run _ = .error err _ := hf
    show (m >>= f).run s = .error err _
    rw [EStateM.run_bind, hfirst]
    simp only [hrest, shift_shift]

theorem bind_error {err : Err} (hm : Consumes b m s k (.error err)) :
    Consumes b (m >>= f) s k (.error err) := by
  have hfirst : m.run s = .error err (ByteArray.shift b k s) := hm
  show (m >>= f).run s = .error err _
  rw [EStateM.run_bind, hfirst]

theorem map {r : Except Err α} (hm : Consumes b m s k r) (g : α → β) :
    Consumes b (m >>= fun a => Pure.pure (g a)) s k (r.map g) := by
  cases r with
  | ok a =>
    have hfirst : m.run s = .ok a (ByteArray.shift b k s) := hm
    show (m >>= fun a => Pure.pure (g a)).run s = .ok (g a) _
    rw [EStateM.run_bind, hfirst]
    rfl
  | error err => exact hm.bind_error

theorem get {f : ByteArray → M β} {r : Except Err β} (hf : Consumes b (f s) s k r) :
    Consumes b (MonadState.get >>= f) s k r := by
  cases r with
  | ok c => exact hf
  | error err => exact hf

end Consumes

theorem WellFormed.consumes_read (h : WellFormed b s) (hb : 1 ≤ b) {n : Nat} (hn : 1 ≤ n)
    (hfits : n ≤ s.unread.length) : Consumes b (read n) s n (.ok (s.unread.take n)) := by
  rw [h.length_unread] at hfits
  exact (h.run_read_shift hb hn hfits).1

theorem WellFormed.consumes_read_short (h : WellFormed b s) {n : Nat}
    (hshort : s.unread.length < n) :
    Consumes b (read n) s 0 (.error (.outOfRange "not enough len")) := by
  unfold Consumes
  rw [h.length_unread] at hshort
  rw [h.toAligned.shift_zero]
  exact run_read_short hshort

@[simp] theorem length_object (host : Endian) (k v : Nat) : (object host k v).length = k := by
  cases host <;> simp [object]

theorem objectValue_object (host : Endian) {k v : Nat} (h : v < 256 ^ k) :
    objectValue host (object host k v) = v := by
  cases host
  · exact ofBytesLE_bytesLE k v h
  · simp only [objectValue, object, List.reverse_reverse]
    exact ofBytesLE_bytesLE k v h

theorem object_one (host : Endian) (x : UInt8) : object host 1 x.toNat = [x] := by
  cases host <;> simp [object, bytesLE]

theorem WellFormed.consumes_readFuint8 (h : WellFormed b s) (hb : 1 ≤ b) (host : Endian)
    {x : UInt8} {rest : List UInt8} (hunread : s.unread = x :: rest) :
    Consumes b (readFuint8 host) s 1 (.ok x) := by
  have hread := h.consumes_read hb (Nat.le_refl 1) (by rw [hunread]; exact Nat.succ_pos _)
  have hmap := hread.map fun bytes => UInt8.ofNat (objectValue host bytes)
  have hbyte := objectValue_object host (k := 1) x.toNat_lt
  rw [object_one] at hbyte
  rwa [Except.map, hunread, List.take_succ_cons, List.take_zero, hbyte,
    UInt8.ofNat_toNat] at hmap

theorem WellFormed.consumes_readFuint8_short (h : WellFormed b s) (host : Endian)
    (hunread : s.unread = []) :
    Consumes b (readFuint8 host) s 0 (.error (.outOfRange "not enough len")) :=
  (h.consumes_read_short (by rw [hunread]; exact Nat.succ_pos 0)).bind_error

theorem objectValue_lt (e : Endian) (bytes : List UInt8) :
    objectValue e bytes < 2 ^ (8 * bytes.length) := by
  rw [two_pow_bytes]
  cases e with
  | little => exact ofBytesLE_lt bytes
  | big =>
    have hlt := ofBytesLE_lt bytes.reverse
    rwa [List.length_reverse] at hlt

theorem toNat_byteswap {e host : Endian} (hne : e ≠ host) {k : Nat} {bytes : List UInt8}
    (hlen : bytes.length = k) {v : BitVec (8 * k)} (hv : v.toNat = objectValue host bytes) :
    (byteswap k v).toNat = objectValue e bytes := by
  unfold byteswap
  rw [toNat_swapBytes, hv]
  cases host with
  | little =>
    obtain rfl : e = .big := by cases e with
      | little => exact absurd rfl hne
      | big => rfl
    have hback := bytesLE_ofBytesLE bytes
    rw [hlen] at hback
    simp only [objectValue, hback]
  | big =>
    obtain rfl : e = .little := by cases e with
      | little => rfl
      | big => exact absurd rfl hne
    have hback := bytesLE_ofBytesLE bytes.reverse
    rw [List.length_reverse, hlen] at hback
    simp only [objectValue, hback, List.reverse_reverse]

theorem WellFormed.consumes_readFixed (h : WellFormed b s) (hb : 1 ≤ b) (host : Endian) {k : Nat}
    (hk : 1 ≤ k) (hfits : k ≤ s.unread.length) :
    ∃ v, Consumes b (readFixed host k) s k (.ok v) ∧
      v.toNat = objectValue s.endian (s.unread.take k) := by
  obtain ⟨bytes, hbytes⟩ : ∃ bytes, bytes = s.unread.take k := ⟨_, rfl⟩
  have hlen : bytes.length = k := by
    rw [hbytes, List.length_take]
    omega
  have hvalue (e : Endian) : (BitVec.ofNat (8 * k) (objectValue e bytes)).toNat =
      objectValue e bytes := by
    have hlt := objectValue_lt e bytes
    rw [hlen] at hlt
    rw [BitVec.toNat_ofNat, Nat.mod_eq_of_lt hlt]
  have hread := h.consumes_read hb hk hfits
  rw [← hbytes] at hread ⊢
  refine ⟨_, Consumes.bind (j := 0) hread (Consumes.get (Consumes.pure (h.shifted hfits).toAligned _)), ?_⟩
  by_cases he : s.endian = host
  · rw [if_pos (show (shift b k s).endian = host from he), hvalue, he]
  · rw [if_neg (show ¬ (shift b k s).endian = host from he)]
    exact toNat_byteswap he hlen (hvalue host)

theorem WellFormed.consumes_readFixed_short (h : WellFormed b s) (host : Endian) {k : Nat}
    (hshort : s.unread.length < k) :
    Consumes b (readFixed host k) s 0 (.error (.outOfRange "not enough len")) :=
  (h.consumes_read_short hshort).bind_error

/-- The number of bytes of the varint in front of `bytes`: up to the first byte without the
high bit, and `c` when there is none among the first `c` bytes. -/
def varintLength (c : Nat) (bytes : List UInt8) : Nat :=
  ((bytes.take c).findIdx? (·.toNat < 0x80)).elim c (· + 1)

@[simp] theorem varintLength_zero (bytes : List UInt8) : varintLength 0 bytes = 0 := by
  simp [varintLength]

@[simp] theorem varintLength_nil (c : Nat) : varintLength c [] = c := by
  simp [varintLength]

theorem varintLength_cons (c : Nat) (x : UInt8) (bytes : List UInt8) :
    varintLength (c + 1) (x :: bytes) =
      if x.toNat < 0x80 then 1 else varintLength c bytes + 1 := by
  unfold varintLength
  rw [List.take_succ_cons, List.findIdx?_cons]
  by_cases hx : x.toNat < 0x80
  · rw [if_pos hx, if_pos (decide_eq_true hx)]
    rfl
  · rw [if_neg hx, if_neg (by simpa using hx)]
    cases (bytes.take c).findIdx? (·.toNat < 0x80) with
    | none => rfl
    | some i => rfl

theorem varintLength_le (c : Nat) (bytes : List UInt8) : varintLength c bytes ≤ c := by
  induction c generalizing bytes with
  | zero => simp
  | succ c ih =>
    cases bytes with
    | nil => simp
    | cons x bytes =>
      have := ih bytes
      rw [varintLength_cons]
      split
      · omega
      · omega

/-- The loop of the varint readers with `c` passes to go. Where the bytes end before the
varint does, all of them have been consumed when the loop is left. -/
theorem WellFormed.consumes_varintRead (hb : 1 ≤ b) (host : Endian) {w : Nat} (c fuel i : Nat)
    (result : BitVec w) (s : ByteArray) (h : WellFormed b s) (hfuel : c < fuel)
    (hlast : w ≤ i + 7 * c) (hnext : i + 7 * c < w + 7) (hres : result.toNat < 2 ^ i) :
    if varintLength c s.unread ≤ s.unread.length then
      ∃ v : BitVec w, Consumes b (varintRead host fuel i result) s (varintLength c s.unread) (.ok v) ∧
        v.toNat = (result.toNat +
          2 ^ i * ofGroups (s.unread.take (varintLength c s.unread))) % 2 ^ w
    else
      Consumes b (varintRead host fuel i result) s s.unread.length
        (.error (.outOfRange "not enough len")) := by
  induction c generalizing fuel i result s with
  | zero =>
    obtain ⟨fuel, rfl⟩ : ∃ fuel', fuel = fuel' + 1 := ⟨fuel - 1, by omega⟩
    have hi : ¬ i < w := by omega
    rw [varintRead, if_neg hi, varintLength_zero, if_pos (Nat.zero_le _)]
    refine ⟨result, Consumes.pure h.toAligned result, ?_⟩
    simp [Nat.mod_eq_of_lt result.isLt]
  | succ c ih =>
    obtain ⟨fuel, rfl⟩ : ∃ fuel', fuel = fuel' + 1 := ⟨fuel - 1, by omega⟩
    have hi : i < w := by omega
    rw [varintRead, if_pos hi]
    cases hunread : s.unread with
    | nil =>
      have hnone : ¬ varintLength (c + 1) [] ≤ ([] : List UInt8).length := by simp
      rw [if_neg hnone]
      exact (h.consumes_readFuint8_short host hunread).bind_error
    | cons x rest =>
      have hbyte := h.consumes_readFuint8 hb host hunread
      have h₁ := h.shifted (k := 1) (by rw [hunread]; exact Nat.succ_pos _)
      by_cases hx : x.toNat < 0x80
      · have hk : varintLength (c + 1) (x :: rest) = 1 := by rw [varintLength_cons, if_pos hx]
        have hfit : 1 ≤ (x :: rest).length := Nat.succ_pos _
        rw [hk, if_pos hfit]
        refine ⟨result ||| (BitVec.ofNat w x.toNat <<< i), ?_, ?_⟩
        · refine Consumes.bind (j := 0) hbyte ?_
          rw [if_pos hx]
          exact Consumes.pure h₁.toAligned _
        · rw [toNat_or_shiftLeft _ _ _ hres]
          simp [Nat.mod_eq_of_lt hx]
      · have hk : varintLength (c + 1) (x :: rest) = 1 + varintLength c rest := by
          rw [varintLength_cons, if_neg hx, Nat.add_comm]
        obtain ⟨hor, hbound⟩ := toNat_or_group result i x.toNat hres
        have hrest := ih fuel (i + 7) _ (shift b 1 s) h₁ (by omega) (by omega) (by omega) hbound
        rw [unread_shift, hunread, List.drop_succ_cons, List.drop_zero] at hrest
        rw [hk]
        by_cases hfit : varintLength c rest ≤ rest.length
        · have hfit' : 1 + varintLength c rest ≤ (x :: rest).length := by
            rw [List.length_cons]
            omega
          rw [if_pos hfit] at hrest
          rw [if_pos hfit']
          obtain ⟨v, hv, hvalue⟩ := hrest
          refine ⟨v, hbyte.bind ?_, ?_⟩
          · rw [if_neg hx]
            exact hv
          · rw [hvalue, hor, Nat.mod_add_mod, Nat.add_comm 1, List.take_succ_cons,
              ofGroups_cons, Nat.pow_add]
            congr 1
            ring
        · have hfit' : ¬ 1 + varintLength c rest ≤ (x :: rest).length := by
            rw [List.length_cons]
            omega
          rw [if_neg hfit] at hrest
          rw [if_neg hfit', List.length_cons, Nat.add_comm rest.length]
          refine hbyte.bind ?_
          rw [if_neg hx]
          exact hrest

/-- A reader of varints, of at most `c` bytes, that returns words of `w` bits. -/
def ReadsVarint (b c w : Nat) (m : M α) (toNat : α → Nat) (s : ByteArray) : Prop :=
  if varintLength c s.unread ≤ s.unread.length then
    ∃ v, Consumes b m s (varintLength c s.unread) (.ok v) ∧
      toNat v = ofGroups (s.unread.take (varintLength c s.unread)) % 2 ^ w
  else Consumes b m s s.unread.length (.error (.outOfRange "not enough len"))

theorem WellFormed.readsVarint (h : WellFormed b s) (hb : 1 ≤ b) (host : Endian) {c w : Nat}
    (hc : c < w) (hlast : w ≤ 7 * c) (hnext : 7 * c < w + 7) {g : BitVec w → α} {toNat : α → Nat}
    (hg : ∀ v, toNat (g v) = v.toNat) :
    ReadsVarint b c w (do let v ← varintRead host w 0 0#w; pure (g v)) toNat s := by
  have hrun := h.consumes_varintRead hb host c w 0 0#w s hc (by omega) (by omega) (by simp)
  unfold ReadsVarint
  split at hrun
  · rename_i hfit
    obtain ⟨v, hv, hvalue⟩ := hrun
    rw [if_pos hfit]
    refine ⟨g v, hv.map g, ?_⟩
    rw [hg, hvalue]
    simp
  · rename_i hfit
    rw [if_neg hfit]
    exact hrun.bind_error

theorem WellFormed.readsVarint32 (h : WellFormed b s) (hb : 1 ≤ b) (host : Endian) :
    ReadsVarint b 5 32 (readUint32 host) UInt32.toNat s :=
  h.readsVarint hb host (by decide) (by decide) (by decide) fun _ => rfl

theorem WellFormed.readsVarint64 (h : WellFormed b s) (hb : 1 ≤ b) (host : Endian) :
    ReadsVarint b 10 64 (readUint64 host) UInt64.toNat s :=
  h.readsVarint hb host (by decide) (by decide) (by decide) fun _ => rfl

end Sylar.ByteArray
