import Sylar.ByteArray.Consumes

/-! Typed values written one after the other are read back in the same order.
`Appends` and `Reads` say what a writer adds to the stored bytes and what a
reader consumes of the unread ones; they compose, so that each scalar type needs
one lemma of each kind. -/
namespace Sylar.ByteArray

open Lib.Blocks Lib.IntCodec

variable {α β : Type} {b : Nat} {e : Endian}

/-- `m` consumes exactly `bytes`, whatever follows them, and returns `a`. -/
def Reads (b : Nat) (e : Endian) (m : M α) (bytes : List UInt8) (a : α) : Prop :=
  ∀ (s : ByteArray) (rest : List UInt8), WellFormed b s → s.endian = e →
    s.unread = bytes ++ rest →
    ∃ s', m.run s = .ok a s' ∧ WellFormed b s' ∧ s'.endian = e ∧ s'.unread = rest

theorem Reads.pure (a : α) : Reads b e (pure a : M α) [] a := by
  intro s rest h he hunread
  exact ⟨s, rfl, h, he, hunread⟩

theorem Reads.bind {m : M α} {f : α → M β} {xs ys : List UInt8} {a : α} {c : β}
    (hm : Reads b e m xs a) (hf : Reads b e (f a) ys c) :
    Reads b e (m >>= f) (xs ++ ys) c := by
  intro s rest h he hunread
  obtain ⟨s₁, hrun, h₁, he₁, hunread₁⟩ := hm s (ys ++ rest) h he (by rw [hunread, List.append_assoc])
  obtain ⟨s₂, hrun₂, h₂, he₂, hunread₂⟩ := hf s₁ rest h₁ he₁ hunread₁
  exact ⟨s₂, by rw [EStateM.run_bind, hrun]; exact hrun₂, h₂, he₂, hunread₂⟩

theorem Reads.map {m : M α} {xs : List UInt8} {a : α} (hm : Reads b e m xs a) (f : α → β) :
    Reads b e (do let v ← m; Pure.pure (f v)) xs (f a) := by
  have h := hm.bind (f := fun v => Pure.pure (f v)) (Reads.pure (f a))
  rwa [List.append_nil] at h

theorem Reads.of_consumes {m : M α} {bytes : List UInt8} {a : α}
    (h : ∀ (s : ByteArray) (rest : List UInt8), WellFormed b s → s.endian = e →
      s.unread = bytes ++ rest → Consumes b m s bytes.length (.ok a)) : Reads b e m bytes a := by
  intro s rest hs he hunread
  have hfits : bytes.length ≤ s.unread.length := by
    rw [hunread, List.length_append]
    exact Nat.le_add_right _ _
  refine ⟨shift b bytes.length s, h s rest hs he hunread, hs.shifted hfits, he, ?_⟩
  rw [unread_shift, hunread, List.drop_left]

theorem Reads.read (hb : 1 ≤ b) {n : Nat} (hn : 1 ≤ n) {bytes : List UInt8}
    (hlen : bytes.length = n) : Reads b e (ByteArray.read n) bytes bytes := by
  subst hlen
  refine Reads.of_consumes fun s rest hs _ hunread => ?_
  have hread := hs.consumes_read hb hn (by rw [hunread, List.length_append]; omega)
  rwa [hunread, List.take_left] at hread

/-- `m` appends `bytes` to an object whose cursor is at the end of its data. -/
def Appends (b : Nat) (e : Endian) (m : M Unit) (bytes : List UInt8) : Prop :=
  ∀ s : ByteArray, WellFormed b s → s.endian = e → s.position = s.size →
    ∃ s', m.run s = .ok () s' ∧ WellFormed b s' ∧ s'.endian = e ∧
      s'.position = s'.size ∧ s'.stored = s.stored ++ bytes

theorem Appends.pure : Appends b e (Pure.pure () : M Unit) [] := by
  intro s h he hpos
  exact ⟨s, rfl, h, he, hpos, by simp⟩

theorem Appends.bind {m k : M Unit} {xs ys : List UInt8} (hm : Appends b e m xs)
    (hk : Appends b e k ys) : Appends b e (do m; k) (xs ++ ys) := by
  intro s h he hpos
  obtain ⟨s₁, hrun, h₁, he₁, hpos₁, hst₁⟩ := hm s h he hpos
  obtain ⟨s₂, hrun₂, h₂, he₂, hpos₂, hst₂⟩ := hk s₁ h₁ he₁ hpos₁
  refine ⟨s₂, ?_, h₂, he₂, hpos₂, by rw [hst₂, hst₁, List.append_assoc]⟩
  rw [EStateM.run_bind, hrun]
  exact hrun₂

theorem Appends.write (hb : 1 ≤ b) (heap : Heap) (bytes : List UInt8) :
    Appends b e (ByteArray.write heap bytes) bytes := by
  intro s h he hpos
  obtain ⟨s', hrun, h', ⟨pad, -, hmem⟩, hpos', hsize', hend, -⟩ := h.run_write hb heap bytes
  have hlen := h.toAligned.length_memory
  have hle := h.size_le
  have hend' : s'.size = s.position + bytes.length := by
    rw [hsize', hpos, Nat.max_eq_right (Nat.le_add_right _ _)]
  refine ⟨s', hrun, h', hend.trans he, by omega, ?_⟩
  unfold stored
  rw [hmem, hend', take_overwrite_end _ _ _ (by simp; omega),
    List.take_append_of_le_length (by omega), hpos]

def fixedBytes (host e : Endian) (k : Nat) (value : BitVec (8 * k)) : List UInt8 :=
  object host k (if e ≠ host then byteswap k value else value).toNat

theorem Appends.writeFixed (hb : 1 ≤ b) (heap : Heap) (host : Endian) (k : Nat)
    (value : BitVec (8 * k)) :
    Appends b e (ByteArray.writeFixed heap host k value) (fixedBytes host e k value) := by
  intro s h he hpos
  have hwrite := Appends.write (e := e) hb heap (fixedBytes host e k value) s h he hpos
  unfold ByteArray.writeFixed
  rw [EStateM.run_bind, EStateM.run_get]
  simp only [he]
  exact hwrite

@[simp] theorem length_fixedBytes (host e : Endian) (k : Nat) (value : BitVec (8 * k)) :
    (fixedBytes host e k value).length = k := length_object _ _ _

theorem objectValue_fixedBytes (host e : Endian) (k : Nat) (value : BitVec (8 * k)) :
    objectValue e (fixedBytes host e k value) = value.toNat := by
  have hobject : ∀ v : BitVec (8 * k), objectValue host (object host k v.toNat) = v.toNat :=
    fun v => objectValue_object host (by rw [← two_pow_bytes]; exact v.isLt)
  unfold fixedBytes
  by_cases hhost : e = host
  · rw [if_neg (not_not.mpr hhost), hhost, hobject]
  · rw [if_pos hhost, ← toNat_byteswap hhost (length_object host k _) (hobject _).symm, byteswap,
      byteswap, swapBytes_swapBytes]

theorem Reads.readFixed (hb : 1 ≤ b) (host : Endian) {k : Nat} (hk : 1 ≤ k)
    (value : BitVec (8 * k)) :
    Reads b e (ByteArray.readFixed host k) (fixedBytes host e k value) value := by
  refine Reads.of_consumes fun s rest hs he hunread => ?_
  have hlen := length_fixedBytes host e k value
  obtain ⟨v, hread, hvalue⟩ :=
    hs.consumes_readFixed hb host hk (by rw [hunread, List.length_append]; omega)
  obtain rfl : v = value := by
    apply BitVec.eq_of_toNat_eq
    rw [hvalue, hunread, he, List.take_left' hlen, objectValue_fixedBytes]
  rwa [hlen]

theorem run_varintLoop {w : Nat} (cap fuel m : Nat) (tmp : List UInt8) (value : BitVec w)
    (s : ByteArray) (hm : m < fuel) (hvalue : value.toNat < 128 ^ (m + 1))
    (hcap : tmp.length + (m + 1) ≤ cap) :
    (varintLoop cap fuel tmp value).run s = .ok (tmp ++ groups fuel value.toNat) s := by
  induction fuel generalizing m tmp value with
  | zero => omega
  | succ fuel ih =>
    have hpush : ∀ x, (push cap tmp x).run s = .ok (tmp ++ [x]) s := by
      intro x
      rw [push, if_pos (by omega)]
      rfl
    rw [varintLoop, groups]
    by_cases hbig : 128 ≤ value.toNat
    · obtain ⟨m, rfl⟩ : ∃ m', m = m' + 1 := ⟨m - 1, by
        rcases m with _ | m
        · simp at hvalue; omega
        · rfl⟩
      have hshift : (value >>> 7).toNat = value.toNat / 128 := by
        rw [BitVec.toNat_ushiftRight, Nat.shiftRight_eq_div_pow]
      have hlow : (value.toNat &&& 0x7F) ||| 0x80 = value.toNat % 128 + 128 := by
        have hand : value.toNat &&& 0x7F = value.toNat % 128 :=
          Nat.and_two_pow_sub_one_eq_mod value.toNat 7
        have hor := Nat.two_pow_add_eq_or_of_lt (i := 7) (b := value.toNat % 128)
          (Nat.mod_lt _ (by decide)) 1
        rw [Nat.mul_one] at hor
        rw [hand, Nat.or_comm, Nat.add_comm]
        exact hor.symm
      have hrest := ih m (tmp ++ [UInt8.ofNat (value.toNat % 128 + 128)]) (value >>> 7)
        (by omega)
        (by
          rw [hshift]
          apply Nat.div_lt_of_lt_mul
          rwa [Nat.pow_succ, Nat.mul_comm] at hvalue)
        (by simp; omega)
      rw [if_pos hbig, if_pos hbig, EStateM.run_bind, hpush, hlow]
      simp only [hrest, hshift, List.append_assoc, List.singleton_append]
    · rw [if_neg hbig, if_neg hbig, hpush]

theorem Appends.writeVarint (hb : 1 ≤ b) (heap : Heap) {w : Nat} (cap : Nat)
    (hcap : 1 ≤ cap) (hw : cap ≤ w) (hbits : 2 ^ w ≤ 128 ^ cap) (value : BitVec w) :
    Appends b e (ByteArray.writeVarint heap cap value) (groups w value.toNat) := by
  intro s h he hpos
  have hloop := run_varintLoop cap w (cap - 1) [] value s (by omega)
    (by rw [Nat.sub_add_cancel hcap]; exact Nat.lt_of_lt_of_le value.isLt hbits)
    (by simp; omega)
  unfold ByteArray.writeVarint
  rw [EStateM.run_bind, hloop]
  exact Appends.write (e := e) hb heap _ s h he hpos

theorem Reads.readFuint8 (hb : 1 ≤ b) (host : Endian) (x : UInt8) :
    Reads b e (ByteArray.readFuint8 host) (object host 1 x.toNat) x := by
  refine Reads.of_consumes fun s rest hs _ hunread => ?_
  rw [object_one] at hunread ⊢
  exact hs.consumes_readFuint8 hb host hunread

theorem varintLength_groups (c fuel v : Nat) (rest : List UInt8) (hv : v < 128 ^ (c + 1))
    (hfuel : c < fuel) :
    varintLength (c + 1) (groups fuel v ++ rest) = (groups fuel v).length := by
  induction c generalizing fuel v with
  | zero =>
    obtain ⟨fuel, rfl⟩ : ∃ fuel', fuel = fuel' + 1 := ⟨fuel - 1, by omega⟩
    have hsmall : ¬ 128 ≤ v := by omega
    have hbyte : (UInt8.ofNat v).toNat < 0x80 := by
      rw [UInt8.toNat_ofNat']
      omega
    rw [groups, if_neg hsmall, List.singleton_append, varintLength_cons, if_pos hbyte,
      List.length_singleton]
  | succ c ih =>
    obtain ⟨fuel, rfl⟩ : ∃ fuel', fuel = fuel' + 1 := ⟨fuel - 1, by omega⟩
    rw [groups]
    by_cases hbig : 128 ≤ v
    · have hbyte : ¬ (UInt8.ofNat (v % 128 + 128)).toNat < 0x80 := by
        rw [UInt8.toNat_ofNat']
        omega
      have hrest : v / 128 < 128 ^ (c + 1) := by
        apply Nat.div_lt_of_lt_mul
        rwa [Nat.pow_succ, Nat.mul_comm] at hv
      rw [if_pos hbig, List.cons_append, varintLength_cons, if_neg hbyte,
        ih fuel (v / 128) hrest (by omega), List.length_cons]
    · have hbyte : (UInt8.ofNat v).toNat < 0x80 := by
        rw [UInt8.toNat_ofNat']
        omega
      rw [if_neg hbig, List.singleton_append, varintLength_cons, if_pos hbyte,
        List.length_singleton]

theorem Reads.of_readsVarint {c w fuel v : Nat} {m : M α} {toNat : α → Nat} {a : α}
    (h : ∀ s : ByteArray, WellFormed b s → ReadsVarint b (c + 1) w m toNat s)
    (ha : toNat a = v) (hinj : ∀ x y, toNat x = toNat y → x = y) (hv : v < 128 ^ (c + 1))
    (hw : v < 2 ^ w) (hfuel : c < fuel) : Reads b e m (groups fuel v) a := by
  refine Reads.of_consumes fun s rest hs _ hunread => ?_
  have hread := h s hs
  have hlen : varintLength (c + 1) s.unread = (groups fuel v).length := by
    rw [hunread, varintLength_groups c fuel v rest hv hfuel]
  have hfits : varintLength (c + 1) s.unread ≤ s.unread.length := by
    rw [hlen, hunread, List.length_append]
    exact Nat.le_add_right _ _
  have hvalue : ofGroups (groups fuel v) = v :=
    ofGroups_groups fuel v (Nat.lt_of_lt_of_le hv (Nat.pow_le_pow_right (by decide) hfuel))
  rw [ReadsVarint, if_pos hfits, hlen, hunread, List.take_left, hvalue,
    Nat.mod_eq_of_lt hw] at hread
  obtain ⟨x, hx, hxv⟩ := hread
  obtain rfl : x = a := hinj x a (hxv.trans ha.symm)
  exact hx

theorem Reads.readUint32 (hb : 1 ≤ b) (host : Endian) (v : UInt32) :
    Reads b e (ByteArray.readUint32 host) (groups 32 v.toBitVec.toNat) v :=
  Reads.of_readsVarint (fun _ hs => hs.readsVarint32 hb host) rfl (fun _ _ => UInt32.toNat_inj.mp)
    (Nat.lt_trans v.toBitVec.isLt (by decide)) v.toBitVec.isLt (by decide)

theorem Reads.readUint64 (hb : 1 ≤ b) (host : Endian) (v : UInt64) :
    Reads b e (ByteArray.readUint64 host) (groups 64 v.toBitVec.toNat) v :=
  Reads.of_readsVarint (fun _ hs => hs.readsVarint64 hb host) rfl (fun _ _ => UInt64.toNat_inj.mp)
    (Nat.lt_trans v.toBitVec.isLt (by decide)) v.toBitVec.isLt (by decide)

theorem toBitVec_encodeZigzag32 (v : Int32) :
    (encodeZigzag32 v).toBitVec = zigzag v.toBitVec := by
  unfold encodeZigzag32 zigzag
  simp only [Int32.lt_iff_toBitVec_slt, Int32.toBitVec_zero]
  split <;> rfl

theorem decodeZigzag32_encode (v : Int32) : decodeZigzag32 (encodeZigzag32 v) = v := by
  have hdec : (decodeZigzag32 (encodeZigzag32 v)).toBitVec =
      unzigzag (encodeZigzag32 v).toBitVec := rfl
  apply Int32.toBitVec_inj.mp
  rw [hdec, toBitVec_encodeZigzag32, unzigzag_zigzag _ (by decide)]

theorem toBitVec_encodeZigzag64 (v : Int64) :
    (encodeZigzag64 v).toBitVec = zigzag v.toBitVec := by
  unfold encodeZigzag64 zigzag
  simp only [Int64.lt_iff_toBitVec_slt, Int64.toBitVec_zero]
  split <;> rfl

theorem decodeZigzag64_encode (v : Int64) : decodeZigzag64 (encodeZigzag64 v) = v := by
  have hdec : (decodeZigzag64 (encodeZigzag64 v)).toBitVec =
      unzigzag (encodeZigzag64 v).toBitVec := rfl
  apply Int64.toBitVec_inj.mp
  rw [hdec, toBitVec_encodeZigzag64, unzigzag_zigzag _ (by decide)]

def Scalar.bytes (host e : Endian) : Scalar → List UInt8
  | .fint8 v => object host 1 v.toBitVec.toNat
  | .fuint8 v => object host 1 v.toNat
  | .fint16 v => fixedBytes host e 2 v.toBitVec
  | .fuint16 v => fixedBytes host e 2 v.toBitVec
  | .fint32 v => fixedBytes host e 4 v.toBitVec
  | .fuint32 v => fixedBytes host e 4 v.toBitVec
  | .fint64 v => fixedBytes host e 8 v.toBitVec
  | .fuint64 v => fixedBytes host e 8 v.toBitVec
  | .uint32 v => groups 32 v.toBitVec.toNat
  | .uint64 v => groups 64 v.toBitVec.toNat
  | .int32 v => groups 32 (encodeZigzag32 v).toBitVec.toNat
  | .int64 v => groups 64 (encodeZigzag64 v).toBitVec.toNat
  | .float bits => fixedBytes host e 4 bits.toBitVec
  | .double bits => fixedBytes host e 8 bits.toBitVec

theorem Scalar.appends (hb : 1 ≤ b) (heap : Heap) (host : Endian) (x : Scalar) :
    Appends b e (x.write heap host) (x.bytes host e) := by
  cases x with
  | fint8 v => exact Appends.write hb heap _
  | fuint8 v => exact Appends.write hb heap _
  | fint16 v => exact Appends.writeFixed hb heap host 2 _
  | fuint16 v => exact Appends.writeFixed hb heap host 2 _
  | fint32 v => exact Appends.writeFixed hb heap host 4 _
  | fuint32 v => exact Appends.writeFixed hb heap host 4 _
  | fint64 v => exact Appends.writeFixed hb heap host 8 _
  | fuint64 v => exact Appends.writeFixed hb heap host 8 _
  | uint32 v => exact Appends.writeVarint hb heap 5 (by decide) (by decide) (by decide) _
  | uint64 v => exact Appends.writeVarint hb heap 10 (by decide) (by decide) (by decide) _
  | int32 v => exact Appends.writeVarint hb heap 5 (by decide) (by decide) (by decide) _
  | int64 v => exact Appends.writeVarint hb heap 10 (by decide) (by decide) (by decide) _
  | float bits => exact Appends.writeFixed hb heap host 4 _
  | double bits => exact Appends.writeFixed hb heap host 8 _

theorem Scalar.reads (hb : 1 ≤ b) (host : Endian) (x : Scalar) :
    Reads b e (x.kind.read host) (x.bytes host e) x := by
  cases x with
  | fint8 v =>
    have hread := Reads.read (e := e) hb (Nat.le_refl 1) (length_object host 1 v.toBitVec.toNat)
    have hmap := hread.map fun bytes => Int8.ofBitVec (BitVec.ofNat 8 (objectValue host bytes))
    rw [objectValue_object host v.toBitVec.isLt, BitVec.ofNat_toNat, BitVec.setWidth_eq] at hmap
    exact hmap.map Scalar.fint8
  | fuint8 v => exact (Reads.readFuint8 hb host v).map Scalar.fuint8
  | fint16 v =>
    exact ((Reads.readFixed (k := 2) hb host (by decide) v.toBitVec).map Int16.ofBitVec).map Scalar.fint16
  | fuint16 v =>
    exact ((Reads.readFixed (k := 2) hb host (by decide) v.toBitVec).map UInt16.ofBitVec).map Scalar.fuint16
  | fint32 v =>
    exact ((Reads.readFixed (k := 4) hb host (by decide) v.toBitVec).map Int32.ofBitVec).map Scalar.fint32
  | fuint32 v =>
    exact ((Reads.readFixed (k := 4) hb host (by decide) v.toBitVec).map UInt32.ofBitVec).map Scalar.fuint32
  | fint64 v =>
    exact ((Reads.readFixed (k := 8) hb host (by decide) v.toBitVec).map Int64.ofBitVec).map Scalar.fint64
  | fuint64 v =>
    exact ((Reads.readFixed (k := 8) hb host (by decide) v.toBitVec).map UInt64.ofBitVec).map Scalar.fuint64
  | uint32 v => exact (Reads.readUint32 hb host v).map Scalar.uint32
  | uint64 v => exact (Reads.readUint64 hb host v).map Scalar.uint64
  | int32 v =>
    have hread := (Reads.readUint32 (e := e) hb host (encodeZigzag32 v)).map decodeZigzag32
    rw [decodeZigzag32_encode] at hread
    exact hread.map Scalar.int32
  | int64 v =>
    have hread := (Reads.readUint64 (e := e) hb host (encodeZigzag64 v)).map decodeZigzag64
    rw [decodeZigzag64_encode] at hread
    exact hread.map Scalar.int64
  | float bits =>
    exact ((Reads.readFixed (k := 4) hb host (by decide) bits.toBitVec).map UInt32.ofBitVec).map Scalar.float
  | double bits =>
    exact ((Reads.readFixed (k := 8) hb host (by decide) bits.toBitVec).map UInt64.ofBitVec).map Scalar.double

theorem appends_writeAll (hb : 1 ≤ b) (heap : Heap) (host : Endian) (xs : List Scalar) :
    Appends b e (writeAll heap host xs) (xs.flatMap (Scalar.bytes host e)) := by
  induction xs with
  | nil => exact Appends.pure
  | cons x xs ih => exact (x.appends hb heap host).bind ih

theorem reads_readAll (hb : 1 ≤ b) (host : Endian) (xs : List Scalar) :
    Reads b e (readAll host (xs.map Scalar.kind)) (xs.flatMap (Scalar.bytes host e)) xs := by
  induction xs with
  | nil => exact Reads.pure []
  | cons x xs ih => exact (x.reads hb host).bind (ih.map (x :: ·))

/-- Every list of scalars, written into a fresh object and read back after
`setPosition(0)`, is returned exactly, with nothing left to read. -/
theorem roundTrip_fresh (heap : Heap) (host : Endian) (little : Bool) (b : Nat) (hb : 1 ≤ b)
    (xs : List Scalar) :
    ∃ s', (roundTrip heap host little xs).run (fresh heap b) = .ok (xs, 0) s' := by
  obtain ⟨e, he⟩ : ∃ e, e = (if little then Endian.little else Endian.big) := ⟨_, rfl⟩
  have hfresh : WellFormed b { fresh heap b with endian := e } :=
    let h := wellFormed_fresh heap hb
    ⟨⟨h.baseSize, h.node_size, h.root, h.capacity, h.position_le_capacity, h.cur⟩,
      h.position_le, h.size_le⟩
  obtain ⟨s₁, hwrite, h₁, he₁, -, hstored⟩ :=
    appends_writeAll hb heap host xs { fresh heap b with endian := e } hfresh rfl rfl
  obtain ⟨s₂, hseek, h₂, hmem, hpos, hsize, he₂⟩ := h₁.run_setPosition hb (Nat.zero_le _)
  have hunread : s₂.unread = xs.flatMap (Scalar.bytes host e) ++ [] := by
    have hst : s₂.stored = s₁.stored := by
      unfold stored
      rw [hmem, hsize, Nat.max_eq_left (Nat.zero_le _)]
    rw [unread, hpos, hst, hstored]
    simp [stored, fresh]
  obtain ⟨s₃, hread, h₃, -, hdone⟩ :=
    reads_readAll hb host xs s₂ [] h₂ (he₂.trans he₁) hunread
  have hleft : s₃.getReadSize = 0 := by
    have hlen := h₃.length_unread
    rw [hdone] at hlen
    exact hlen.symm
  refine ⟨s₃, ?_⟩
  simp only [roundTrip, setLittleEndian, EStateM.run_bind, EStateM.run_modify, ← he, hwrite,
    hseek, hread, EStateM.run_get, EStateM.run_pure, hleft]

/-- Extreme values of every coding, straddling blocks of three bytes. -/
def extremes : List Scalar :=
  [.int32 Int32.minValue, .fint16 (-2), .uint64 (-1), .int64 Int64.minValue, .uint32 300,
    .double 0x7FF8000000000000, .fuint8 255]

theorem roundTrip_fresh_extremes :
    1 ≤ 3 ∧ ∃ s', (roundTrip (fun _ _ => 0) .little false extremes).run
      (fresh (fun _ _ => 0) 3) = .ok (extremes, 0) s' :=
  ⟨by decide, roundTrip_fresh (fun _ _ => 0) .little false 3 (by decide) extremes⟩

end Sylar.ByteArray
