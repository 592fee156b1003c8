import Sylar.Address.Basic
import Sylar.Lib.Run

/-! Networks, broadcast addresses and masks for a prefix length. The mask helper has ones where
the host part is; `broadcastAAddress` sets it and `subnetMask` complements it, while
`networkAddress` keeps the host part of the address instead of clearing it. -/
namespace Sylar

open Lib Lib.IntCodec

namespace IPAddress

section Masks

variable {w : Nat} {bits : UInt32}

def lowBits (w n : Nat) : BitVec w := BitVec.ofNat w (2 ^ n - 1)

theorem getLsbD_lowBits (w n i : Nat) :
    (lowBits w n).getLsbD i = (decide (i < w) && decide (i < n)) := by
  rw [lowBits, BitVec.getLsbD_ofNat, Nat.testBit_two_pow_sub_one]

theorem distance_eq (hw : w < 2 ^ 64) (hbits : bits.toNat ≤ w) :
    (UInt64.ofNat w - bits.toUInt64).toNat = w - bits.toNat := by
  rw [UInt64.toNat_sub, UInt64.toNat_ofNat', UInt32.toNat_toUInt64]
  omega

theorem createMask_eq (hbits : bits.toNat ≤ w) (hint : w - bits.toNat < 31) :
    createMask w bits = .ok (lowBits w (w - bits.toNat)) := by
  have hlt : (2 : Int) ^ (w - bits.toNat) < 2 ^ 31 := by
    exact_mod_cast Nat.pow_lt_pow_right (by decide) hint
  have hpos : (0 : Int) < 2 ^ (w - bits.toNat) := Int.pow_pos (by decide)
  have hw : w < 2 ^ 64 := by
    have := bits.toNat_lt
    omega
  have hshifted : ((2 : Int) ^ (w - bits.toNat)).bmod (2 ^ 32) = 2 ^ (w - bits.toNat) := by
    apply Int.bmod_eq_of_le_mul_two
    · push_cast
      omega
    · push_cast
      omega
  have hvalue : (2 : Int) ^ (w - bits.toNat) - 1 = ((2 ^ (w - bits.toNat) - 1 : Nat) : Int) := by
    rw [Nat.cast_sub Nat.one_le_two_pow, Nat.cast_pow, Nat.cast_ofNat, Nat.cast_one]
  simp only [createMask, distance_eq hw hbits]
  rw [if_neg (by omega), hshifted, if_neg (by omega), hvalue, BitVec.ofInt_natCast]
  rfl

theorem createMask_zero : createMask 32 0 = .error .shiftWidth := by decide

theorem createMask_one : createMask 32 1 = .error .signedOverflow := by decide

theorem not_long (h : bits.toNat ≤ 32) : ¬ 32 < bits := Nat.not_lt.mpr h

theorem short_cases (h : bits.toNat ≤ 32) : bits = 0 ∨ bits = 1 ∨ 2 ≤ bits.toNat := by
  by_cases h0 : bits.toNat = 0
  · exact .inl (UInt32.toNat_inj.mp h0)
  · by_cases h1 : bits.toNat = 1
    · exact .inr (.inl (UInt32.toNat_inj.mp h1))
    · exact .inr (.inr (by omega))

theorem createMask_shiftWidth_iff :
    createMask 32 bits = .error .shiftWidth ↔ bits = 0 ∨ 32 < bits := by
  have hlt := bits.toNat_lt
  by_cases hlong : 32 < bits
  · have hbits : 32 < bits.toNat := hlong
    have hdistance : 32 ≤ (UInt64.ofNat 32 - bits.toUInt64).toNat := by
      rw [UInt64.toNat_sub, UInt64.toNat_ofNat', UInt32.toNat_toUInt64]
      omega
    rw [createMask, if_pos hdistance]
    exact iff_of_true rfl (.inr hlong)
  · have hbits : bits.toNat ≤ 32 := Nat.le_of_not_lt hlong
    rcases short_cases hbits with rfl | rfl | htwo
    · simp [createMask_zero]
    · rw [createMask_one]
      decide
    · rw [createMask_eq hbits (by omega)]
      have hne : bits ≠ 0 := by
        rintro rfl
        exact absurd htwo (by decide)
      simp [hne, hlong]

theorem and_eq_and_not_iff {w : Nat} (v mask : BitVec w) :
    v &&& mask = v &&& ~~~mask ↔ v = 0 := by
  constructor
  · intro h
    have hzero : v &&& mask = 0 := by
      calc v &&& mask = (v &&& mask) &&& mask := by rw [BitVec.and_assoc, BitVec.and_self]
        _ = (v &&& ~~~mask) &&& mask := by rw [h]
        _ = 0 := by rw [BitVec.and_assoc, BitVec.and_comm (~~~mask), BitVec.and_not_self]; simp
    calc v = (v &&& mask) ||| (v &&& ~~~mask) := by
          rw [← BitVec.and_or_distrib_left, BitVec.or_not_self, BitVec.and_allOnes]
      _ = 0 := by rw [← h, hzero, BitVec.or_self]
  · rintro rfl
    simp

end Masks

section Order

variable (host : Endian) (k : Nat) (v u : BitVec (8 * k))

@[simp] theorem byteswapOnLittleEndian_involutive :
    byteswapOnLittleEndian host k (byteswapOnLittleEndian host k v) = v := by
  cases host with
  | little => exact swapBytes_swapBytes k v
  | big => rfl

theorem byteswapOnLittleEndian_and : byteswapOnLittleEndian host k (v &&& u) =
    byteswapOnLittleEndian host k v &&& byteswapOnLittleEndian host k u := by
  cases host with
  | little => exact swapBytes_and k v u
  | big => rfl

theorem byteswapOnLittleEndian_or : byteswapOnLittleEndian host k (v ||| u) =
    byteswapOnLittleEndian host k v ||| byteswapOnLittleEndian host k u := by
  cases host with
  | little => exact swapBytes_or k v u
  | big => rfl

theorem byteswapOnLittleEndian_not :
    byteswapOnLittleEndian host k (~~~v) = ~~~byteswapOnLittleEndian host k v := by
  cases host with
  | little => exact swapBytes_not k v
  | big => rfl

end Order

end IPAddress

open IPAddress

namespace IPv4Address

def hostMask (prefixLen : UInt32) : BitVec 32 := lowBits 32 (32 - prefixLen.toNat)

section Results

variable (host : Endian) (a : IPv4Address) (prefixLen : UInt32)

def MasksSubnet : Prop :=
  ∃ s, subnetMask host prefixLen = .ok s ∧ s.address host = ~~~hostMask prefixLen

def ClearsHost : Prop :=
  ∃ n, a.networkAddress host prefixLen = .ok (some n) ∧
    n.address host = a.address host &&& ~~~hostMask prefixLen ∧ n.sinPort = a.sinPort ∧
    n.sinFamily = a.sinFamily

def SetsHost : Prop :=
  ∃ b, a.broadcastAAddress host prefixLen = .ok (some b) ∧
    b.address host = a.address host ||| hostMask prefixLen ∧ b.sinPort = a.sinPort ∧
    b.sinFamily = a.sinFamily

/-- The address lies between its network and its broadcast address, and the mask takes it to its
network. -/
def Between : Prop :=
  ∀ s n b, subnetMask host prefixLen = .ok s → a.networkAddress host prefixLen = .ok (some n) →
    a.broadcastAAddress host prefixLen = .ok (some b) →
    n.address host ≤ a.address host ∧ a.address host ≤ b.address host ∧
      a.address host &&& s.address host = n.address host

end Results

section Prefixes

variable {host : Endian} {a : IPv4Address} {prefixLen : UInt32}

theorem subnetMask_ok (hlow : 2 ≤ prefixLen.toNat) (hhigh : prefixLen.toNat ≤ 32) :
    subnetMask host prefixLen = .ok
      { sinFamily := AF_INET
        sinPort := 0
        sAddr := ~~~byteswapOnLittleEndian host 4 (hostMask prefixLen) } := by
  rw [subnetMask, createMask_eq hhigh (by omega)]
  rfl

theorem broadcastAAddress_ok (hlow : 2 ≤ prefixLen.toNat) (hhigh : prefixLen.toNat ≤ 32) :
    a.broadcastAAddress host prefixLen = .ok (some
      { a with sAddr := a.sAddr ||| byteswapOnLittleEndian host 4 (hostMask prefixLen) }) := by
  rw [broadcastAAddress, if_neg (not_long hhigh), createMask_eq hhigh (by omega)]
  rfl

theorem networkAddress_ok (hlow : 2 ≤ prefixLen.toNat) (hhigh : prefixLen.toNat ≤ 32) :
    a.networkAddress host prefixLen = .ok (some
      { a with sAddr := a.sAddr &&& byteswapOnLittleEndian host 4 (hostMask prefixLen) }) := by
  rw [networkAddress, if_neg (not_long hhigh), createMask_eq hhigh (by omega)]
  rfl

theorem two_le_of_mask {mask : BitVec 32} (hhigh : prefixLen.toNat ≤ 32)
    (h : createMask 32 prefixLen = .ok mask) : 2 ≤ prefixLen.toNat := by
  rcases short_cases hhigh with rfl | rfl | htwo
  · cases createMask_zero.symm.trans h
  · cases createMask_one.symm.trans h
  · exact htwo

theorem masksSubnet_iff (hhigh : prefixLen.toNat ≤ 32) :
    MasksSubnet host prefixLen ↔ 2 ≤ prefixLen.toNat := by
  constructor
  · rintro ⟨s, hs, -⟩
    obtain ⟨mask, hmask, -⟩ := bind_eq_ok.mp hs
    exact two_le_of_mask hhigh hmask
  · intro hlow
    refine ⟨_, subnetMask_ok hlow hhigh, ?_⟩
    rw [address, byteswapOnLittleEndian_not, byteswapOnLittleEndian_involutive]

theorem setsHost_iff (hhigh : prefixLen.toNat ≤ 32) :
    a.SetsHost host prefixLen ↔ 2 ≤ prefixLen.toNat := by
  constructor
  · rintro ⟨b, hb, -⟩
    rw [broadcastAAddress, if_neg (not_long hhigh)] at hb
    obtain ⟨mask, hmask, -⟩ := bind_eq_ok.mp hb
    exact two_le_of_mask hhigh hmask
  · intro hlow
    refine ⟨_, broadcastAAddress_ok hlow hhigh, ?_, rfl, rfl⟩
    rw [address, byteswapOnLittleEndian_or, byteswapOnLittleEndian_involutive, address]

theorem address_networkAddress {n : IPv4Address} (hhigh : prefixLen.toNat ≤ 32)
    (hn : a.networkAddress host prefixLen = .ok (some n)) :
    2 ≤ prefixLen.toNat ∧ n.address host = a.address host &&& hostMask prefixLen ∧
      n.sinPort = a.sinPort ∧ n.sinFamily = a.sinFamily := by
  have hlow : 2 ≤ prefixLen.toNat := by
    rw [networkAddress, if_neg (not_long hhigh)] at hn
    obtain ⟨mask, hmask, -⟩ := bind_eq_ok.mp hn
    exact two_le_of_mask hhigh hmask
  rw [networkAddress_ok hlow hhigh] at hn
  obtain rfl := Option.some.inj (Except.ok.inj hn)
  refine ⟨hlow, ?_, rfl, rfl⟩
  rw [address, byteswapOnLittleEndian_and, byteswapOnLittleEndian_involutive, address]

theorem clearsHost_iff (hhigh : prefixLen.toNat ≤ 32) :
    a.ClearsHost host prefixLen ↔ 2 ≤ prefixLen.toNat ∧ a.address host = 0 := by
  constructor
  · rintro ⟨n, hn, haddress, -⟩
    obtain ⟨hlow, hkept, -⟩ := address_networkAddress hhigh hn
    exact ⟨hlow, (and_eq_and_not_iff _ _).mp (hkept.symm.trans haddress)⟩
  · rintro ⟨hlow, hzero⟩
    have hn : a.networkAddress host prefixLen = .ok (some _) := networkAddress_ok hlow hhigh
    obtain ⟨-, hkept, hport, hfamily⟩ := address_networkAddress hhigh hn
    exact ⟨_, hn, hkept.trans ((and_eq_and_not_iff _ _).mpr hzero), hport, hfamily⟩

theorem Between.of_laws (hmask : MasksSubnet host prefixLen) (hclears : a.ClearsHost host prefixLen)
    (hsets : a.SetsHost host prefixLen) : a.Between host prefixLen := by
  intro s n b hs hn hb
  obtain ⟨s', hs', hmask⟩ := hmask
  obtain ⟨n', hn', hclears, -⟩ := hclears
  obtain ⟨b', hb', hsets, -⟩ := hsets
  obtain rfl := Except.ok.inj (hs.symm.trans hs')
  obtain rfl := Option.some.inj (Except.ok.inj (hn.symm.trans hn'))
  obtain rfl := Option.some.inj (Except.ok.inj (hb.symm.trans hb'))
  rw [hmask, hclears, hsets]
  refine ⟨?_, ?_, rfl⟩
  · rw [BitVec.le_def, BitVec.toNat_and]
    exact Nat.and_le_left
  · rw [BitVec.le_def, BitVec.toNat_or]
    exact Nat.left_le_or

theorem networkAddress_none_iff : a.networkAddress host prefixLen = .ok none ↔ 32 < prefixLen := by
  constructor
  · intro h
    by_contra hlong
    rw [networkAddress, if_neg hlong] at h
    obtain ⟨mask, -, h⟩ := bind_eq_ok.mp h
    cases h
  · intro hlong
    rw [networkAddress, if_pos hlong]

theorem broadcastAAddress_none_iff :
    a.broadcastAAddress host prefixLen = .ok none ↔ 32 < prefixLen := by
  constructor
  · intro h
    by_contra hlong
    rw [broadcastAAddress, if_neg hlong] at h
    obtain ⟨mask, -, h⟩ := bind_eq_ok.mp h
    cases h
  · intro hlong
    rw [broadcastAAddress, if_pos hlong]

end Prefixes

structure PrefixLaw (host : Endian) (a : IPv4Address) (prefixLen : UInt32) : Prop where
  subnetMask : MasksSubnet host prefixLen
  networkAddress : a.ClearsHost host prefixLen
  broadcastAAddress : a.SetsHost host prefixLen
  between : a.Between host prefixLen
  shift : createMask 32 prefixLen ≠ .error .shiftWidth

/-- The law holds for the address 0 alone, and from prefix length 2 on: `networkAddress` returns
the host part. Up to there the mask helper shifts by the width of an `int` or overflows it. The
masks and the broadcast addresses are right from prefix length 2 on, and the null pointer
stands for the lengths above 32. -/
theorem prefixLaw_iff (host : Endian) (a : IPv4Address) (prefixLen : UInt32) :
    (prefixLen ≤ 32 →
      (a.PrefixLaw host prefixLen ↔ 2 ≤ prefixLen ∧ a.address host = 0) ∧
      (MasksSubnet host prefixLen ↔ 2 ≤ prefixLen) ∧
      (a.SetsHost host prefixLen ↔ 2 ≤ prefixLen) ∧
      ∀ n, a.networkAddress host prefixLen = .ok (some n) →
        n.address host = a.address host &&& hostMask prefixLen) ∧
    (a.networkAddress host prefixLen = .ok none ↔ 32 < prefixLen) ∧
    (a.broadcastAAddress host prefixLen = .ok none ↔ 32 < prefixLen) ∧
    (createMask 32 prefixLen = .error .shiftWidth ↔ prefixLen = 0 ∨ 32 < prefixLen) := by
  refine ⟨fun hhigh => ⟨⟨fun hlaw => ?_, ?_⟩, masksSubnet_iff hhigh, setsHost_iff hhigh, ?_⟩,
    networkAddress_none_iff, broadcastAAddress_none_iff, createMask_shiftWidth_iff⟩
  · exact (clearsHost_iff hhigh).mp hlaw.networkAddress
  · rintro ⟨hlow, hzero⟩
    have hmask : MasksSubnet host prefixLen := (masksSubnet_iff hhigh).mpr hlow
    have hclears : a.ClearsHost host prefixLen := (clearsHost_iff hhigh).mpr ⟨hlow, hzero⟩
    have hsets : a.SetsHost host prefixLen := (setsHost_iff hhigh).mpr hlow
    refine ⟨hmask, hclears, hsets, .of_laws hmask hclears hsets, fun hshift => ?_⟩
    obtain ⟨s, hs, -⟩ := hmask
    rw [subnetMask, hshift] at hs
    cases hs
  · intro n hn
    exact (address_networkAddress hhigh hn).2.1

/-- The network of 192.168.1.7/24 comes out as 0.0.0.7, and the empty prefix has the mask helper
shift by 32. -/
theorem networkAddress_keeps_host :
    (new .little 0xC0A80107 80).networkAddress .little 24 = .ok (some (new .little 7 80)) ∧
      subnetMask .little 0 = .error .shiftWidth := by
  decide +kernel

end IPv4Address

namespace IPv6Address

def bit (a : IPv6Address) (j : Fin 128) : Bool :=
  (a.s6Addr.get ⟨j.val / 8, by omega⟩).toBitVec.getMsbD (j.val % 8)

/-- Byte `k` of the address whose first `p` bits are one. -/
def prefixByte (p k : Nat) : BitVec 8 :=
  if k < p / 8 then BitVec.allOnes 8 else if k = p / 8 then ~~~lowBits 8 (8 - p % 8) else 0#8

theorem prefixByte_before {p k : Nat} (h : k < p / 8) : prefixByte p k = BitVec.allOnes 8 :=
  if_pos h

theorem prefixByte_boundary (p : Nat) : prefixByte p (p / 8) = ~~~lowBits 8 (8 - p % 8) := by
  rw [prefixByte, if_neg (Nat.lt_irrefl _), if_pos rfl]

theorem prefixByte_after {p k : Nat} (h : p / 8 < k) : prefixByte p k = 0#8 := by
  rw [prefixByte, if_neg (Nat.lt_asymm h), if_neg (Nat.ne_of_gt h)]

theorem getMsbD_prefixByte (p j : Nat) :
    (prefixByte p (j / 8)).getMsbD (j % 8) = decide (j < p) := by
  have hj : j % 8 < 8 := Nat.mod_lt j (by decide)
  rcases Nat.lt_trichotomy (j / 8) (p / 8) with hbefore | hat | hafter
  · rw [prefixByte_before hbefore, BitVec.getMsbD_allOnes, decide_eq_true hj,
      decide_eq_true (by omega)]
  · have hplace : decide (8 - 1 - j % 8 < 8 - p % 8) = !decide (j < p) := by
      rw [← decide_not, decide_eq_decide]
      omega
    rw [hat, prefixByte_boundary, BitVec.getMsbD_not, BitVec.getMsbD, getLsbD_lowBits,
      decide_eq_true hj, hplace, decide_eq_true (by omega : 8 - 1 - j % 8 < 8)]
    simp
  · rw [prefixByte_after hafter, decide_eq_false (by omega)]
    exact BitVec.getMsbD_zero

section Bytes

variable {bytes v : Vector UInt8 16} {i : Nat} {f : UInt8 → UInt8}

theorem update_ok (h : i < 16) (f : UInt8 → UInt8) :
    update bytes i f = .ok (bytes.set i (f bytes[i])) := dif_pos h

theorem update_error (h : 16 ≤ i) (f : UInt8 → UInt8) :
    update bytes i f = .error .outOfBounds := dif_neg (Nat.not_lt.mpr h)

theorem fill_ok (value : UInt8) (bytes : Vector UInt8 16) {first count : Nat}
    (h : first + count ≤ 16) :
    ∃ v, fill value first count bytes = .ok v ∧ ∀ j (hj : j < 16),
      v[j] = if first ≤ j ∧ j < first + count then value else bytes[j] := by
  induction count generalizing first bytes with
  | zero => exact ⟨bytes, rfl, fun j hj => by rw [if_neg (by omega)]⟩
  | succ count ih =>
    obtain ⟨v, hv, hget⟩ := ih (bytes.set first value) (by omega : first + 1 + count ≤ 16)
    refine ⟨v, ?_, fun j hj => ?_⟩
    · rw [fill, List.range'_succ, List.foldlM_cons, update_ok (by omega)]
      exact hv
    · rw [hget j hj, Vector.getElem_set]
      grind

theorem update_fill_ok (bytes : Vector UInt8 16) (hi : i < 16) (f : UInt8 → UInt8) (value : UInt8) :
    ∃ v, (update bytes i f >>= fill value (i + 1) (16 - (i + 1))) = .ok v ∧
      (∀ k (hk : k < 16), k < i → v[k] = bytes[k]) ∧ v[i] = f bytes[i] ∧
      ∀ k (hk : k < 16), i < k → v[k] = value := by
  obtain ⟨v, hv, hget⟩ :=
    fill_ok value (bytes.set i (f bytes[i])) (by omega : i + 1 + (16 - (i + 1)) ≤ 16)
  refine ⟨v, ?_, fun k hk hlt => ?_, ?_, fun k hk hlt => ?_⟩
  · rw [update_ok hi]
    exact hv
  · rw [hget k hk, if_neg (by omega), Vector.getElem_set_ne _ _ (by omega)]
  · rw [hget i hi, if_neg (by omega), Vector.getElem_set_self]
  · rw [hget k hk, if_pos (by omega)]

end Bytes

section Results

variable (a : IPv6Address) (prefixLen : UInt32)

def MasksSubnet : Prop :=
  ∃ s, subnetMask prefixLen = .ok s ∧ s.sin6Family = AF_INET6 ∧
    ∀ j : Fin 128, s.bit j = decide (j.val < prefixLen.toNat)

def ClearsHost : Prop :=
  ∃ n, a.networkAddress prefixLen = .ok n ∧
    ∀ j : Fin 128, n.bit j = (decide (j.val < prefixLen.toNat) && a.bit j)

def SetsHost : Prop :=
  ∃ b, a.broadcastAAddress prefixLen = .ok b ∧
    ∀ j : Fin 128, b.bit j = (!decide (j.val < prefixLen.toNat) || a.bit j)

end Results

section Prefixes

variable {a : IPv6Address} {prefixLen : UInt32}

theorem createMask_byte (prefixLen : UInt32) :
    createMask 8 (prefixLen % 8) = .ok (lowBits 8 (8 - prefixLen.toNat % 8)) := by
  have hmod : (prefixLen % 8).toNat = prefixLen.toNat % 8 := UInt32.toNat_mod _ _
  have hlt := Nat.mod_lt prefixLen.toNat (by decide : 0 < 8)
  rw [← hmod] at hlt ⊢
  exact createMask_eq (by omega) (by omega)

theorem toNat_byte (prefixLen : UInt32) : (prefixLen / 8).toNat = prefixLen.toNat / 8 :=
  UInt32.toNat_div _ _

theorem outOfBounds (h : 128 ≤ prefixLen.toNat) :
    a.broadcastAAddress prefixLen = .error .outOfBounds ∧
    a.networkAddress prefixLen = .error .outOfBounds ∧
    subnetMask prefixLen = .error .outOfBounds := by
  have hi : 16 ≤ prefixLen.toNat / 8 := by omega
  simp only [broadcastAAddress, networkAddress, subnetMask, createMask_byte, toNat_byte, bind,
    Except.bind, update_error hi, and_self]

theorem broadcastAAddress_bytes (h : prefixLen.toNat < 128) :
    ∃ v, a.broadcastAAddress prefixLen = .ok { a with s6Addr := v } ∧ ∀ k (hk : k < 16),
      v[k].toBitVec = a.s6Addr[k].toBitVec ||| ~~~prefixByte prefixLen.toNat k := by
  obtain ⟨v, hv, hbefore, hat, hafter⟩ := update_fill_ok a.s6Addr
    (by omega : prefixLen.toNat / 8 < 16)
    (· ||| UInt8.ofBitVec (lowBits 8 (8 - prefixLen.toNat % 8))) 0xff
  refine ⟨v, ?_, fun k hk => ?_⟩
  · obtain ⟨w, hw, hfill⟩ := bind_eq_ok.mp hv
    simp only [broadcastAAddress, createMask_byte, toNat_byte, bind, Except.bind, hw, hfill]
    rfl
  · rcases Nat.lt_trichotomy k (prefixLen.toNat / 8) with hk' | rfl | hk'
    · rw [hbefore k hk hk', prefixByte_before hk', BitVec.not_allOnes, BitVec.or_zero]
    · rw [hat, prefixByte_boundary, BitVec.not_not]
      rfl
    · rw [hafter k hk hk', prefixByte_after hk', BitVec.not_zero, BitVec.or_allOnes]
      rfl

theorem networkAddress_bytes (h : prefixLen.toNat < 128) :
    ∃ v, a.networkAddress prefixLen = .ok { a with s6Addr := v } ∧
      v[prefixLen.toNat / 8].toBitVec = a.s6Addr[prefixLen.toNat / 8].toBitVec &&&
        ~~~prefixByte prefixLen.toNat (prefixLen.toNat / 8) ∧
      ∀ k (hk : k < 16), k ≠ prefixLen.toNat / 8 →
        v[k].toBitVec = a.s6Addr[k].toBitVec &&& prefixByte prefixLen.toNat k := by
  obtain ⟨v, hv, hbefore, hat, hafter⟩ := update_fill_ok a.s6Addr
    (by omega : prefixLen.toNat / 8 < 16)
    (· &&& UInt8.ofBitVec (lowBits 8 (8 - prefixLen.toNat % 8))) 0x00
  refine ⟨v, ?_, ?_, fun k hk hne => ?_⟩
  · obtain ⟨w, hw, hfill⟩ := bind_eq_ok.mp hv
    simp only [networkAddress, createMask_byte, toNat_byte, bind, Except.bind, hw, hfill]
    rfl
  · rw [hat, prefixByte_boundary, BitVec.not_not]
    rfl
  · rcases Nat.lt_or_gt_of_ne hne with hk' | hk'
    · rw [hbefore k hk hk', prefixByte_before hk', BitVec.and_allOnes]
    · rw [hafter k hk hk', prefixByte_after hk']
      exact BitVec.and_zero.symm

/-- The bytes are right; the family is not. -/
theorem subnetMask_bytes (h : prefixLen.toNat < 128) :
    ∃ v, subnetMask prefixLen = .ok { sin6Family := 0, sin6Port := 0, s6Addr := v } ∧
      ∀ k (hk : k < 16), v[k].toBitVec = prefixByte prefixLen.toNat k := by
  have hi : prefixLen.toNat / 8 < 16 := by omega
  obtain ⟨v, hv, hget⟩ := fill_ok 0xff ((Vector.replicate 16 0).set (prefixLen.toNat / 8)
    (~~~UInt8.ofBitVec (lowBits 8 (8 - prefixLen.toNat % 8))))
    (by omega : 0 + prefixLen.toNat / 8 ≤ 16)
  refine ⟨v, ?_, fun k hk => ?_⟩
  · simp only [subnetMask, createMask_byte, toNat_byte, bind, Except.bind, update_ok hi, hv]
    rfl
  · rw [hget k hk]
    rcases Nat.lt_trichotomy k (prefixLen.toNat / 8) with hk' | rfl | hk'
    · rw [if_pos (by omega), prefixByte_before hk']
      rfl
    · rw [if_neg (by omega), Vector.getElem_set_self, prefixByte_boundary]
      rfl
    · rw [if_neg (by omega), Vector.getElem_set_ne _ _ (by omega), prefixByte_after hk',
        Vector.getElem_replicate]
      rfl

theorem bit_eq {v : Vector UInt8 16} (j : Fin 128) (hj : j.val / 8 < 16) :
    bit { a with s6Addr := v } j = v[j.val / 8].toBitVec.getMsbD (j.val % 8) := rfl

theorem setsHost_iff : a.SetsHost prefixLen ↔ prefixLen.toNat < 128 := by
  constructor
  · rintro ⟨b, hb, -⟩
    by_contra hlong
    cases (outOfBounds (Nat.le_of_not_lt hlong)).1.symm.trans hb
  · intro hlt
    obtain ⟨v, hv, hget⟩ := broadcastAAddress_bytes (a := a) hlt
    refine ⟨_, hv, fun j => ?_⟩
    have hj : j.val / 8 < 16 := by omega
    rw [bit_eq j hj, hget _ hj, BitVec.getMsbD_or, BitVec.getMsbD_not, getMsbD_prefixByte,
      decide_eq_true (Nat.mod_lt _ (by decide)), Bool.true_and, Bool.or_comm]
    rfl

theorem cleared_iff_bytes {v : Vector UInt8 16} {p : Nat} :
    (∀ j : Fin 128, bit { a with s6Addr := v } j = (decide (j.val < p) && a.bit j)) ↔
      ∀ k (hk : k < 16), v[k].toBitVec = a.s6Addr[k].toBitVec &&& prefixByte p k := by
  constructor
  · intro hbits k hk
    apply BitVec.eq_of_getMsbD_eq
    intro m hm
    have hj : 8 * k + m < 128 := by omega
    have hdiv : (8 * k + m) / 8 = k := by omega
    have hmod : (8 * k + m) % 8 = m := by omega
    have hbit := hbits ⟨8 * k + m, hj⟩
    have hmask := getMsbD_prefixByte p (8 * k + m)
    simp only [bit, hdiv, hmod] at hbit hmask
    rw [BitVec.getMsbD_and, hmask, Bool.and_comm]
    exact hbit
  · intro hget j
    have hj : j.val / 8 < 16 := by omega
    rw [bit_eq j hj, hget _ hj, BitVec.getMsbD_and, getMsbD_prefixByte, Bool.and_comm]
    rfl

/-- The byte of the boundary is the same with the wrong bits kept only if it is 0. -/
theorem clearsHost_iff : a.ClearsHost prefixLen ↔
    ∃ hlt : prefixLen.toNat / 8 < 16, a.s6Addr[prefixLen.toNat / 8] = 0 := by
  constructor
  · rintro ⟨n, hn, hbits⟩
    have hlt : prefixLen.toNat < 128 := by
      by_contra hlong
      cases (outOfBounds (Nat.le_of_not_lt hlong)).2.1.symm.trans hn
    obtain ⟨v, hv, hat, -⟩ := networkAddress_bytes (a := a) hlt
    obtain rfl := Except.ok.inj (hn.symm.trans hv)
    have hi : prefixLen.toNat / 8 < 16 := by omega
    refine ⟨hi, UInt8.toBitVec_inj.mp ?_⟩
    rw [cleared_iff_bytes.mp hbits _ hi] at hat
    exact (and_eq_and_not_iff _ _).mp hat
  · rintro ⟨hi, hzero⟩
    obtain ⟨v, hv, hat, hrest⟩ := networkAddress_bytes (a := a) (by omega : prefixLen.toNat < 128)
    refine ⟨_, hv, cleared_iff_bytes.mpr fun k hk => ?_⟩
    by_cases hk' : k = prefixLen.toNat / 8
    · subst hk'
      rw [hat, hzero]
      simp
    · exact hrest k hk hk'

theorem subnetMask_ok {s : IPv6Address} (hs : subnetMask prefixLen = .ok s) :
    prefixLen.toNat < 128 := by
  by_contra hlong
  cases (outOfBounds (a := s) (Nat.le_of_not_lt hlong)).2.2.symm.trans hs

theorem bit_subnetMask {s : IPv6Address} (hs : subnetMask prefixLen = .ok s) :
    s.sin6Family = 0 ∧ ∀ j : Fin 128, s.bit j = decide (j.val < prefixLen.toNat) := by
  obtain ⟨v, hv, hget⟩ := subnetMask_bytes (subnetMask_ok hs)
  obtain rfl := Except.ok.inj (hs.symm.trans hv)
  refine ⟨rfl, fun j => ?_⟩
  have hj : j.val / 8 < 16 := by omega
  rw [← getMsbD_prefixByte, ← hget _ hj]
  rfl

theorem outOfBounds_iff :
    (a.broadcastAAddress prefixLen = .error .outOfBounds ↔ 128 ≤ prefixLen.toNat) ∧
    (a.networkAddress prefixLen = .error .outOfBounds ↔ 128 ≤ prefixLen.toNat) ∧
    (subnetMask prefixLen = .error .outOfBounds ↔ 128 ≤ prefixLen.toNat) := by
  by_cases hlt : prefixLen.toNat < 128
  · obtain ⟨b, hb, -⟩ := broadcastAAddress_bytes (a := a) hlt
    obtain ⟨n, hn, -⟩ := networkAddress_bytes (a := a) hlt
    obtain ⟨s, hs, -⟩ := subnetMask_bytes hlt
    simp [hb, hn, hs, hlt]
  · have hlong : 128 ≤ prefixLen.toNat := Nat.le_of_not_lt hlt
    obtain ⟨hb, hn, hs⟩ := outOfBounds (a := a) hlong
    simp [hb, hn, hs, hlong]

end Prefixes

/-- The mask never has the family, though its bits are right; `networkAddress` is right where the
byte of the boundary is 0, `broadcastAAddress` below the full prefix. From there on all three ask
for a byte behind the address. -/
theorem prefix_laws (a : IPv6Address) (prefixLen : UInt32) :
    ¬ MasksSubnet prefixLen ∧
    (∀ s, subnetMask prefixLen = .ok s →
      s.sin6Family = 0 ∧ ∀ j : Fin 128, s.bit j = decide (j.val < prefixLen.toNat)) ∧
    (a.ClearsHost prefixLen ↔
      ∃ hlt : prefixLen.toNat / 8 < 16, a.s6Addr[prefixLen.toNat / 8] = 0) ∧
    (a.SetsHost prefixLen ↔ prefixLen.toNat < 128) ∧
    (a.broadcastAAddress prefixLen = .error .outOfBounds ↔ 128 ≤ prefixLen.toNat) ∧
    (a.networkAddress prefixLen = .error .outOfBounds ↔ 128 ≤ prefixLen.toNat) ∧
    (subnetMask prefixLen = .error .outOfBounds ↔ 128 ≤ prefixLen.toNat) := by
  refine ⟨?_, fun s hs => bit_subnetMask hs, clearsHost_iff, setsHost_iff, outOfBounds_iff⟩
  rintro ⟨s, hs, hfamily, -⟩
  rw [(bit_subnetMask hs).1] at hfamily
  cases hfamily

def documentation : IPv6Address :=
  { sin6Family := AF_INET6
    sin6Port := 80
    s6Addr := #v[0x20, 0x01, 0x0d, 0xb8, 0, 0, 0, 0, 0, 0, 0, 0, 0, 0, 0, 1] }

/-- Its network for a prefix of 8 bits keeps its second byte, the mask of 8 bits has no family, and
the full prefix is out of bounds. -/
theorem documentation_prefixes :
    documentation.networkAddress 8 = .ok
      { documentation with s6Addr := #v[0x20, 0x01, 0, 0, 0, 0, 0, 0, 0, 0, 0, 0, 0, 0, 0, 0] } ∧
    subnetMask 8 = .ok
      { sin6Family := 0
        sin6Port := 0
        s6Addr := #v[0xff, 0, 0, 0, 0, 0, 0, 0, 0, 0, 0, 0, 0, 0, 0, 0] } ∧
    documentation.broadcastAAddress 128 = .error .outOfBounds := by
  decide +kernel

end IPv6Address

end Sylar
