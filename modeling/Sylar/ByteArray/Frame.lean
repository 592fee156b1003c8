import Sylar.ByteArray.Lend

/-! One string behind its length of 16 bits, written at any place and followed by anything.
The length is stored modulo 2 ^ 16 and the bytes in full, so which strings come back is a
question of their length. -/
namespace Sylar.ByteArray

open Lib.Blocks Lib.IntCodec

variable {b : Nat} {e : Endian} {s : ByteArray}

/-- `writeStringF16` refuses `value` and changes nothing, or it writes a frame that is read
back as `value`, up to the start of what was written behind it. -/
def Framed (heap : Heap) (host : Endian) (s : ByteArray) (value more : List UInt8) : Prop :=
  (∃ err, (writeStringF16 heap host value).run s = .error err s) ∨
  ∃ s₁ s₂ s₃ s₄, (writeStringF16 heap host value).run s = .ok () s₁ ∧
    (write heap more).run s₁ = .ok () s₂ ∧
    (setPosition s.position).run s₂ = .ok () s₃ ∧
    (readStringF16 host).run s₃ = .ok value s₄ ∧ s₄.position = s₁.position ∧
    s₄.unread = more ++ s₁.unread.drop more.length

def lengthBytes (host e : Endian) (value : List UInt8) : List UInt8 :=
  LengthCode.f16.bytes host e value.length

@[simp] theorem length_lengthBytes (host e : Endian) (value : List UInt8) :
    (lengthBytes host e value).length = 2 := length_object host 2 _

theorem value_lengthBytes (host e : Endian) (value rest : List UInt8) :
    LengthCode.f16.value e (lengthBytes host e value ++ rest) = value.length % 2 ^ 16 := by
  rw [LengthCode.value, List.take_left' (length_lengthBytes host e value)]
  exact (objectValue_fixedBytes host e 2 _).trans (BitVec.toNat_ofNat _ _)

/-- The state in which the frame is read: the frame, then `more`, then the old bytes. -/
structure Rewound (b : Nat) (host : Endian) (s s₁ s₃ : ByteArray) (value more : List UInt8) :
    Prop where
  wellFormed : WellFormed b s₃
  endian : s₃.endian = s.endian
  position : s₃.position = s.position
  after : s₁.position = s.position + 2 + value.length
  unread : s₃.unread = lengthBytes host s.endian value ++ (value ++
    (more ++ s₁.unread.drop more.length))
  full : value = [] → more = [] → (s₁.unread = [] ∧ s₃.size = s₃.capacity ↔
    s.position + 2 = s.capacity + b * missing b s 2)

@[simp] theorem WellFormed.length_stored (h : WellFormed b s) : s.stored.length = s.size := by
  rw [stored, List.length_take, h.toAligned.length_memory]
  exact Nat.min_eq_left h.size_le

theorem WellFormed.rewound (h : WellFormed b s) (hb : 1 ≤ b) (heap : Heap) (host : Endian)
    (value more : List UInt8) :
    ∃ s₁ s₂ s₃, (writeStringF16 heap host value).run s = .ok () s₁ ∧
      (write heap more).run s₁ = .ok () s₂ ∧ (setPosition s.position).run s₂ = .ok () s₃ ∧
      Rewound b host s s₁ s₃ value more := by
  obtain ⟨s₀, hrun₀, h₀, hpos₀, hsize₀, hstored₀, hend₀, hcap₀⟩ :=
    h.run_write_stored hb heap (lengthBytes host s.endian value)
  obtain ⟨s₁, hrun₁, h₁, hpos₁, hsize₁, hstored₁, hend₁, hcap₁⟩ := h₀.run_write_stored hb heap value
  obtain ⟨s₂, hrun₂, h₂, hpos₂, hsize₂, hstored₂, hend₂, hcap₂⟩ := h₁.run_write_stored hb heap more
  have hwrite : (writeStringF16 heap host value).run s = .ok () s₁ := by
    have hsplit := LengthCode.f16.run_writeString heap host (s := s) rfl value
    rw [EStateM.run_bind, show (write heap (LengthCode.f16.bytes host s.endian value.length)).run s =
      .ok () s₀ from hrun₀] at hsplit
    exact hsplit.trans hrun₁
  have hle : s.position ≤ s.stored.length := by
    rw [h.length_stored]
    exact h.position_le
  -- the three stores are one store into the old bytes
  have hframe : s₁.stored =
      overwrite s.stored s.position (lengthBytes host s.endian value ++ value) := by
    rw [hstored₁, hstored₀, hpos₀, overwrite_append _ _ _ _ hle]
  have hafter : s₁.position =
      s.position + (lengthBytes host s.endian value ++ value).length := by
    rw [hpos₁, hpos₀, List.length_append, Nat.add_assoc]
  have hall : s₂.stored =
      overwrite s.stored s.position (lengthBytes host s.endian value ++ value ++ more) := by
    rw [hstored₂, hframe, hafter, overwrite_append _ _ _ _ hle]
  have hrest : s₁.unread =
      s.stored.drop (s.position + (lengthBytes host s.endian value ++ value).length) := by
    rw [unread, hframe, hafter, ← List.drop_drop, drop_overwrite _ _ _ hle, List.drop_left]
  have hcap : s.position ≤ s₂.capacity := by
    have := h₂.size_le
    have := h.position_le
    omega
  obtain ⟨s₃, hset, h₃, hmem₃, hpos₃, hsize₃, hend₃⟩ := h₂.run_setPosition hb hcap
  have hsize : s₃.size = s₂.size := by
    have := h.position_le
    omega
  have hcap₃ : s₃.capacity = s₂.capacity := by
    rw [← h₃.toAligned.length_memory, hmem₃, h₂.toAligned.length_memory]
  refine ⟨s₁, s₂, s₃, hwrite, hrun₂, hset, h₃, by rw [hend₃, hend₂, hend₁, hend₀], hpos₃, ?_, ?_, ?_⟩
  · rw [hafter, List.length_append, length_lengthBytes, Nat.add_assoc]
  · rw [unread, stored, hmem₃, hsize, hpos₃]
    change s₂.stored.drop s.position = _
    rw [hall, drop_overwrite _ _ _ hle, hrest, List.drop_drop]
    simp only [List.append_assoc, List.length_append, Nat.add_assoc]
  · rintro rfl rfl
    rw [hrest, List.drop_eq_nil_iff, h.length_stored]
    simp only [List.length_append, length_lengthBytes, List.length_nil, Nat.add_zero] at *
    rw [missing_eq_zero hb (Nat.zero_le _)] at hcap₁ hcap₂
    have := h₀.size_le
    omega

theorem Rewound.consumes_read {s₁ s₃ : ByteArray} {host : Endian} {value more : List UInt8}
    (h : Rewound b host s s₁ s₃ value more) (hb : 1 ≤ b) {n : Nat} (hn : n = value.length % 2 ^ 16) :
    Consumes b (readStringF16 host) s₃ (2 + n)
      (if value.take n = [] ∧
          value.drop n ++ (more ++ s₁.unread.drop more.length) = [] ∧ s₃.size = s₃.capacity
        then .error .nullNode else .ok (value.take n)) := by
  have hle : n ≤ value.length := by
    rw [hn]
    exact Nat.mod_le _ _
  have hfit : LengthCode.f16.width s₃.unread ≤ s₃.unread.length := by
    rw [h.unread, List.length_append, length_lengthBytes]
    exact Nat.le_add_right 2 _
  have hlen := LengthCode.consumes_readLength h.wellFormed hb host hfit
  rw [h.endian, h.unread, value_lengthBytes, ← hn] at hlen
  have hunread : (shift b 2 s₃).unread =
      value.take n ++ (value.drop n ++ (more ++ s₁.unread.drop more.length)) := by
    rw [unread_shift, h.unread, List.drop_left' (length_lengthBytes host s.endian value),
      ← List.append_assoc (value.take n), List.take_append_drop]
  have hread := (h.wellFormed.shifted hfit).consumes_read_string hb hunread
  have hmax : n < 2 ^ 63 := hn ▸ Nat.lt_trans (Nat.mod_lt _ (by decide)) (by decide)
  rw [List.length_take, Nat.min_eq_left hle, ← readChars_of_lt hmax] at hread
  have hstring := hlen.bind hread
  rwa [← LengthCode.readString_eq] at hstring

theorem WellFormed.framed_iff (h : WellFormed b s) (hb : 1 ≤ b) (heap : Heap) (host : Endian)
    (value more : List UInt8) :
    Framed heap host s value more ↔
      value.length < 2 ^ 16 ∧
      ¬ (value = [] ∧ more = [] ∧ s.position + 2 = s.capacity + b * missing b s 2) := by
  obtain ⟨s₁, s₂, s₃, hwrite, hmore, hset, hrew⟩ := h.rewound hb heap host value more
  obtain ⟨n, hn⟩ : ∃ n, n = value.length % 2 ^ 16 := ⟨_, rfl⟩
  have hread := hrew.consumes_read hb hn
  constructor
  · rintro (⟨err, herr⟩ | ⟨t₁, t₂, t₃, t₄, hwrite', hmore', hset', hback, -, -⟩)
    · rw [hwrite] at herr
      cases herr
    · rw [hwrite] at hwrite'
      cases hwrite'
      rw [hmore] at hmore'
      cases hmore'
      rw [hset] at hset'
      cases hset'
      split at hread
      · have hnull : (readStringF16 host).run s₃ = .error .nullNode _ := hread
        rw [hnull] at hback
        cases hback
      · rename_i hcond
        have hvalue : (readStringF16 host).run s₃ = .ok (value.take n) _ := hread
        rw [hvalue] at hback
        have hwhole : value.take n = value := (EStateM.Result.ok.inj hback).1
        have hcount := congrArg List.length hwhole
        rw [List.length_take] at hcount
        refine ⟨by omega, ?_⟩
        rintro ⟨rfl, rfl, hfull⟩
        obtain ⟨hnil, hend⟩ := (hrew.full rfl rfl).mpr hfull
        exact hcond ⟨by simp, by simp [hnil], hend⟩
  · rintro ⟨hlt, hfull⟩
    have hlen : n = value.length := hn.trans (Nat.mod_eq_of_lt hlt)
    subst hlen
    rw [List.take_length, List.drop_length, List.nil_append] at hread
    split at hread
    · rename_i hcond
      obtain ⟨hvalue, hrest, hend⟩ := hcond
      obtain ⟨hmore', hrest⟩ := List.append_eq_nil_iff.mp hrest
      subst hmore'
      exact absurd ⟨hvalue, rfl, (hrew.full hvalue rfl).mp ⟨hrest, hend⟩⟩ hfull
    · refine .inr ⟨s₁, s₂, s₃, _, hwrite, hmore, hset, hread, ?_, ?_⟩
      · rw [hrew.after, Nat.add_assoc, ← hrew.position]
        rfl
      · rw [unread_shift, hrew.unread, ← List.drop_drop,
          List.drop_left' (length_lengthBytes host s.endian value), List.drop_left]

/-- A string comes back from its frame if and only if its length fits 16 bits and the read
of its bytes has a node to look at: an empty string must not end the capacity. -/
theorem runCalls_framed_iff (heap : Heap) (host : Endian) (b : Nat) (hb : 1 ≤ b)
    (calls : List Call) (s : ByteArray)
    (hreach : runCalls heap host calls (fresh heap b) = .ok s) (value more : List UInt8) :
    Framed heap host s value more ↔
      value.length < 2 ^ 16 ∧
      ¬ (value = [] ∧ more = [] ∧ s.position + 2 = s.capacity + b * missing b s 2) :=
  ((wellFormed_fresh heap hb).of_runCalls hb heap host calls hreach).framed_iff hb heap host value
    more

theorem runCalls_framed_iff_middle :
    ∃ s, runCalls (fun _ _ => 0) .little [.op (.write [1, 2, 3]), .op (.setPosition 1)]
        (fresh (fun _ _ => 0) 2) = .ok s ∧
      (Framed (fun _ _ => 0) .little s [7] [8] ↔
        [(7 : UInt8)].length < 2 ^ 16 ∧
        ¬ ([(7 : UInt8)] = [] ∧ [(8 : UInt8)] = [] ∧
          s.position + 2 = s.capacity + 2 * missing 2 s 2)) :=
  ⟨_, rfl, runCalls_framed_iff (fun _ _ => 0) .little 2 (by decide)
    [.op (.write [1, 2, 3]), .op (.setPosition 1)] _ rfl [7] [8]⟩

/-- A string of 2 ^ 16 bytes is written behind the length 0 and read back as the empty one. -/
theorem long_string_lost :
    ∃ s s₁ s₂ s₃ s₄, runCalls (fun _ _ => 0) .little [] (fresh (fun _ _ => 0) 4096) = .ok s ∧
      (writeStringF16 (fun _ _ => 0) .little (List.replicate 65536 1)).run s = .ok () s₁ ∧
      (write (fun _ _ => 0) []).run s₁ = .ok () s₂ ∧
      (setPosition s.position).run s₂ = .ok () s₃ ∧
      (readStringF16 .little).run s₃ = .ok [] s₄ ∧
      ¬ Framed (fun _ _ => 0) .little s (List.replicate 65536 1) [] := by
  have h : WellFormed 4096 (fresh (fun _ _ => 0) 4096) := wellFormed_fresh _ (by decide)
  obtain ⟨s₁, s₂, s₃, hwrite, hmore, hset, hrew⟩ :=
    h.rewound (by decide) (fun _ _ => 0) .little (List.replicate 65536 1) []
  have hread := hrew.consumes_read (by decide) (n := 0)
    (by rw [List.length_replicate]; decide)
  have hsome : ¬ List.replicate 65536 (1 : UInt8) = [] := by
    intro hnil
    have hlen := congrArg List.length hnil
    rw [List.length_replicate] at hlen
    cases hlen
  rw [if_neg fun hcond => hsome (List.append_eq_nil_iff.mp hcond.2.1).1] at hread
  refine ⟨_, s₁, s₂, s₃, _, rfl, hwrite, hmore, hset, hread, ?_⟩
  rw [h.framed_iff (by decide), List.length_replicate]
  exact fun hframed => absurd hframed.1 (by decide)

end Sylar.ByteArray
