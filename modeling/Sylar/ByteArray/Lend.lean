import Sylar.ByteArray.Buffers

/-! Bytes that arrive through the iovecs of `getWriteBuffers`, as `recvmsg` stores them for
`SocketStream::read`. Followed by `setPosition` this is a second way to write, and it is
compared with `write` from the same state. -/
namespace Sylar.ByteArray

open Lib.Blocks

variable {b : Nat} {s : ByteArray}

/-- A caller stores `data` into the bytes that the iovecs describe, in their order. -/
def scatter : List Iovec → List UInt8 → M Unit
  | _, [] => pure ()
  | [], _ :: _ => throw .overrun
  | v :: iovs, x :: xs => do
    fill v.node v.off ((x :: xs).take v.len)
    scatter iovs ((x :: xs).drop v.len)

@[simp] theorem scatter_nil (iovs : List Iovec) : scatter iovs [] = pure () := by
  cases iovs <;> rfl

/-- The node that the cursor is in: none at the end of the capacity. -/
def cursorNode (b : Nat) (s : ByteArray) : Option Nat :=
  if s.position = s.capacity then none else some (s.position / b)

theorem Aligned.run_fill (h : Aligned b s) {i npos : Nat} (hi : i < s.nodes.length)
    (src : List UInt8) (hfit : npos + src.length ≤ b) :
    ∃ nodes, (fill i npos src).run s = .ok () { s with nodes := nodes } ∧
      Aligned b { s with nodes := nodes } ∧ nodes.length = s.nodes.length ∧
      ByteArray.memory { s with nodes := nodes } = overwrite s.memory (b * i + npos) src := by
  have hget : s.nodes[i]? = some s.nodes[i] := List.getElem?_eq_getElem hi
  have hstore : npos + src.length ≤ s.nodes[i].size := by
    rw [h.node_size _ (List.getElem_mem hi)]
    exact hfit
  obtain ⟨hal, hmem⟩ := h.set_node hget src hstore
  refine ⟨_, ?_, hal, List.length_set, hmem⟩
  simp only [fill, EStateM.run_bind, run_deref_some hget, dif_pos hstore, EStateM.run_modify]

theorem range_split {a n o len : Nat} {rest : List Nat} (hn : 0 < n)
    (h : List.range' a n ++ rest = List.range' o len) :
    a = o ∧ n ≤ len ∧ rest = List.range' (o + n) (len - n) := by
  have hlen : n + rest.length = len := by
    have := congrArg List.length h
    simpa using this
  have hsplit : List.range' o n ++ List.range' (o + n) (len - n) = List.range' o len := by
    have happend : List.range' o n ++ List.range' (o + 1 * n) (len - n) =
        List.range' o (n + (len - n)) := List.range'_append
    rwa [Nat.one_mul, Nat.add_sub_cancel' (by omega)] at happend
  obtain ⟨hhead, htail⟩ := List.append_inj (h.trans hsplit.symm) (by simp)
  refine ⟨?_, by omega, htail⟩
  obtain ⟨m, rfl⟩ : ∃ m, n = m + 1 := ⟨n - 1, by omega⟩
  rw [List.range'_succ, List.range'_succ] at hhead
  exact (List.cons.inj hhead).1

theorem run_scatter (iovs : List Iovec) (data : List UInt8) (o len : Nat) (s : ByteArray)
    (h : Aligned b s)
    (hin : ∀ v ∈ iovs, 0 < v.len ∧ v.off + v.len ≤ b ∧ v.node < s.nodes.length)
    (hoffs : iovs.flatMap (Iovec.offsets b) = List.range' o len) (hdata : data.length ≤ len) :
    ∃ nodes, (scatter iovs data).run s = .ok () { s with nodes := nodes } ∧
      Aligned b { s with nodes := nodes } ∧
      ByteArray.memory { s with nodes := nodes } = overwrite s.memory o data := by
  induction iovs generalizing data o len s with
  | nil =>
    have hzero : len = 0 := by
      have := congrArg List.length hoffs
      simpa using this.symm
    obtain rfl : data = [] := List.eq_nil_of_length_eq_zero (by omega)
    exact ⟨s.nodes, rfl, h, by simp⟩
  | cons v iovs ih =>
    cases data with
    | nil => exact ⟨s.nodes, by simp, h, by simp⟩
    | cons x xs =>
      obtain ⟨data, hd⟩ : ∃ data, data = x :: xs := ⟨_, rfl⟩
      obtain ⟨⟨hpos, hfit, hnode⟩, hrest⟩ := List.forall_mem_cons.mp hin
      rw [List.flatMap_cons] at hoffs
      obtain ⟨hstart, hle, hoffs'⟩ := range_split hpos hoffs
      have hpiece : v.off + (data.take v.len).length ≤ b := by
        rw [List.length_take]
        omega
      obtain ⟨nodes, hfill, hal, hcount, hmem⟩ := h.run_fill hnode (data.take v.len) hpiece
      obtain ⟨nodes', hrun, hal', hmem'⟩ := ih (data.drop v.len) (o + v.len) (len - v.len)
        { s with nodes := nodes } hal
        (by simpa only [hcount] using hrest) hoffs'
        (by rw [List.length_drop]; rw [hd]; omega)
      refine ⟨nodes', ?_, hal', ?_⟩
      · rw [scatter, ← hd, EStateM.run_bind, hfill]
        exact hrun
      · rw [hmem', hmem, hstart, ← hd]
        by_cases hlast : data.length ≤ v.len
        · rw [List.drop_eq_nil_of_le hlast, overwrite_nil, List.take_of_length_le hlast]
        · have htake : (data.take v.len).length = v.len := by
            rw [List.length_take]
            omega
          have hroom : o ≤ s.memory.length := by
            have hblocks : b * (v.node + 1) ≤ b * s.nodes.length := Nat.mul_le_mul_left b hnode
            rw [Nat.mul_add, Nat.mul_one] at hblocks
            rw [h.length_memory, h.capacity]
            omega
          have happend := overwrite_append s.memory o (data.take v.len) (data.drop v.len) hroom
          rwa [htake, List.take_append_drop] at happend

theorem WellFormed.stored_of_overwrite (h : WellFormed b s) {s' : ByteArray} {pad data : List UInt8}
    (hmem : s'.memory = overwrite (s.memory ++ pad) s.position data)
    (hsize : s'.size = max s.size (s.position + data.length)) :
    s'.stored = overwrite s.stored s.position data := by
  rw [stored, hmem, hsize]
  exact take_overwrite_max s.memory pad s.position s.size data h.position_le
    (by rw [h.toAligned.length_memory]; exact h.size_le)

theorem WellFormed.run_write_stored (h : WellFormed b s) (hb : 1 ≤ b) (heap : Heap)
    (data : List UInt8) :
    ∃ s', (write heap data).run s = .ok () s' ∧ WellFormed b s' ∧
      s'.position = s.position + data.length ∧
      s'.size = max s.size (s.position + data.length) ∧
      s'.stored = overwrite s.stored s.position data ∧ s'.endian = s.endian ∧
      s'.capacity = s.capacity + b * missing b s data.length := by
  obtain ⟨s', hrun, h', ⟨pad, -, hmem⟩, hpos, hsize, hend, hcap⟩ := h.run_write hb heap data
  exact ⟨s', hrun, h', hpos, hsize, h.stored_of_overwrite hmem hsize, hend, hcap⟩

theorem WellFormed.run_lend (h : WellFormed b s) (hb : 1 ≤ b) (heap : Heap) {len : Nat}
    {data : List UInt8} (hlen : data.length ≤ len) :
    ∃ iovs s₁ s₂ lent,
      (getWriteBuffers heap len).run s = .ok (len, iovs) s₁ ∧
      (scatter iovs data).run s₁ = .ok () s₂ ∧
      (setPosition (s₂.position + data.length)).run s₂ = .ok () lent ∧ WellFormed b lent ∧
      lent.position = s.position + data.length ∧
      lent.size = max s.size (s.position + data.length) ∧
      lent.stored = overwrite s.stored s.position data ∧
      Cuts s₁ (s.position / b) iovs ∧
      iovs.flatMap (Iovec.offsets b) = List.range' s.position len := by
  obtain ⟨iovs, s₁, hlend, h₁, ⟨pad₁, hmem₁, hpad₁⟩, hpos₁, hsize₁, -, hcuts, -, hoffs⟩ :=
    h.run_getWriteBuffers hb heap len
  have hin : ∀ v ∈ iovs, 0 < v.len ∧ v.off + v.len ≤ b ∧ v.node < s₁.nodes.length := by
    intro v hv
    obtain ⟨node, hnode, hfit⟩ := hcuts.inside v hv
    rw [h₁.node_size node (List.mem_of_getElem? hnode)] at hfit
    exact ⟨hcuts.len_pos v hv, hfit, (List.getElem?_eq_some_iff.mp hnode).1⟩
  obtain ⟨nodes, hscatter, hal, hmem₂⟩ := run_scatter iovs data s.position len s₁
    h₁.toAligned hin hoffs hlen
  have h₂ : WellFormed b { s₁ with nodes := nodes } := ⟨hal, h₁.position_le, h₁.size_le⟩
  have hroom : s₁.position + data.length ≤ s₁.capacity := by
    have := missing_room hb s len
    have := h.position_le_capacity
    rw [hpos₁, ← h₁.toAligned.length_memory, hmem₁, List.length_append, hpad₁,
      h.toAligned.length_memory]
    omega
  obtain ⟨lent, hset, h₃, hmem₃, hpos₃, hsize₃, -⟩ := h₂.run_setPosition hb hroom
  have hsize : lent.size = max s.size (s.position + data.length) := by
    rw [hsize₃, hsize₁, hpos₁]
  refine ⟨iovs, s₁, _, lent, hlend, hscatter, hset, h₃, by rw [hpos₃, hpos₁], hsize, ?_, hcuts,
    hoffs⟩
  exact h.stored_of_overwrite (by rw [hmem₃, hmem₂, hmem₁]) hsize

/-- In every reachable state, storing `data` through the lent iovecs and moving the cursor
over it leaves what `write` leaves. The capacity may differ: room was made for `len` bytes. -/
theorem runCalls_lend_eq_write (heap : Heap) (host : Endian) (b : Nat) (hb : 1 ≤ b)
    (calls : List Call) (s : ByteArray)
    (hreach : runCalls heap host calls (fresh heap b) = .ok s)
    (len : Nat) (data : List UInt8) (hlen : data.length ≤ len) :
    ∃ iovs s₁ s₂ lent written,
      (getWriteBuffers heap len).run s = .ok (len, iovs) s₁ ∧
      (scatter iovs data).run s₁ = .ok () s₂ ∧
      (setPosition (s₂.position + data.length)).run s₂ = .ok () lent ∧
      (write heap data).run s = .ok () written ∧
      lent.position = written.position ∧ lent.size = written.size ∧
      lent.stored = written.stored ∧
      lent.cur = lent.cursorNode b ∧ written.cur = written.cursorNode b ∧
      Cuts s₁ (s.position / b) iovs ∧
      iovs.flatMap (Iovec.offsets b) = List.range' s.position len := by
  have h := (wellFormed_fresh heap hb).of_runCalls hb heap host calls hreach
  obtain ⟨iovs, s₁, s₂, lent, hlend, hscatter, hset, hl, hpos, hsize, hstored, hcuts, hoffs⟩ :=
    h.run_lend hb heap hlen
  obtain ⟨written, hwrite, hw, hposw, hsizew, hstoredw, -⟩ := h.run_write_stored hb heap data
  exact ⟨iovs, s₁, s₂, lent, written, hlend, hscatter, hset, hwrite, hpos.trans hposw.symm,
    hsize.trans hsizew.symm, hstored.trans hstoredw.symm, hl.cur, hw.cur, hcuts, hoffs⟩

/-- Two bytes of four lent ones, from the middle of a block of two. -/
theorem runCalls_lend_eq_write_short :
    ∃ s, runCalls (fun _ _ => 0) .little [.op (.write [1, 2, 3]), .op (.setPosition 1)]
        (fresh (fun _ _ => 0) 2) = .ok s ∧
      ∃ iovs s₁ s₂ lent written,
        (getWriteBuffers (fun _ _ => 0) 4).run s = .ok (4, iovs) s₁ ∧
        (scatter iovs [7, 8]).run s₁ = .ok () s₂ ∧
        (setPosition (s₂.position + [7, 8].length)).run s₂ = .ok () lent ∧
        (write (fun _ _ => 0) [7, 8]).run s = .ok () written ∧
        lent.position = written.position ∧ lent.size = written.size ∧
        lent.stored = written.stored ∧
        lent.cur = lent.cursorNode 2 ∧ written.cur = written.cursorNode 2 ∧
        Cuts s₁ (s.position / 2) iovs ∧
        iovs.flatMap (Iovec.offsets 2) = List.range' s.position 4 :=
  ⟨_, rfl, runCalls_lend_eq_write (fun _ _ => 0) .little 2 (by decide)
    [.op (.write [1, 2, 3]), .op (.setPosition 1)] _ rfl 4 [7, 8] (by decide)⟩

end Sylar.ByteArray
