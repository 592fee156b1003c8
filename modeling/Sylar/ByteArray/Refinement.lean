import Sylar.ByteArray.Blocks

/-! `ByteArray` refines the flat buffer: every operation keeps `WellFormed`, and
every run of operations is a run of `Flat.Step` with the same outcomes. -/
namespace Sylar.ByteArray

open Lib.Blocks

variable {b : Nat} {s : ByteArray}

theorem wellFormed_fresh (heap : Heap) (hb : 1 ≤ b) : WellFormed b (fresh heap b) where
  baseSize := rfl
  node_size := by simp [fresh, Node.alloc]
  root := by simp [fresh]
  capacity := by simp [fresh]
  position_le_capacity := Nat.zero_le _
  cur := by
    rw [if_neg (by simp only [fresh]; omega)]
    simp [fresh]
  position_le := Nat.le_refl 0
  size_le := Nat.zero_le _

theorem WellFormed.run_write (h : WellFormed b s) (hb : 1 ≤ b) (heap : Heap)
    (buf : List UInt8) :
    ∃ s', (write heap buf).run s = .ok () s' ∧ WellFormed b s' ∧
      (∃ pad : List UInt8, pad.length = b * missing b s buf.length ∧
        s'.memory = overwrite (s.memory ++ pad) s.position buf) ∧
      s'.position = s.position + buf.length ∧
      s'.size = max s.size (s.position + buf.length) ∧ s'.endian = s.endian ∧
      s'.capacity = s.capacity + b * missing b s buf.length := by
  by_cases hempty : buf.length = 0
  · obtain rfl : buf = [] := List.eq_nil_of_length_eq_zero hempty
    have hsize := h.position_le
    have hzero : b * missing b s ([] : List UInt8).length = 0 := by
      rw [missing_eq_zero hb (by simp), Nat.mul_zero]
    refine ⟨s, rfl, h, ⟨[], by rw [hzero]; rfl, by simp⟩, rfl, by simp; omega, rfl, ?_⟩
    rw [hzero, Nat.add_zero]
  · obtain ⟨s₁, hadd, hal, ⟨pad, hmem, hpad⟩, hpos, hsz, hend, hcap⟩ :=
      h.toAligned.run_addCapacity hb heap buf.length
    have hroom : s₁.position + buf.length ≤ s₁.capacity := by
      have := missing_room hb s buf.length
      have := h.position_le_capacity
      omega
    obtain ⟨node, hderef, hnode, -⟩ := hal.run_deref_cur (by omega)
    obtain ⟨s₂, hloop, hal', hmem', hpos', hsz', hcap', hend'⟩ :=
      Aligned.run_writeLoop hb buf.length buf s₁ hal (Nat.le_refl _) hroom
    refine ⟨{ s₂ with size := max s.size (s.position + buf.length) }, ?_, ?_,
      ⟨pad, hpad, ?_⟩, ?_, rfl, ?_, hcap'.trans hcap⟩
    · unfold write
      simp only [if_neg hempty, EStateM.run_bind, hadd, EStateM.run_get, hderef, hnode,
        hal.baseSize, hloop, EStateM.run_modify]
      by_cases hgrow : s₂.position > s₂.size
      · rw [if_pos hgrow, Nat.max_eq_right (by omega), hpos', hpos]
      · rw [if_neg hgrow, Nat.max_eq_left (by omega), ← hsz, ← hsz']
    · have hle := h.size_le
      exact ⟨⟨hal'.baseSize, hal'.node_size, hal'.root, hal'.capacity,
        hal'.position_le_capacity, hal'.cur⟩, by simp only; omega, by simp only; omega⟩
    · exact hmem'.trans (by rw [hmem, hpos])
    · simp only; omega
    · simp only; rw [hend', hend]

theorem WellFormed.run_read_shift (h : WellFormed b s) (hb : 1 ≤ b) {n : Nat} (hn : 1 ≤ n)
    (hfits : n ≤ s.size - s.position) :
    (read n).run s = .ok (((s.memory.take s.size).drop s.position).take n) (shift b n s) ∧
      WellFormed b (shift b n s) := by
  have hsize := h.size_le
  have hroom : s.position + n ≤ s.capacity := by omega
  obtain ⟨node, hderef, hnode, -⟩ := h.toAligned.run_deref_cur (by omega)
  have hloop := Aligned.run_readLoop hb n n s h.toAligned (Nat.le_refl n) hroom hn
  refine ⟨?_, h.toAligned.shifted hroom, ?_, hsize⟩
  · have hfits' : ¬ n > s.getReadSize := Nat.not_lt.mpr hfits
    unfold read
    simp only [EStateM.run_bind, EStateM.run_get, if_neg hfits', hderef, hnode, h.baseSize,
      hloop]
    rw [List.drop_take, List.take_take, Nat.min_eq_left hfits]
  · simp only [shift]
    omega

theorem WellFormed.run_read (h : WellFormed b s) (hb : 1 ≤ b) {n : Nat} (hn : 1 ≤ n)
    (hfits : n ≤ s.size - s.position) :
    ∃ s', (read n).run s = .ok (((s.memory.take s.size).drop s.position).take n) s' ∧
      WellFormed b s' ∧ s'.memory = s.memory ∧ s'.position = s.position + n ∧
      s'.size = s.size ∧ s'.endian = s.endian := by
  obtain ⟨hrun, h'⟩ := h.run_read_shift hb hn hfits
  exact ⟨shift b n s, hrun, h', rfl, rfl, rfl, rfl⟩

theorem run_read_short {n : Nat} (hshort : n > s.size - s.position) :
    (read n).run s = .error (.outOfRange "not enough len") s := by
  have hshort' : n > s.getReadSize := hshort
  unfold read
  simp only [EStateM.run_bind, EStateM.run_get, if_pos hshort']
  rfl

theorem WellFormed.run_setPosition (h : WellFormed b s) (hb : 1 ≤ b) {v : Nat}
    (hv : v ≤ s.capacity) :
    ∃ s', (setPosition v).run s = .ok () s' ∧ WellFormed b s' ∧ s'.memory = s.memory ∧
      s'.position = v ∧ s'.size = max s.size v ∧ s'.endian = s.endian := by
  have hlen : 0 < s.nodes.length := List.length_pos_iff.mpr h.root
  have hcap := h.capacity
  obtain ⟨j, hseek, hj, hle, hrest, hpos⟩ := run_seekLoop
    (s := { s with position := v, size := if v > s.size then v else s.size })
    h.node_size (v + 1) 0 v (by omega) hb hlen (by simp only; omega)
  simp only [Nat.zero_add] at hj hseek
  refine ⟨{ s with
      position := v
      size := max s.size v
      cur := if v = s.capacity then none else some (v / b) }, ?_, ?_, rfl, rfl, rfl, rfl⟩
  · have hsz : (if v > s.size then v else s.size) = max s.size v := by
      split <;> omega
    have hderef : (deref (some j)).run
        { s with position := v, size := max s.size v, cur := some j } = .ok s.nodes[j] _ :=
      run_deref_some (List.getElem?_eq_getElem hj)
    have hnode : s.nodes[j].size = b := h.node_size _ (List.getElem_mem hj)
    unfold setPosition
    simp only [EStateM.run_bind, EStateM.run_get, if_neg (by omega : ¬ v > s.capacity),
      EStateM.run_modify, hseek]
    simp only [hsz, hderef, hnode]
    -- at the end of block `j` the pointer moves on; inside it, `j` is the block of `v`
    by_cases hend : v - b * j = b
    · have hv' : v = b * (j + 1) := by
        rw [Nat.mul_add, Nat.mul_one]
        omega
      have hdiv : v / b = j + 1 := by rw [hv', Nat.mul_div_cancel_left _ (by omega)]
      rw [if_pos hend]
      simp only [advance, EStateM.run_bind, EStateM.run_get, run_next_some, EStateM.run_modify,
        hdiv]
      by_cases hlast : j + 1 < s.nodes.length
      · rw [if_pos hlast, if_neg]
        rw [hcap, hv']
        intro heq
        have := Nat.eq_of_mul_eq_mul_left (by omega) heq
        omega
      · rw [if_neg hlast, if_pos (by rw [hcap, hv']; congr 1; omega)]
    · have hdiv : v / b = j := by
        rw [show v = b * j + (v - b * j) by omega, Nat.mul_add_div (by omega),
          Nat.div_eq_of_lt (by omega), Nat.add_zero]
      have hlt : b * (j + 1) ≤ s.capacity := by
        rw [hcap]
        exact Nat.mul_le_mul_left b hj
      rw [Nat.mul_add, Nat.mul_one] at hlt
      rw [if_neg hend, if_neg (by omega), hdiv]
      rfl
  · have hle' := h.size_le
    exact ⟨⟨h.baseSize, h.node_size, h.root, hcap, hv, rfl⟩, by simp only; omega,
      by simp only; omega⟩

theorem run_setPosition_outside {v : Nat} (hv : v > s.capacity) :
    (setPosition v).run s = .error (.outOfRange "set_position out of range") s := by
  unfold setPosition
  simp only [EStateM.run_bind, EStateM.run_get, if_pos hv]
  rfl

theorem WellFormed.run_getWriteBuffers (h : WellFormed b s) (hb : 1 ≤ b) (heap : Heap)
    (len : Nat) :
    ∃ iovs s', (getWriteBuffers heap len).run s = .ok (len, iovs) s' ∧ WellFormed b s' ∧
      (∃ pad : List UInt8, s'.memory = s.memory ++ pad ∧
        pad.length = b * missing b s len) ∧
      s'.position = s.position ∧ s'.size = s.size ∧ s'.endian = s.endian ∧
      Cuts s' (s.position / b) iovs ∧
      iovs.flatMap (Iovec.bytes s') = (s'.memory.drop s.position).take len ∧
      iovs.flatMap (Iovec.offsets b) = List.range' s.position len := by
  by_cases hlen : len = 0
  · subst hlen
    refine ⟨[], s, rfl, h, ⟨[], by simp, ?_⟩, rfl, rfl, rfl, Cuts.nil s _, by simp, rfl⟩
    rw [missing_eq_zero hb (Nat.zero_le _)]
    rfl
  · obtain ⟨s', hadd, hal, hpad, hpos, hsz, hend, hcap⟩ :=
      h.toAligned.run_addCapacity hb heap len
    have hroom : s'.position + len ≤ s'.capacity := by
      have := missing_room hb s len
      have := h.position_le_capacity
      omega
    have hlt : s'.position < s'.capacity := by omega
    obtain ⟨node, hderef, hnode, -⟩ := hal.run_deref_cur hlt
    have hidx : s'.position / b < s'.nodes.length :=
      Nat.div_lt_of_lt_mul (by rw [← hal.capacity]; exact hlt)
    obtain ⟨iovs, hiov, hcuts, hbytes, hoffs⟩ := run_iovLoop hal hb len (s'.position / b) (s'.position % b) len
      (Nat.le_refl len) (Nat.mod_lt _ (by omega)) hidx
      (by rw [Nat.div_add_mod, ← hal.capacity]; exact hroom)
    have hpos_le := h.position_le
    have hsize_le := h.size_le
    rw [Nat.div_add_mod, hpos] at hbytes hoffs
    rw [hpos] at hcuts
    refine ⟨iovs, s', ?_, ⟨hal, by omega, by omega⟩, hpad, hpos, hsz, hend, hcuts, hbytes, hoffs⟩
    unfold getWriteBuffers
    rw [hal.cur_eq hlt] at hderef
    simp only [if_neg hlen, EStateM.run_bind, hadd, EStateM.run_get, hal.cur_eq hlt, hderef,
      hnode, hal.baseSize, hiov, EStateM.run_pure]

theorem WellFormed.clear (h : WellFormed b s) (hb : 1 ≤ b) :
    ∃ s', ByteArray.clear.run s = .ok () s' ∧ WellFormed b s' ∧
      s'.memory = s.memory.take b ∧ s'.position = 0 ∧ s'.size = 0 := by
  obtain ⟨root, rest, hnodes⟩ := List.exists_cons_of_ne_nil h.root
  have hroot : root.size = b := h.node_size root (by rw [hnodes]; simp)
  refine ⟨_, rfl, ⟨⟨h.baseSize, ?_, ?_, ?_, Nat.zero_le _, ?_⟩, Nat.le_refl 0,
    Nat.zero_le _⟩, ?_, rfl, rfl⟩
  · intro node hnode
    exact h.node_size node (List.mem_of_mem_take hnode)
  · simp [hnodes]
  · simp [hnodes, h.baseSize]
  · simp only
    rw [if_neg (by rw [h.baseSize]; omega), Nat.zero_div]
  · simp only [memory, hnodes, List.take_succ_cons, List.take_zero, List.map_cons, List.map_nil,
      List.flatten_cons, List.flatten_nil, List.append_nil]
    rw [List.take_left' (by rw [root.length_ptr, hroot])]

/-- Reads are of at least one byte; every other call is unrestricted. -/
def Op.Legal : Op → Prop
  | .read n => 1 ≤ n
  | _ => True

instance (op : Op) : Decidable op.Legal :=
  match op with
  | .read n => inferInstanceAs (Decidable (1 ≤ n))
  | .write _ | .setPosition _ | .getWriteBuffers _ | .clear => .isTrue trivial

/-- What one call of a run did: it returned `out`, or it was left by an
`out_of_range` that the caller caught. -/
def Op.Ends (heap : Heap) (op : Op) (s : ByteArray) (out : Outcome) (s' : ByteArray) : Prop :=
  (op.run heap).run s = .ok out s' ∨
    ∃ what, out = .thrown what ∧ (op.run heap).run s = .error (.outOfRange what) s'

theorem WellFormed.step (h : WellFormed b s) (hb : 1 ≤ b) (heap : Heap) (op : Op)
    (hop : op.Legal) :
    ∃ out s', op.Ends heap s out s' ∧
      ∃ h' : WellFormed b s', Flat.Step b h.flat op out h'.flat := by
  have hlen : s.memory.length = s.capacity := h.toAligned.length_memory
  cases op with
  | write buf =>
    obtain ⟨s', hrun, h', ⟨pad, hpad, hmem⟩, hpos, hsize, -⟩ := h.run_write hb heap buf
    refine ⟨.done, s', .inl ?_, h', .write ⟨pad, rfl, ?_⟩ hmem hpos hsize⟩
    · simp only [Op.run, EStateM.run_bind, hrun, EStateM.run_pure]
    · simp only [WellFormed.flat, hlen]
      exact hpad
  | read n =>
    by_cases hfits : n ≤ s.size - s.position
    · obtain ⟨s', hrun, h', hmem, hpos, hsize, -⟩ := h.run_read hb hop hfits
      refine ⟨_, s', .inl ?_, h', .read hfits hmem hpos hsize⟩
      simp only [Op.run, EStateM.run_bind, hrun, EStateM.run_pure]
      rfl
    · have hrun := run_read_short (s := s) (Nat.not_le.mp hfits)
      refine ⟨_, s, .inr ⟨_, rfl, ?_⟩, h, .readThrows (Nat.not_le.mp hfits)⟩
      simp only [Op.run, EStateM.run_bind, hrun]
  | setPosition v =>
    by_cases hv : v ≤ s.capacity
    · obtain ⟨s', hrun, h', hmem, hpos, hsize, -⟩ := h.run_setPosition hb hv
      refine ⟨.done, s', .inl ?_, h', .setPosition ?_ hmem hpos hsize⟩
      · simp only [Op.run, EStateM.run_bind, hrun, EStateM.run_pure]
      · simp only [WellFormed.flat, hlen]
        exact hv
    · have hrun := run_setPosition_outside (s := s) (Nat.not_le.mp hv)
      refine ⟨_, s, .inr ⟨_, rfl, ?_⟩, h, .setPositionThrows ?_⟩
      · simp only [Op.run, EStateM.run_bind, hrun]
      · simp only [WellFormed.flat, hlen]
        exact Nat.not_le.mp hv
  | getWriteBuffers len =>
    obtain ⟨iovs, s', hrun, h', ⟨pad, hmem, hpad⟩, hpos, hsize, -⟩ :=
      h.run_getWriteBuffers hb heap len
    refine ⟨.lent len, s', .inl ?_, h', .getWriteBuffers ⟨pad, hmem, ?_⟩ hpos hsize⟩
    · simp only [Op.run, EStateM.run_bind, hrun, EStateM.run_pure]
    · simp only [WellFormed.flat, hlen]
      exact hpad
  | clear =>
    obtain ⟨s', hrun, h', hmem, hpos, hsize⟩ := h.clear hb
    refine ⟨.done, s', .inl ?_, h', .clear hmem hpos hsize⟩
    simp only [Op.run, EStateM.run_bind, hrun, EStateM.run_pure]

theorem runOps_cons {heap : Heap} {op : Op} {out : Outcome} {s' : ByteArray}
    (hend : op.Ends heap s out s') (ops : List Op) :
    runOps heap (op :: ops) s = (runOps heap ops s').map fun r => (out :: r.1, r.2) := by
  rcases hend with hrun | ⟨what, rfl, hrun⟩
  · simp only [runOps, hrun]
    cases runOps heap ops s' <;> rfl
  · simp only [runOps, hrun]
    cases runOps heap ops s' <;> rfl

theorem WellFormed.run (hb : 1 ≤ b) (heap : Heap) (ops : List Op)
    (hops : ∀ op ∈ ops, op.Legal) (s : ByteArray) (h : WellFormed b s) :
    ∃ outs s', runOps heap ops s = .ok (outs, s') ∧
      ∃ h' : WellFormed b s', Flat.Run b h.flat ops outs h'.flat := by
  induction ops generalizing s with
  | nil => exact ⟨[], s, rfl, h, .nil _⟩
  | cons op ops ih =>
    obtain ⟨out, s₁, hend, h₁, hstep⟩ := h.step hb heap op (hops op (by simp))
    obtain ⟨outs, s', hrun, h', hrest⟩ := ih (fun o ho => hops o (by simp [ho])) s₁ h₁
    refine ⟨out :: outs, s', ?_, h', .cons hstep hrest⟩
    rw [runOps_cons hend, hrun]
    rfl

/-- From a fresh object of block size `b`, every sequence of calls ends without
undefined behaviour in a well formed object, and its outcomes and final content
are those of the flat buffer. Every prefix of a sequence is a sequence, so this
holds after each call. -/
theorem runOps_fresh_refines_flat (heap : Heap) (b : Nat) (hb : 1 ≤ b) (ops : List Op)
    (hops : ∀ op ∈ ops, op.Legal) :
    ∃ outs s', runOps heap ops (fresh heap b) = .ok (outs, s') ∧
      ∃ h' : WellFormed b s',
        Flat.Run b (wellFormed_fresh heap hb).flat ops outs h'.flat :=
  WellFormed.run hb heap ops hops (fresh heap b) (wellFormed_fresh heap hb)

/-- Blocks of two bytes, with the cursor on block boundaries and past the end. -/
def boundaryOps : List Op :=
  [.write [1, 2, 3, 4], .read 1, .setPosition 2, .read 2, .getWriteBuffers 3, .setPosition 7,
    .setPosition 9, .clear, .write [5]]

theorem runOps_fresh_refines_flat_boundaryOps :
    (∀ op ∈ boundaryOps, op.Legal) ∧
      ∃ outs s', runOps (fun _ _ => 0) boundaryOps (fresh (fun _ _ => 0) 2) = .ok (outs, s') ∧
        ∃ h' : WellFormed 2 s',
          Flat.Run 2 (wellFormed_fresh (b := 2) (fun _ _ => 0) (by decide)).flat
            boundaryOps outs h'.flat :=
  ⟨by decide, runOps_fresh_refines_flat (fun _ _ => 0) 2 (by decide) boundaryOps (by decide)⟩

example : ((runOps (fun _ _ => 0) boundaryOps (fresh (fun _ _ => 0) 2)).toOption.map Prod.fst) =
    some [.done, .thrown "not enough len", .done, .bytes [3, 4], .lent 3, .done,
      .thrown "set_position out of range", .done, .done] := by
  decide +kernel

end Sylar.ByteArray
