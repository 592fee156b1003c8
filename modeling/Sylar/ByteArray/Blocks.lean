import Sylar.ByteArray.Flat

/-! One spec for each primitive and loop of `ByteArray`: what it does to the flat
memory and to the cursor of an `Aligned` object. The operations are assembled
from these specs and never unfold a loop again. -/
namespace Sylar.ByteArray

open Lib.Blocks

variable {b : Nat} {s : ByteArray}

theorem run_deref_some {i : Nat} {node : Node} (h : s.nodes[i]? = some node) :
    (deref (some i)).run s = .ok node s := by
  simp only [EStateM.run, deref, h]

@[simp] theorem run_next_some (i : Nat) :
    (next (some i)).run s =
      .ok (if i + 1 < s.nodes.length then some (i + 1) else none) s := rfl

theorem Aligned.node_at (h : Aligned b s) (hlt : s.position < s.capacity) :
    ∃ node, s.nodes[s.position / b]? = some node ∧ node.size = b := by
  have hidx : s.position / b < s.nodes.length :=
    Nat.div_lt_of_lt_mul (by rw [← h.capacity]; exact hlt)
  exact ⟨s.nodes[s.position / b], List.getElem?_eq_getElem hidx,
    h.node_size _ (List.getElem_mem hidx)⟩

theorem Aligned.cur_eq (h : Aligned b s) (hlt : s.position < s.capacity) :
    s.cur = some (s.position / b) := by
  rw [h.cur, if_neg (by omega)]

theorem Aligned.run_deref_cur (h : Aligned b s) (hlt : s.position < s.capacity) :
    ∃ node, (deref s.cur).run s = .ok node s ∧ node.size = b ∧
      s.nodes[s.position / b]? = some node := by
  obtain ⟨node, hget, hsize⟩ := h.node_at hlt
  exact ⟨node, by rw [h.cur_eq hlt]; exact run_deref_some hget, hsize, hget⟩

/-- The object after the cursor moved over `k` bytes of its block, with the node
pointer advanced when the block ends there. -/
def shift (b k : Nat) (s : ByteArray) : ByteArray :=
  { s with
    position := s.position + k
    cur := if s.position + k = s.capacity then none else some ((s.position + k) / b) }

theorem Aligned.shifted (h : Aligned b s) {k : Nat} (hk : s.position + k ≤ s.capacity) :
    Aligned b (shift b k s) where
  baseSize := h.baseSize
  node_size := h.node_size
  root := h.root
  capacity := h.capacity
  position_le_capacity := hk
  cur := rfl

private theorem div_of_offset {pos k : Nat} (hk : pos % b + k < b) :
    (pos + k) / b = pos / b := by
  have hpos := Nat.div_add_mod pos b
  rw [show pos + k = b * (pos / b) + (pos % b + k) by omega,
    Nat.mul_add_div (by omega), Nat.div_eq_of_lt hk, Nat.add_zero]

private theorem div_of_boundary (hb : 1 ≤ b) {pos k : Nat} (hk : pos % b + k = b) :
    (pos + k) / b = pos / b + 1 ∧ pos + k = b * (pos / b + 1) := by
  have hpos := Nat.div_add_mod pos b
  have hmul : pos + k = b * (pos / b + 1) := by
    rw [Nat.mul_add, Nat.mul_one]
    omega
  exact ⟨by rw [hmul, Nat.mul_div_cancel_left _ (by omega)], hmul⟩

theorem Aligned.next_boundary (h : Aligned b s) (hb : 1 ≤ b) {k : Nat}
    (hlt : s.position < s.capacity) (hk : s.position % b + k = b) :
    (if s.position / b + 1 < s.nodes.length then some (s.position / b + 1) else none) =
      if s.position + k = s.capacity then none else some ((s.position + k) / b) := by
  obtain ⟨hdiv, hmul⟩ := div_of_boundary hb hk
  have hidx : s.position / b < s.nodes.length :=
    Nat.div_lt_of_lt_mul (by rw [← h.capacity]; exact hlt)
  rw [hdiv, h.capacity, hmul]
  by_cases hlast : s.position / b + 1 < s.nodes.length
  · rw [if_pos hlast, if_neg]
    intro heq
    have := Nat.eq_of_mul_eq_mul_left (by omega) heq
    omega
  · rw [if_neg hlast, if_pos (by rw [show s.position / b + 1 = s.nodes.length by omega])]

theorem Aligned.shift_inside (h : Aligned b s) {k : Nat}
    (hlt : s.position < s.capacity) (hk : s.position % b + k < b) :
    shift b k s = { s with position := s.position + k } := by
  have hdiv := div_of_offset hk
  have hidx : s.position / b < s.nodes.length :=
    Nat.div_lt_of_lt_mul (by rw [← h.capacity]; exact hlt)
  have hpos := Nat.div_add_mod s.position b
  have hcap : b * (s.position / b + 1) ≤ s.capacity := by
    rw [h.capacity]
    exact Nat.mul_le_mul_left b hidx
  rw [Nat.mul_add, Nat.mul_one] at hcap
  unfold shift
  rw [if_neg (by omega), hdiv, h.cur_eq hlt]

theorem Aligned.set_node (h : Aligned b s) {i npos : Nat} {node : Node}
    (hget : s.nodes[i]? = some node) (src : List UInt8) (hfit : npos + src.length ≤ node.size) :
    Aligned b { s with nodes := s.nodes.set i (node.store npos src hfit) } ∧
      ByteArray.memory { s with nodes := s.nodes.set i (node.store npos src hfit) } =
        overwrite s.memory (b * i + npos) src := by
  obtain ⟨hidx, hnode⟩ := List.getElem?_eq_some_iff.mp hget
  have hsize : node.size = b := h.node_size node (List.mem_of_getElem? hget)
  constructor
  · refine ⟨h.baseSize, ?_, ?_, ?_, h.position_le_capacity, h.cur⟩
    · intro n hn
      rcases List.mem_or_eq_of_mem_set hn with hn | rfl
      · exact h.node_size n hn
      · exact hsize
    · simpa using h.root
    · simpa using h.capacity
  · have hptr : ∀ h : i < (s.nodes.map Node.ptr).length,
        (s.nodes.map Node.ptr)[i] = node.ptr := by
      intro h
      simp [hnode]
    have hflat := flatten_set_overwrite h.ptr_length i npos src (by simpa using hidx)
      (by rw [← hsize]; exact hfit)
    rw [hptr] at hflat
    simp only [memory, List.map_set]
    exact hflat

theorem Aligned.run_storeCur (h : Aligned b s) (hlt : s.position < s.capacity)
    (src : List UInt8) (hfit : s.position % b + src.length ≤ b) :
    ∃ nodes, (storeCur (s.position % b) src).run s = .ok () { s with nodes := nodes } ∧
      Aligned b { s with nodes := nodes } ∧
      ByteArray.memory { s with nodes := nodes } = overwrite s.memory s.position src := by
  obtain ⟨node, hget, hsize⟩ := h.node_at hlt
  have hcur := h.cur_eq hlt
  have hstore : s.position % b + src.length ≤ node.size := by rw [hsize]; exact hfit
  obtain ⟨hal, hmem⟩ := h.set_node hget src hstore
  rw [Nat.div_add_mod] at hmem
  refine ⟨_, ?_, hal, hmem⟩
  simp only [storeCur, EStateM.run_bind, EStateM.run_get, hcur, run_deref_some hget,
    dif_pos hstore, EStateM.run_modify, Option.getD_some]

theorem Aligned.run_loadCur (h : Aligned b s) (hlt : s.position < s.capacity)
    (n : Nat) (hfit : s.position % b + n ≤ b) :
    (loadCur (s.position % b) n).run s =
      .ok ((s.memory.drop s.position).take n) s := by
  obtain ⟨node, hget, hsize⟩ := h.node_at hlt
  obtain ⟨hidx, hnode⟩ := List.getElem?_eq_some_iff.mp hget
  have hblock := take_drop_block h.ptr_length (s.position / b) (s.position % b) n
    (by simpa using hidx) hfit
  rw [Nat.div_add_mod, List.getElem_map, hnode] at hblock
  simp only [loadCur, EStateM.run_bind, EStateM.run_get, h.cur_eq hlt, run_deref_some hget,
    hsize, if_pos hfit, EStateM.run_pure, hblock, memory]

/-- The end of a pass: the cursor moves over `k` bytes, `m_cur` follows when the
block is full, and the call goes on with `cont`. -/
theorem Aligned.run_finish {α : Type} (h : Aligned b s) (hb : 1 ≤ b)
    (hlt : s.position < s.capacity) {k : Nat} (hfit : s.position % b + k ≤ b)
    {node : Node} (hsize : node.size = b) (cont : M α) :
    EStateM.run (do
      if node.size = s.position % b + k then
        advance
      modify fun s => { s with position := s.position + k }
      cont : M α) s = cont.run (shift b k s) := by
  by_cases hfull : s.position % b + k = b
  · have hnext := h.next_boundary hb hlt hfull
    rw [if_pos (by rw [hsize, hfull])]
    simp only [advance, EStateM.run_bind, EStateM.run_get, h.cur_eq hlt, run_next_some,
      EStateM.run_modify, hnext, shift]
  · rw [h.shift_inside hlt (by omega), if_neg (by rw [hsize]; omega)]
    simp only [EStateM.run_bind, EStateM.run_modify]

/-- The middle of a pass: the rest of the block was copied, so the cursor is at
the start of the next block, which exists when there is more to copy. -/
theorem Aligned.shift_cross (h : Aligned b s) (hb : 1 ≤ b) {k : Nat}
    (hfull : s.position % b + k = b) (hroom : s.position + k < s.capacity) :
    (advance.run { s with position := s.position + k } = .ok () (shift b k s)) ∧
      Aligned b (shift b k s) ∧ (shift b k s).position % b = 0 ∧
      ∃ node, (deref (shift b k s).cur).run (shift b k s) = .ok node (shift b k s) ∧
        node.size = b := by
  have hlt : s.position < s.capacity := by omega
  have hnext := h.next_boundary hb hlt hfull
  have hal : Aligned b (shift b k s) := h.shifted (by omega)
  obtain ⟨node, hderef, hsize, -⟩ := hal.run_deref_cur hroom
  refine ⟨?_, hal, ?_, node, hderef, hsize⟩
  · simp only [advance, EStateM.run_bind, EStateM.run_get, EStateM.run_modify, h.cur_eq hlt,
      run_next_some, hnext, shift]
  · rw [shift, (div_of_boundary hb hfull).2, Nat.mul_mod_right]

theorem Aligned.run_writeLoop (hb : 1 ≤ b) (fuel : Nat) (buf : List UInt8)
    (s : ByteArray) (h : Aligned b s) (hfuel : buf.length ≤ fuel)
    (hroom : s.position + buf.length ≤ s.capacity) :
    ∃ s', (writeLoop fuel buf (s.position % b) (b - s.position % b)).run s = .ok () s' ∧
      Aligned b s' ∧ s'.memory = overwrite s.memory s.position buf ∧
      s'.position = s.position + buf.length ∧ s'.size = s.size ∧
      s'.capacity = s.capacity ∧ s'.endian = s.endian := by
  induction fuel generalizing buf s with
  | zero =>
    obtain rfl : buf = [] := List.eq_nil_of_length_eq_zero (by omega)
    exact ⟨s, rfl, h, by simp, by simp, rfl, rfl, rfl⟩
  | succ fuel ih =>
    cases buf with
    | nil => exact ⟨s, rfl, h, by simp, by simp, rfl, rfl, rfl⟩
    | cons x xs =>
      have hlen : (x :: xs).length = xs.length + 1 := rfl
      have hlt : s.position < s.capacity := by omega
      have hmod : s.position % b < b := Nat.mod_lt _ (by omega)
      rw [writeLoop]
      by_cases hlast : b - s.position % b ≥ (x :: xs).length
      · obtain ⟨nodes, hstore, hal, hmem⟩ := h.run_storeCur hlt (x :: xs) (by omega)
        obtain ⟨node, hderef, hsize, -⟩ := hal.run_deref_cur hlt
        refine ⟨shift b (x :: xs).length { s with nodes := nodes }, ?_,
          hal.shifted hroom, hmem, rfl, rfl, rfl, rfl⟩
        have hfinish := hal.run_finish hb hlt (k := (x :: xs).length) (by simp; omega)
          hsize (pure ())
        simp only [EStateM.run_bind, EStateM.run_get, if_pos hlast, hstore]
        simp only [hderef]
        exact hfinish
      · obtain ⟨k, hk⟩ : ∃ k, k = b - s.position % b := ⟨_, rfl⟩
        rw [← hk] at hlast ⊢
        have htake : ((x :: xs).take k).length = k := by
          rw [List.length_take]
          omega
        obtain ⟨nodes, hstore, hal, hmem⟩ := h.run_storeCur hlt ((x :: xs).take k) (by omega)
        obtain ⟨hadv, hal', hzero, node, hderef, hsize⟩ :=
          hal.shift_cross hb (k := k) (by simp; omega) (by simp; omega)
        obtain ⟨s', hrun, hal'', hmem'', hpos, hsz, hcap, hend⟩ :=
          ih ((x :: xs).drop k) _ hal' (by simp; omega)
            (by simp only [shift, List.length_drop]; omega)
        refine ⟨s', ?_, hal'', ?_, ?_, hsz, hcap, hend⟩
        · rw [hzero, Nat.sub_zero] at hrun
          simp only [EStateM.run_bind, EStateM.run_get, if_neg hlast, hstore,
            EStateM.run_modify, hadv, hderef, hsize, hrun]
        · have hroom' : s.position ≤ s.memory.length := by
            rw [h.length_memory]
            omega
          have hsplit := overwrite_append s.memory s.position ((x :: xs).take k)
            ((x :: xs).drop k) hroom'
          rw [List.take_append_drop, htake, ← hmem] at hsplit
          exact hmem''.trans hsplit
        · rw [hpos, List.length_drop]
          simp only [shift]
          omega

theorem Aligned.run_readLoop (hb : 1 ≤ b) (fuel n : Nat) (s : ByteArray)
    (h : Aligned b s) (hfuel : n ≤ fuel) (hroom : s.position + n ≤ s.capacity)
    (hn : 1 ≤ n) :
    (readLoop fuel n (s.position % b) (b - s.position % b)).run s =
      .ok ((s.memory.drop s.position).take n) (shift b n s) := by
  induction fuel generalizing n s with
  | zero => omega
  | succ fuel ih =>
    obtain ⟨m, rfl⟩ : ∃ m, n = m + 1 := ⟨n - 1, by omega⟩
    have hlt : s.position < s.capacity := by omega
    have hmod : s.position % b < b := Nat.mod_lt _ (by omega)
    rw [readLoop]
    by_cases hlast : b - s.position % b ≥ m + 1
    · have hload := h.run_loadCur hlt (m + 1) (by omega)
      obtain ⟨node, hderef, hsize, -⟩ := h.run_deref_cur hlt
      have hfinish := h.run_finish hb hlt (k := m + 1) (by omega) hsize
        (pure ((s.memory.drop s.position).take (m + 1)))
      simp only [EStateM.run_bind, EStateM.run_get, if_pos hlast, hload, hderef]
      exact hfinish
    · obtain ⟨k, hk⟩ : ∃ k, k = b - s.position % b := ⟨_, rfl⟩
      rw [← hk] at hlast ⊢
      have hload := h.run_loadCur hlt k (by omega)
      obtain ⟨hadv, hal, hzero, node, hderef, hsize⟩ :=
        h.shift_cross hb (k := k) (by omega) (by omega)
      have hrest := ih (m + 1 - k) _ hal (by omega) (by simp only [shift]; omega) (by omega)
      rw [hzero, Nat.sub_zero] at hrest
      simp only [EStateM.run_bind, EStateM.run_get, if_neg hlast, hload, EStateM.run_modify,
        hadv, hderef, hsize, hrest, EStateM.run_pure]
      have hpos : s.position + k + (m + 1 - k) = s.position + (m + 1) := by omega
      have hbytes : (s.memory.drop s.position).take k ++
          (s.memory.drop (s.position + k)).take (m + 1 - k) =
            (s.memory.drop s.position).take (m + 1) := by
        rw [← List.drop_drop, ← List.take_add, show k + (m + 1 - k) = m + 1 by omega]
      simp only [shift, hpos]
      exact congrArg (fun out => EStateM.Result.ok out _) hbytes

theorem run_growLoop (heap : Heap) (count : Nat) (s : ByteArray) :
    ∃ pad : List Node, pad.length = count ∧ (∀ node ∈ pad, node.size = s.baseSize) ∧
      (growLoop heap count).run s = .ok () { s with
        nodes := s.nodes ++ pad
        capacity := s.capacity + s.baseSize * count
        allocated := s.allocated + count } := by
  induction count generalizing s with
  | zero => exact ⟨[], rfl, by simp, by simp [growLoop]⟩
  | succ count ih =>
    obtain ⟨pad, hlen, hsize, hrun⟩ := ih { s with
      nodes := s.nodes ++ [Node.alloc heap s.allocated s.baseSize]
      capacity := s.capacity + s.baseSize
      allocated := s.allocated + 1 }
    refine ⟨Node.alloc heap s.allocated s.baseSize :: pad, by simp [hlen], ?_, ?_⟩
    · intro node hnode
      rcases List.mem_cons.mp hnode with rfl | hnode
      · rfl
      · exact hsize node hnode
    · simp only [growLoop, EStateM.run_bind, EStateM.run_modify, hrun]
      rw [List.append_assoc, List.singleton_append, Nat.add_assoc, Nat.add_assoc,
        Nat.mul_add, Nat.mul_one, Nat.add_comm s.baseSize, Nat.add_comm 1 count]

def missing (b : Nat) (s : ByteArray) (n : Nat) : Nat :=
  (n - (s.capacity - s.position) + b - 1) / b

theorem missing_room (hb : 1 ≤ b) (s : ByteArray) (n : Nat) :
    n ≤ s.capacity - s.position + b * missing b s n := by
  have hdiv := Nat.div_add_mod (n - (s.capacity - s.position) + b - 1) b
  have hmod := Nat.mod_lt (n - (s.capacity - s.position) + b - 1) (by omega : b > 0)
  unfold missing
  omega

theorem missing_eq_zero (hb : 1 ≤ b) {n : Nat} (hn : n ≤ s.capacity - s.position) :
    missing b s n = 0 := by
  unfold missing
  rw [Nat.sub_eq_zero_of_le hn]
  exact Nat.div_eq_of_lt (by omega)

theorem Aligned.grow (h : Aligned b s) (hb : 1 ≤ b) (pad : List Node) (allocated : Nat)
    (hpad : ∀ node ∈ pad, node.size = b) (hne : pad ≠ []) :
    Aligned b { s with
      nodes := s.nodes ++ pad
      capacity := s.capacity + b * pad.length
      allocated := allocated
      cur := if s.getCapacity = 0 then some s.nodes.length else s.cur } := by
  have hle := h.position_le_capacity
  have hpos : 0 < b * pad.length := Nat.mul_pos (by omega) (List.length_pos_iff.mpr hne)
  refine ⟨h.baseSize, ?_, by simp [h.root], ?_, ?_, ?_⟩
  · intro node hnode
    rcases List.mem_append.mp hnode with hnode | hnode
    · exact h.node_size node hnode
    · exact hpad node hnode
  · simp only [List.length_append, Nat.mul_add, h.capacity]
  · exact Nat.le_add_right_of_le hle
  · simp only
    rw [if_neg (by omega : ¬ s.position = s.capacity + b * pad.length)]
    by_cases hfull : s.getCapacity = 0
    · have heq : s.position = b * s.nodes.length := by
        rw [← h.capacity]
        unfold getCapacity at hfull
        omega
      rw [if_pos hfull, heq, Nat.mul_div_cancel_left _ (by omega)]
    · rw [if_neg hfull, h.cur_eq (by unfold getCapacity at hfull; omega)]

theorem Aligned.run_addCapacity (h : Aligned b s) (hb : 1 ≤ b) (heap : Heap) (n : Nat) :
    ∃ s', (addCapacity heap n).run s = .ok () s' ∧ Aligned b s' ∧
      (∃ pad : List UInt8, s'.memory = s.memory ++ pad ∧
        pad.length = b * missing b s n) ∧
      s'.position = s.position ∧ s'.size = s.size ∧ s'.endian = s.endian ∧
      s'.capacity = s.capacity + b * missing b s n := by
  by_cases hroom : n ≤ s.getCapacity
  · have hzero : missing b s n = 0 := missing_eq_zero hb hroom
    refine ⟨s, ?_, h, ⟨[], by simp, by simp [hzero]⟩, rfl, rfl, rfl, by simp [hzero]⟩
    unfold addCapacity
    by_cases hn : n = 0
    · rw [if_pos hn]
      rfl
    · simp only [if_neg hn, EStateM.run_bind, EStateM.run_get, if_pos hroom, EStateM.run_pure]
  · have hcount : (n - s.getCapacity + s.baseSize - 1) / s.baseSize = missing b s n := by
      rw [h.baseSize]
      rfl
    have hmissing : missing b s n ≠ 0 := by
      have := missing_room hb s n
      intro hzero
      rw [hzero] at this
      unfold getCapacity at hroom
      omega
    obtain ⟨pad, hlen, hsize, hrun⟩ := run_growLoop heap (missing b s n) s
    rw [h.baseSize] at hsize hrun
    have hne : pad ≠ [] := by
      intro hnil
      exact hmissing (by rw [← hlen, hnil]; rfl)
    have hal := h.grow hb pad (s.allocated + missing b s n) hsize hne
    refine ⟨_, ?_, hal, ⟨(pad.map Node.ptr).flatten, ?_, ?_⟩, rfl, rfl, rfl, by rw [hlen]⟩
    · unfold addCapacity
      simp only [if_neg (by omega : ¬ n = 0), EStateM.run_bind, EStateM.run_get,
        if_neg hroom, hcount, if_neg hmissing, hrun, ge_iff_le]
      by_cases hfull : s.getCapacity = 0
      · simp only [hfull, if_true, EStateM.run_modify, hlen, h.baseSize]
      · simp only [hfull, if_false, EStateM.run_pure, hlen, h.baseSize]
    · simp [memory]
    · rw [length_flatten_blocks (b := b), List.length_map, hlen]
      intro blk hblk
      obtain ⟨node, hnode, rfl⟩ := List.mem_map.mp hblk
      rw [node.length_ptr, hsize node hnode]

/-- The loop of `setPosition`, from node `i`: it passes `j` whole blocks and
stops with at least one byte left, so a cursor on a block boundary is first
found at the end of the block before it. -/
theorem run_seekLoop (hnode : ∀ node ∈ s.nodes, node.size = b) (fuel i v : Nat)
    (hfuel : v < fuel) (hb : 1 ≤ b) (hi : i < s.nodes.length)
    (hroom : b * i + v ≤ b * s.nodes.length) :
    ∃ j, (seekLoop fuel v).run { s with cur := some i } =
        .ok (v - b * j) { s with cur := some (i + j) } ∧
      i + j < s.nodes.length ∧ b * j ≤ v ∧ v - b * j ≤ b ∧ (0 < v → 0 < v - b * j) := by
  induction fuel generalizing i v with
  | zero => omega
  | succ fuel ih =>
    have hget : s.nodes[i]? = some s.nodes[i] := List.getElem?_eq_getElem hi
    have hsize : s.nodes[i].size = b := hnode _ (List.getElem_mem hi)
    rw [seekLoop]
    by_cases hgt : v > b
    · have hi' : i + 1 < s.nodes.length := by
        apply Nat.lt_of_mul_lt_mul_left (a := b)
        rw [Nat.mul_add, Nat.mul_one]
        omega
      obtain ⟨j, hrun, hj, hle, hrest, hpos⟩ := ih (i + 1) (v - b) (by omega) hi'
        (by rw [Nat.mul_add, Nat.mul_one]; omega)
      refine ⟨j + 1, ?_, by omega, ?_, ?_, ?_⟩
      · have hderef := run_deref_some (s := { s with cur := some i }) hget
        simp only [EStateM.run_bind, EStateM.run_get, hderef, hsize, if_pos hgt, advance,
          run_next_some, if_pos hi', EStateM.run_modify, hrun]
        rw [Nat.mul_add, Nat.mul_one, Nat.sub_sub, Nat.add_comm b, Nat.add_assoc,
          Nat.add_comm 1 j]
      · rw [Nat.mul_add, Nat.mul_one]
        omega
      · rw [Nat.mul_add, Nat.mul_one]
        omega
      · intro _
        have := hpos (by omega)
        rw [Nat.mul_add, Nat.mul_one]
        omega
    · refine ⟨0, ?_, by omega, by omega, by omega, by omega⟩
      have hderef := run_deref_some (s := { s with cur := some i }) hget
      simp only [EStateM.run_bind, EStateM.run_get, hderef, hsize, if_neg hgt,
        EStateM.run_pure, Nat.mul_zero, Nat.sub_zero, Nat.add_zero]

def Iovec.bytes (s : ByteArray) (v : Iovec) : List UInt8 :=
  ((s.nodes[v.node]?.elim [] Node.ptr).drop v.off).take v.len

/-- Nonempty iovecs in consecutive nodes from node `i` on, each inside its node. -/
structure Cuts (s : ByteArray) (i : Nat) (iovs : List Iovec) : Prop where
  nodes : iovs.map Iovec.node = List.range' i iovs.length
  len_pos : ∀ v ∈ iovs, 0 < v.len
  inside : ∀ v ∈ iovs, ∃ node, s.nodes[v.node]? = some node ∧ v.off + v.len ≤ node.size

theorem Cuts.nil (s : ByteArray) (i : Nat) : Cuts s i [] := ⟨rfl, by simp, by simp⟩

theorem Cuts.cons {i off len : Nat} {iovs : List Iovec} {node : Node}
    (hnode : s.nodes[i]? = some node) (hlen : 0 < len) (hfit : off + len ≤ node.size)
    (h : Cuts s (i + 1) iovs) : Cuts s i (⟨i, off, len⟩ :: iovs) where
  nodes := by
    rw [List.map_cons, h.nodes, List.length_cons, List.range'_succ]
  len_pos := by
    rw [List.forall_mem_cons]
    exact ⟨hlen, h.len_pos⟩
  inside := by
    rw [List.forall_mem_cons]
    exact ⟨⟨node, hnode, hfit⟩, h.inside⟩

theorem Aligned.bytes_eq (h : Aligned b s) {i off len : Nat} (hi : i < s.nodes.length)
    (hfit : off + len ≤ b) :
    Iovec.bytes s ⟨i, off, len⟩ = (s.memory.drop (b * i + off)).take len := by
  have hblock := take_drop_block h.ptr_length i off len (by simpa using hi) hfit
  rw [List.getElem_map] at hblock
  rw [Iovec.bytes, List.getElem?_eq_getElem hi]
  exact hblock

theorem take_across (mem : List UInt8) {i npos len : Nat} (hnpos : npos ≤ b)
    (hlen : b - npos ≤ len) :
    (mem.drop (b * i + npos)).take (b - npos) ++
        (mem.drop (b * (i + 1) + 0)).take (len - (b - npos)) =
      (mem.drop (b * i + npos)).take len := by
  have hstart : b * (i + 1) + 0 = b * i + npos + (b - npos) := by
    rw [Nat.mul_add, Nat.mul_one]
    omega
  have hdrop : mem.drop (b * i + npos + (b - npos)) = (mem.drop (b * i + npos)).drop (b - npos) :=
    List.drop_drop.symm
  rw [hstart, hdrop, ← List.take_add, Nat.add_sub_cancel' hlen]

theorem next_block {i npos len : Nat} (hlen : b - npos < len)
    (hroom : b * i + npos + len ≤ b * s.nodes.length) : i + 1 < s.nodes.length := by
  apply Nat.lt_of_mul_lt_mul_left (a := b)
  rw [Nat.mul_add, Nat.mul_one]
  omega

/-- The offsets in the flat memory of the bytes an iovec points to. -/
def Iovec.offsets (b : Nat) (v : Iovec) : List Nat := List.range' (b * v.node + v.off) v.len

theorem range_across {i npos len : Nat} (hnpos : npos ≤ b) (hlen : b - npos ≤ len) :
    List.range' (b * i + npos) (b - npos) ++ List.range' (b * (i + 1) + 0) (len - (b - npos)) =
      List.range' (b * i + npos) len := by
  have hstart : b * (i + 1) + 0 = b * i + npos + 1 * (b - npos) := by
    rw [Nat.mul_add, Nat.mul_one]
    omega
  rw [hstart, List.range'_append, Nat.add_sub_cancel' hlen]

/-- The iovecs cut from a node pointer cover the `len` bytes after it and change nothing. -/
theorem run_iovLoop (h : Aligned b s) (hb : 1 ≤ b) (fuel i npos len : Nat)
    (hfuel : len ≤ fuel) (hnpos : npos < b) (hi : i < s.nodes.length)
    (hroom : b * i + npos + len ≤ b * s.nodes.length) :
    ∃ iovs, (iovLoop fuel (some i) npos (b - npos) len).run s = .ok iovs s ∧ Cuts s i iovs ∧
      iovs.flatMap (Iovec.bytes s) = (s.memory.drop (b * i + npos)).take len ∧
      iovs.flatMap (Iovec.offsets b) = List.range' (b * i + npos) len := by
  induction fuel generalizing i npos len with
  | zero =>
    obtain rfl : len = 0 := by omega
    exact ⟨[], rfl, Cuts.nil s i, by simp, rfl⟩
  | succ fuel ih =>
    cases len with
    | zero => exact ⟨[], rfl, Cuts.nil s i, by simp, rfl⟩
    | succ len =>
      have hget : s.nodes[i]? = some s.nodes[i] := List.getElem?_eq_getElem hi
      have hnode : s.nodes[i].size = b := h.node_size _ (List.getElem_mem hi)
      have hderef : (deref (some i)).run s = .ok s.nodes[i] s := run_deref_some hget
      rw [iovLoop]
      by_cases hlast : b - npos ≥ len + 1
      · refine ⟨[⟨i, npos, len + 1⟩], ?_, ?_, ?_, List.flatMap_singleton _ _⟩
        · simp only [EStateM.run_bind, hderef, if_pos hlast, EStateM.run_pure, Option.getD_some]
        · exact Cuts.cons hget (Nat.succ_pos _) (by omega) (Cuts.nil s _)
        · rw [List.flatMap_singleton, h.bytes_eq hi (by omega)]
      · have hi' : i + 1 < s.nodes.length := next_block (by omega) hroom
        have hderef' : (deref (some (i + 1))).run s = .ok s.nodes[i + 1] s :=
          run_deref_some (List.getElem?_eq_getElem hi')
        have hsize : s.nodes[i + 1].size = b := h.node_size _ (List.getElem_mem hi')
        obtain ⟨iovs, hrun, hcuts, hbytes, hoffs⟩ := ih (i + 1) 0 (len + 1 - (b - npos)) (by omega)
          (by omega) hi' (by rw [Nat.mul_add, Nat.mul_one]; omega)
        rw [Nat.sub_zero] at hrun
        refine ⟨⟨i, npos, b - npos⟩ :: iovs, ?_, ?_, ?_, ?_⟩
        · simp only [EStateM.run_bind, hderef, if_neg hlast, run_next_some, if_pos hi',
            hderef', hsize, hrun, EStateM.run_pure, Option.getD_some]
        · exact hcuts.cons hget (by omega) (by omega)
        · rw [List.flatMap_cons, hbytes, h.bytes_eq hi (by omega),
            take_across s.memory (by omega) (by omega)]
        · rw [List.flatMap_cons, hoffs]
          exact range_across (Nat.le_of_lt hnpos) (Nat.le_of_lt (Nat.not_le.mp hlast))

theorem run_peekLoop (h : Aligned b s) (hb : 1 ≤ b) (fuel i npos len : Nat)
    (hfuel : len ≤ fuel) (hnpos : npos < b) (hi : i < s.nodes.length)
    (hroom : b * i + npos + len ≤ b * s.nodes.length) :
    (peekLoop fuel (some i) npos (b - npos) len).run s =
      .ok ((s.memory.drop (b * i + npos)).take len) s := by
  have hload (i npos n : Nat) (hi : i < s.nodes.length) (hfit : npos + n ≤ b) :
      (load (some i) npos n).run s = .ok ((s.memory.drop (b * i + npos)).take n) s := by
    have hget : s.nodes[i]? = some s.nodes[i] := List.getElem?_eq_getElem hi
    have hnode : s.nodes[i].size = b := h.node_size _ (List.getElem_mem hi)
    simp only [load, EStateM.run_bind, run_deref_some hget, hnode, if_pos hfit, EStateM.run_pure]
    rw [← h.bytes_eq hi hfit, Iovec.bytes, hget]
    rfl
  induction fuel generalizing i npos len with
  | zero =>
    obtain rfl : len = 0 := by omega
    simp only [peekLoop, EStateM.run_pure, List.take_zero]
  | succ fuel ih =>
    cases len with
    | zero => simp only [peekLoop, EStateM.run_pure, List.take_zero]
    | succ len =>
      rw [peekLoop]
      by_cases hlast : b - npos ≥ len + 1
      · rw [if_pos hlast]
        exact hload i npos (len + 1) hi (by omega)
      · have hi' : i + 1 < s.nodes.length := next_block (by omega) hroom
        have hderef' : (deref (some (i + 1))).run s = .ok s.nodes[i + 1] s :=
          run_deref_some (List.getElem?_eq_getElem hi')
        have hsize : s.nodes[i + 1].size = b := h.node_size _ (List.getElem_mem hi')
        have hrest := ih (i + 1) 0 (len + 1 - (b - npos)) (by omega) (by omega) hi'
          (by rw [Nat.mul_add, Nat.mul_one]; omega)
        rw [Nat.sub_zero] at hrest
        simp only [if_neg hlast, EStateM.run_bind, hload i npos (b - npos) hi (by omega),
          run_next_some, if_pos hi', hderef', hsize, hrest, EStateM.run_pure]
        rw [take_across s.memory (by omega) (by omega)]

end Sylar.ByteArray
