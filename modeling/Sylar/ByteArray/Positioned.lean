import Sylar.ByteArray.Buffers

/-! The two reads at a position of the caller's choice. The `const` overload of `read` starts
in the node of the cursor, and the `getReadBuffers` with a position cuts the length to what is
left after the cursor; both are compared with the stored bytes at that position. -/
namespace Sylar.ByteArray

open Lib.Blocks

variable {b : Nat} {s : ByteArray}

/-- The loop `while (count > 0)` over `cur = cur->next`. -/
def hop : Nat → Option Nat → M (Option Nat)
  | 0, cur => pure cur
  | count + 1, cur => do
    let cur ← next cur
    hop count cur

def getReadBuffersAt (buffers : List Iovec) (len position : Nat) : M (Nat × List Iovec) := do
  let s ← get
  let len := if len > s.getReadSize then s.getReadSize else len
  if len = 0 then
    pure (0, buffers)
  else
    let npos := position % s.baseSize
    let cur ← hop (position / s.baseSize) (some 0)
    let node ← deref cur
    let iovs ← iovLoop len cur npos (node.size - npos) len
    pure (len, buffers ++ iovs)

theorem run_hop (count i : Nat) (hi : i + count < s.nodes.length) :
    (hop count (some i)).run s = .ok (some (i + count)) s := by
  induction count generalizing i with
  | zero => rfl
  | succ count ih =>
    rw [hop, EStateM.run_bind, run_next_some, if_pos (by omega)]
    simp only [ih (i + 1) (by omega)]
    rw [Nat.add_assoc, Nat.add_comm 1]

theorem getReadBuffersAt_count {buffers iovs : List Iovec} {len p n : Nat} {s' : ByteArray}
    (hrun : (getReadBuffersAt buffers len p).run s = .ok (n, iovs) s') :
    n = min len s.getReadSize := by
  have hclip : (if len > s.getReadSize then s.getReadSize else len) = min len s.getReadSize := by
    split <;> omega
  simp only [getReadBuffersAt, EStateM.run_bind, EStateM.run_get, hclip] at hrun
  by_cases hzero : min len s.getReadSize = 0
  · rw [if_pos hzero] at hrun
    cases hrun
    exact hzero.symm
  · rw [if_neg hzero, EStateM.run_bind] at hrun
    split at hrun
    · rw [EStateM.run_bind] at hrun
      split at hrun
      · rw [EStateM.run_bind] at hrun
        split at hrun
        · cases hrun
          rfl
        · cases hrun
      · cases hrun
    · cases hrun

/-- The call returns the number of bytes from `p` on that it was asked for and that are
there, and appends iovecs over exactly these bytes, all inside their nodes. -/
def ShowsAt (s : ByteArray) (buffers : List Iovec) (len p : Nat) : Prop :=
  ∃ iovs, (getReadBuffersAt buffers len p).run s =
      .ok (min len (s.size - p), buffers ++ iovs) s ∧
    iovs.flatMap (Iovec.bytes s) = (s.stored.drop p).take (min len (s.size - p)) ∧
    ∀ v ∈ iovs, ∃ node, s.nodes[v.node]? = some node ∧ v.off + v.len ≤ node.size

theorem take_stored {p n : Nat} (hn : n ≤ s.size - p) :
    (s.stored.drop p).take n = (s.memory.drop p).take n := by
  rw [stored, List.drop_take, List.take_take, Nat.min_eq_left hn]

theorem WellFormed.showsAt (h : WellFormed b s) (hb : 1 ≤ b) (buffers : List Iovec) {len p : Nat}
    (hclip : min len s.getReadSize = min len (s.size - p)) : ShowsAt s buffers len p := by
  obtain ⟨n, hn⟩ : ∃ n, n = min len (s.size - p) := ⟨_, rfl⟩
  have hlen : (if len > s.getReadSize then s.getReadSize else len) = n := by
    rw [hn, ← hclip]
    split <;> omega
  unfold ShowsAt
  rw [← hn]
  by_cases hzero : n = 0
  · refine ⟨[], ?_, by simp [hzero], by simp⟩
    simp only [getReadBuffersAt, EStateM.run_bind, EStateM.run_get, hlen, if_pos hzero,
      EStateM.run_pure, List.append_nil]
    rw [hzero]
  · have hsize := h.size_le
    have hi : p / b < s.nodes.length :=
      Nat.div_lt_of_lt_mul (by rw [← h.capacity]; omega)
    have hget : s.nodes[p / b]? = some s.nodes[p / b] := List.getElem?_eq_getElem hi
    have hnode : s.nodes[p / b].size = b := h.node_size _ (List.getElem_mem hi)
    have hhop := run_hop (s := s) (p / b) 0 (by omega)
    rw [Nat.zero_add] at hhop
    obtain ⟨iovs, hrun, hcuts, hbytes, -⟩ := run_iovLoop h.toAligned hb n (p / b) (p % b) n
      (Nat.le_refl n) (Nat.mod_lt _ hb) hi (by rw [Nat.div_add_mod, ← h.capacity]; omega)
    refine ⟨iovs, ?_, ?_, hcuts.inside⟩
    · simp only [getReadBuffersAt, EStateM.run_bind, EStateM.run_get, hlen, if_neg hzero,
        h.baseSize, hhop, run_deref_some hget, hnode, hrun, EStateM.run_pure]
    · rw [hbytes, Nat.div_add_mod, take_stored (by omega)]

/-- `getReadBuffers` at a position shows what is stored there if and only if the two ways
to cut the length agree: what is left after the cursor, and what is left after `p`. -/
theorem runCalls_showsAt (heap : Heap) (host : Endian) (b : Nat) (hb : 1 ≤ b)
    (calls : List Call) (s : ByteArray)
    (hreach : runCalls heap host calls (fresh heap b) = .ok s) (buffers : List Iovec)
    (len p : Nat) :
    ShowsAt s buffers len p ↔ min len s.getReadSize = min len (s.size - p) := by
  have h := (wellFormed_fresh heap hb).of_runCalls hb heap host calls hreach
  constructor
  · rintro ⟨iovs, hrun, -, -⟩
    exact (getReadBuffersAt_count hrun).symm
  · exact h.showsAt hb buffers

theorem runCalls_showsAt_blocks :
    ∃ s, runCalls (fun _ _ => 0) .little [.op (.write [1, 2, 3, 4, 5]), .op (.setPosition 1)]
        (fresh (fun _ _ => 0) 2) = .ok s ∧
      (ShowsAt s [] 2 3 ↔ min 2 s.getReadSize = min 2 (s.size - 3)) :=
  ⟨_, rfl, runCalls_showsAt (fun _ _ => 0) .little 2 (by decide)
    [.op (.write [1, 2, 3, 4, 5]), .op (.setPosition 1)] _ rfl [] 2 3⟩

/-- With the cursor at the end of the data nothing is shown, also from position 0. -/
theorem getReadBuffersAt_after_write :
    ∃ s, runCalls (fun _ _ => 0) .little [.op (.write [1, 2, 3])] (fresh (fun _ _ => 0) 2) =
        .ok s ∧ s.stored = [1, 2, 3] ∧ (getReadBuffersAt [] 3 0).run s = .ok (0, []) s ∧
      ¬ ShowsAt s [] 3 0 := by
  refine ⟨_, rfl, rfl, rfl, ?_⟩
  rintro ⟨iovs, hrun, -, -⟩
  cases hrun

/-- Where the `const` overload of `read` copies from: the offset that `p` has in its own
block, taken in the block of the cursor. -/
def copyStart (b : Nat) (s : ByteArray) (p : Nat) : Nat := b * (s.position / b) + p % b

theorem copyStart_of_same_block {p : Nat} (h : p / b = s.position / b) : copyStart b s p = p := by
  rw [copyStart, ← h, Nat.div_add_mod]

theorem Aligned.copyStart_lt (h : Aligned b s) (hb : 1 ≤ b) (hlt : s.position < s.capacity)
    (p : Nat) : copyStart b s p < s.capacity := by
  have hi : s.position / b < s.nodes.length :=
    Nat.div_lt_of_lt_mul (by rw [← h.capacity]; exact hlt)
  have hblock : b * (s.position / b + 1) ≤ b * s.nodes.length := Nat.mul_le_mul_left b hi
  have hmod : p % b < b := Nat.mod_lt _ hb
  rw [Nat.mul_add, Nat.mul_one] at hblock
  rw [copyStart, h.capacity]
  omega

theorem run_peekLoop_past (h : Aligned b s) (fuel i npos len : Nat)
    (hfuel : len ≤ fuel) (hnpos : npos < b) (hi : i < s.nodes.length)
    (hpast : b * s.nodes.length < b * i + npos + len) :
    (peekLoop fuel (some i) npos (b - npos) len).run s = .error .nullNode s := by
  induction fuel generalizing i npos len with
  | zero =>
    have hblock : b * (i + 1) ≤ b * s.nodes.length := Nat.mul_le_mul_left b hi
    rw [Nat.mul_add, Nat.mul_one] at hblock
    omega
  | succ fuel ih =>
    have hblock : b * (i + 1) ≤ b * s.nodes.length := Nat.mul_le_mul_left b hi
    rw [Nat.mul_add, Nat.mul_one] at hblock
    have hget : s.nodes[i]? = some s.nodes[i] := List.getElem?_eq_getElem hi
    have hnode : s.nodes[i].size = b := h.node_size _ (List.getElem_mem hi)
    have hfit : npos + (b - npos) ≤ b := by omega
    cases len with
    | zero => omega
    | succ len =>
      rw [peekLoop, if_neg (by omega)]
      simp only [load, EStateM.run_bind, run_deref_some hget, hnode, if_pos hfit, EStateM.run_pure,
        run_next_some]
      by_cases hi' : i + 1 < s.nodes.length
      · have hget' : s.nodes[i + 1]? = some s.nodes[i + 1] := List.getElem?_eq_getElem hi'
        have hnode' : s.nodes[i + 1].size = b := h.node_size _ (List.getElem_mem hi')
        have hrest := ih (i + 1) 0 (len + 1 - (b - npos)) (by omega) (by omega) hi'
          (by rw [Nat.mul_add, Nat.mul_one]; omega)
        rw [Nat.sub_zero] at hrest
        simp only [if_pos hi', run_deref_some hget', hnode', hrest]
      · rw [if_neg hi']
        rfl

theorem Aligned.run_copy (h : Aligned b s) (hb : 1 ≤ b) (hlt : s.position < s.capacity)
    (n p : Nat) :
    (peekLoop n s.cur (p % b) (b - p % b) n).run s =
      if copyStart b s p + n ≤ s.capacity then
        .ok ((s.memory.drop (copyStart b s p)).take n) s
      else .error .nullNode s := by
  have hi : s.position / b < s.nodes.length :=
    Nat.div_lt_of_lt_mul (by rw [← h.capacity]; exact hlt)
  have hmod : p % b < b := Nat.mod_lt _ hb
  rw [h.cur_eq hlt, h.capacity]
  unfold copyStart
  by_cases hroom : b * (s.position / b) + p % b + n ≤ b * s.nodes.length
  · rw [if_pos hroom]
    exact run_peekLoop h hb n _ _ n (Nat.le_refl n) hmod hi hroom
  · rw [if_neg hroom]
    exact run_peekLoop_past h n _ _ n (Nat.le_refl n) hmod hi (Nat.not_le.mp hroom)

/-- The contract of the `const` overload of `read`: it throws when the bytes from `p` on are
too few, returns them otherwise, and leaves the object alone. -/
def ReadsAt (s : ByteArray) (n p : Nat) : Prop :=
  if p > s.size ∨ n > s.size - p then
    ∃ what, (readAt n p).run s = .error (.outOfRange what) s
  else
    (readAt n p).run s = .ok ((s.stored.drop p).take n) s

section ReadAt

variable {n p : Nat}

theorem run_readAt_short (hp : p ≤ s.size) (hn : n > s.size - p) :
    (readAt n p).run s = .error (.outOfRange "not enough len") s := by
  simp only [readAt, EStateM.run_bind, EStateM.run_get, if_pos hp, if_pos hn]
  rfl

/-- `m_size - position` wraps around for a position behind the data. -/
theorem run_readAt_wrapped (hp : p > s.size) (hn : n > 2 ^ 64 - (p - s.size)) :
    (readAt n p).run s = .error (.outOfRange "not enough len") s := by
  simp only [readAt, EStateM.run_bind, EStateM.run_get, if_neg (Nat.not_le.mpr hp), if_pos hn]
  rfl

theorem Aligned.run_readAt (h : Aligned b s) (hb : 1 ≤ b)
    (hn : ¬ n > if p ≤ s.size then s.size - p else 2 ^ 64 - (p - s.size)) :
    (readAt n p).run s =
      if s.position < s.capacity ∧ copyStart b s p + n ≤ s.capacity then
        .ok ((s.memory.drop (copyStart b s p)).take n) s
      else .error .nullNode s := by
  simp only [readAt, EStateM.run_bind, EStateM.run_get, if_neg hn, h.baseSize]
  by_cases hlt : s.position < s.capacity
  · obtain ⟨node, hderef, hnode, -⟩ := h.run_deref_cur hlt
    simp only [hderef, hnode, h.run_copy hb hlt n p, hlt, true_and]
  · have hle := h.position_le_capacity
    have hcur : s.cur = none := by rw [h.cur, if_pos (by omega)]
    rw [hcur, if_neg (by omega)]
    rfl

end ReadAt

/-- The `const` overload meets its contract if and only if it throws for a reason of the
contract, or `copyStart` has the same bytes as `p` and the cursor is not at the end of the
capacity. With `p` in the block of the cursor the two are one place. -/
theorem runCalls_readsAt (heap : Heap) (host : Endian) (b : Nat) (hb : 1 ≤ b)
    (calls : List Call) (s : ByteArray)
    (hreach : runCalls heap host calls (fresh heap b) = .ok s) (n p : Nat) :
    (ReadsAt s n p ↔
      if p ≤ s.size then
        n > s.size - p ∨ s.position < s.capacity ∧
          (s.memory.drop (copyStart b s p)).take n = (s.memory.drop p).take n
      else n > 2 ^ 64 - (p - s.size)) ∧
    (p / b = s.position / b → copyStart b s p = p) := by
  have h := (wellFormed_fresh heap hb).of_runCalls hb heap host calls hreach
  refine ⟨?_, copyStart_of_same_block⟩
  unfold ReadsAt
  by_cases hp : p ≤ s.size
  · rw [if_pos hp]
    by_cases hn : n > s.size - p
    · rw [if_pos (.inr hn)]
      exact iff_of_true ⟨_, run_readAt_short hp hn⟩ (.inl hn)
    · have hrun := h.toAligned.run_readAt (n := n) (p := p) hb (by rw [if_pos hp]; exact hn)
      rw [if_neg (by omega), hrun, take_stored (Nat.not_lt.mp hn)]
      constructor
      · intro heq
        split at heq
        · rename_i hcopy
          exact .inr ⟨hcopy.1, (EStateM.Result.ok.inj heq).1⟩
        · cases heq
      · intro hor
        obtain ⟨hlt, hsame⟩ := hor.resolve_left hn
        have hstart := h.toAligned.copyStart_lt hb hlt p
        have hsize := h.size_le
        have hroom : copyStart b s p + n ≤ s.capacity := by
          have hcount := congrArg List.length hsame
          simp only [List.length_take, List.length_drop, h.toAligned.length_memory] at hcount
          omega
        rw [if_pos ⟨hlt, hroom⟩, hsame]
  · have hpast : p > s.size := Nat.not_le.mp hp
    rw [if_neg hp, if_pos (.inl hpast)]
    by_cases hn : n > 2 ^ 64 - (p - s.size)
    · exact iff_of_true ⟨_, run_readAt_wrapped hpast hn⟩ hn
    · have hrun := h.toAligned.run_readAt (n := n) (p := p) hb (by rw [if_neg hp]; exact hn)
      refine iff_of_false ?_ hn
      rintro ⟨what, hthrow⟩
      rw [hrun] at hthrow
      split at hthrow
      · cases hthrow
      · cases hthrow

theorem runCalls_readsAt_blocks :
    ∃ s, runCalls (fun _ _ => 0) .little [.op (.write [1, 2, 3, 4, 5]), .op (.setPosition 3)]
        (fresh (fun _ _ => 0) 2) = .ok s ∧
      (ReadsAt s 2 2 ↔
        if 2 ≤ s.size then
          2 > s.size - 2 ∨ s.position < s.capacity ∧
            (s.memory.drop (copyStart 2 s 2)).take 2 = (s.memory.drop 2).take 2
        else 2 > 2 ^ 64 - (2 - s.size)) ∧
      (2 / 2 = s.position / 2 → copyStart 2 s 2 = 2) :=
  ⟨_, rfl, runCalls_readsAt (fun _ _ => 0) .little 2 (by decide)
    [.op (.write [1, 2, 3, 4, 5]), .op (.setPosition 3)] _ rfl 2 2⟩

/-- With the cursor in the first block, a read at position 2 returns the byte at 0. -/
theorem readAt_other_block :
    ∃ s, runCalls (fun _ _ => 0) .little [.op (.write [1, 2, 3, 4, 5]), .op (.setPosition 0)]
        (fresh (fun _ _ => 0) 2) = .ok s ∧
      s.stored = [1, 2, 3, 4, 5] ∧ (readAt 1 2).run s = .ok [1] s ∧ ¬ ReadsAt s 1 2 := by
  refine ⟨_, rfl, rfl, rfl, ?_⟩
  intro hreads
  have hbyte : ([1] : List UInt8) = [3] := (EStateM.Result.ok.inj hreads).1
  cases hbyte

end Sylar.ByteArray
