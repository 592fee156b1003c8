import Sylar.ByteArray.Strings

/-! Three views of the bytes left to read: the iovecs of `getReadBuffers`, the text of
`toString` and what `read` returns. They are compared in every state that calls of the
class, and stores through a lent iovec, can reach. -/
namespace Sylar.ByteArray

open Lib.Blocks

/-- A caller stores `src` through an iovec at offset `npos` of node `i`. -/
def fill (i npos : Nat) (src : List UInt8) : M Unit := do
  let node ← deref (some i)
  if h : npos + src.length ≤ node.size then
    modify fun s => { s with nodes := s.nodes.set i (node.store npos src h) }
  else
    throw .overrun

inductive Call where
  | op (o : Op)
  | setLittleEndian (val : Bool)
  | writeScalar (x : Scalar)
  | readScalar (kind : Kind)
  | writeString (code : LengthCode) (value : List UInt8)
  | readString (code : LengthCode)
  | fill (i npos : Nat) (src : List UInt8)

def Call.run (heap : Heap) (host : Endian) : Call → M Unit
  | .op o => do let _ ← o.run heap; pure ()
  | .setLittleEndian val => ByteArray.setLittleEndian val
  | .writeScalar x => x.write heap host
  | .readScalar kind => do let _ ← kind.read host; pure ()
  | .writeString code value => code.writeString heap host value
  | .readString code => do let _ ← code.readString host; pure ()
  | .fill i npos src => ByteArray.fill i npos src

/-- A caller that catches every exception and goes on with the same object.
Undefined behaviour ends the run. -/
def runCalls (heap : Heap) (host : Endian) : List Call → ByteArray → Except Err ByteArray
  | [], s => .ok s
  | call :: calls, s =>
    match (call.run heap host).run s with
    | .ok _ s' => runCalls heap host calls s'
    | .error e s' => if e.isThrown then runCalls heap host calls s' else .error e

variable {α β : Type} {b : Nat} {s s' : ByteArray}

/-- The object is well formed again where the caller can go on: after a return, and after
an exception. -/
structure Preserves (b : Nat) (m : M α) : Prop where
  ok : ∀ s a s', WellFormed b s → m.run s = .ok a s' → WellFormed b s'
  thrown : ∀ s err s', WellFormed b s → err.isThrown = true → m.run s = .error err s' →
    WellFormed b s'

namespace Preserves

theorem of_run {m : M α} (h : ∀ s, WellFormed b s →
    (∃ a s', m.run s = .ok a s' ∧ WellFormed b s') ∨ ∃ err, m.run s = .error err s) :
    Preserves b m where
  ok s a s' hs hrun := by
    rcases h s hs with ⟨a₁, s₁, hrun₁, h₁⟩ | ⟨err, hrun₁⟩
    · rw [hrun₁] at hrun
      cases hrun
      exact h₁
    · rw [hrun₁] at hrun
      cases hrun
  thrown s err s' hs _ hrun := by
    rcases h s hs with ⟨a₁, s₁, hrun₁, h₁⟩ | ⟨err, hrun₁⟩
    · rw [hrun₁] at hrun
      cases hrun
    · rw [hrun₁] at hrun
      cases hrun
      exact hs

theorem bind {m : M α} {f : α → M β} (hm : Preserves b m) (hf : ∀ a, Preserves b (f a)) :
    Preserves b (m >>= f) where
  ok s c s' hs hrun := by
    rw [EStateM.run_bind] at hrun
    cases hfirst : m.run s with
    | error err s₁ =>
      rw [hfirst] at hrun
      cases hrun
    | ok a s₁ =>
      rw [hfirst] at hrun
      exact (hf a).ok s₁ c s' (hm.ok s a s₁ hs hfirst) hrun
  thrown s err s' hs herr hrun := by
    rw [EStateM.run_bind] at hrun
    cases hfirst : m.run s with
    | error err₁ s₁ =>
      rw [hfirst] at hrun
      obtain ⟨rfl, rfl⟩ := EStateM.Result.error.inj hrun
      exact hm.thrown s _ s₁ hs herr hfirst
    | ok a s₁ =>
      rw [hfirst] at hrun
      exact (hf a).thrown s₁ err s' (hm.ok s a s₁ hs hfirst) herr hrun

theorem pure (a : α) : Preserves b (Pure.pure a : M α) :=
  of_run fun s hs => .inl ⟨a, s, rfl, hs⟩

theorem get : Preserves b (MonadState.get : M ByteArray) :=
  of_run fun s hs => .inl ⟨s, s, rfl, hs⟩

theorem throw (err : Err) : Preserves b (MonadExcept.throw err : M α) :=
  of_run fun _ _ => .inr ⟨err, rfl⟩

theorem setLittleEndian (val : Bool) : Preserves b (ByteArray.setLittleEndian val) :=
  of_run fun _ hs => .inl ⟨(), _, rfl,
    ⟨⟨hs.baseSize, hs.node_size, hs.root, hs.capacity, hs.position_le_capacity, hs.cur⟩,
      hs.position_le, hs.size_le⟩⟩

theorem write (hb : 1 ≤ b) (heap : Heap) (buf : List UInt8) :
    Preserves b (ByteArray.write heap buf) := by
  apply of_run
  intro s hs
  obtain ⟨s', hrun, hs', -⟩ := hs.run_write hb heap buf
  exact .inl ⟨(), s', hrun, hs'⟩

theorem read (hb : 1 ≤ b) (n : Nat) : Preserves b (ByteArray.read n) := by
  apply of_run
  intro s hs
  by_cases hfits : n ≤ s.size - s.position
  · cases n with
    | zero =>
      rw [hs.toAligned.run_read_zero]
      split
      · exact .inr ⟨_, rfl⟩
      · exact .inl ⟨_, s, rfl, hs⟩
    | succ n =>
      obtain ⟨s', hrun, hs', -⟩ := hs.run_read hb (Nat.succ_pos n) hfits
      exact .inl ⟨_, s', hrun, hs'⟩
  · exact .inr ⟨_, run_read_short (Nat.not_le.mp hfits)⟩

theorem setPosition (hb : 1 ≤ b) (v : Nat) : Preserves b (ByteArray.setPosition v) := by
  apply of_run
  intro s hs
  by_cases hv : v ≤ s.capacity
  · obtain ⟨s', hrun, hs', -⟩ := hs.run_setPosition hb hv
    exact .inl ⟨(), s', hrun, hs'⟩
  · exact .inr ⟨_, run_setPosition_outside (Nat.not_le.mp hv)⟩

theorem op (hb : 1 ≤ b) (heap : Heap) (op : Op) : Preserves b (op.run heap) := by
  cases op with
  | write buf => exact (write hb heap buf).bind fun _ => pure _
  | read n => exact (read hb n).bind fun _ => pure _
  | setPosition v => exact (setPosition hb v).bind fun _ => pure _
  | getWriteBuffers len =>
    refine bind (of_run fun s hs => ?_) fun _ => pure _
    obtain ⟨iovs, s', hrun, hs', -⟩ := hs.run_getWriteBuffers hb heap len
    exact .inl ⟨_, s', hrun, hs'⟩
  | clear =>
    refine bind (of_run fun s hs => ?_) fun _ => pure _
    obtain ⟨s', hrun, hs', -⟩ := hs.clear hb
    exact .inl ⟨(), s', hrun, hs'⟩

theorem writeFixed (hb : 1 ≤ b) (heap : Heap) (host : Endian) (k : Nat) (v : BitVec (8 * k)) :
    Preserves b (ByteArray.writeFixed heap host k v) :=
  get.bind fun _ => write hb heap _

theorem varintLoop {w : Nat} (cap fuel : Nat) (tmp : List UInt8) (v : BitVec w) :
    Preserves b (ByteArray.varintLoop cap fuel tmp v) := by
  have hpush (tmp : List UInt8) (x : UInt8) : Preserves b (push cap tmp x) := by
    unfold push
    split
    · exact pure _
    · exact throw _
  induction fuel generalizing tmp v with
  | zero => exact throw _
  | succ fuel ih =>
    unfold ByteArray.varintLoop
    split
    · exact (hpush _ _).bind fun _ => ih _ _
    · exact hpush _ _

theorem writeVarint (hb : 1 ≤ b) (heap : Heap) {w : Nat} (cap : Nat) (v : BitVec w) :
    Preserves b (ByteArray.writeVarint heap cap v) :=
  (varintLoop cap w [] v).bind fun _ => write hb heap _

theorem writeScalar (hb : 1 ≤ b) (heap : Heap) (host : Endian) (x : Scalar) :
    Preserves b (x.write heap host) := by
  cases x with
  | fint8 v | fuint8 v => exact write hb heap _
  | fint16 v | fuint16 v | fint32 v | fuint32 v | fint64 v | fuint64 v | float v | double v =>
    exact writeFixed hb heap host _ _
  | uint32 v | uint64 v | int32 v | int64 v => exact writeVarint hb heap _ _

theorem readFixed (hb : 1 ≤ b) (host : Endian) (k : Nat) :
    Preserves b (ByteArray.readFixed host k) :=
  (read hb k).bind fun _ => get.bind fun _ => pure _

theorem varintRead (hb : 1 ≤ b) (host : Endian) {w : Nat} (fuel i : Nat) (result : BitVec w) :
    Preserves b (ByteArray.varintRead host fuel i result) := by
  induction fuel generalizing i result with
  | zero => exact throw _
  | succ fuel ih =>
    unfold ByteArray.varintRead
    split
    · refine bind ((read hb 1).bind fun _ => pure _) fun x => ?_
      split
      · exact pure _
      · exact ih _ _
    · exact pure _

theorem map {m : M α} (hm : Preserves b m) (f : α → β) :
    Preserves b (m >>= fun a => Pure.pure (f a)) :=
  hm.bind fun _ => pure _

theorem readScalar (hb : 1 ≤ b) (host : Endian) (kind : Kind) : Preserves b (kind.read host) := by
  cases kind with
  | fint8 | fuint8 => exact ((read hb 1).map _).map _
  | fint16 | fuint16 => exact ((readFixed hb host 2).map _).map _
  | fint32 | fuint32 | float => exact ((readFixed hb host 4).map _).map _
  | fint64 | fuint64 | double => exact ((readFixed hb host 8).map _).map _
  | uint32 => exact ((varintRead hb host 32 0 _).map _).map _
  | uint64 => exact ((varintRead hb host 64 0 _).map _).map _
  | int32 => exact (((varintRead hb host 32 0 _).map _).map _).map _
  | int64 => exact (((varintRead hb host 64 0 _).map _).map _).map _

theorem writeString (hb : 1 ≤ b) (heap : Heap) (host : Endian) (code : LengthCode)
    (value : List UInt8) : Preserves b (code.writeString heap host value) := by
  cases code with
  | f16 | f32 | f64 => exact (writeFixed hb heap host _ _).bind fun _ => write hb heap value
  | vint => exact (writeVarint hb heap _ _).bind fun _ => write hb heap value

theorem readChars (hb : 1 ≤ b) (len : Nat) : Preserves b (ByteArray.readChars len) := by
  unfold ByteArray.readChars
  split
  · exact read hb len
  · exact throw _

theorem readString (hb : 1 ≤ b) (host : Endian) (code : LengthCode) :
    Preserves b (code.readString host) := by
  cases code with
  | f16 => exact ((readFixed hb host 2).map _).bind fun _ => readChars hb _
  | f32 => exact ((readFixed hb host 4).map _).bind fun _ => readChars hb _
  | f64 => exact ((readFixed hb host 8).map _).bind fun _ => readChars hb _
  | vint => exact ((varintRead hb host 64 0 _).map _).bind fun _ => readChars hb _

theorem fill (i npos : Nat) (src : List UInt8) : Preserves b (ByteArray.fill i npos src) := by
  apply of_run
  intro s hs
  unfold ByteArray.fill
  cases hget : s.nodes[i]? with
  | none =>
    have hderef : (deref (some i)).run s = .error .nullNode s := by
      simp only [EStateM.run, deref, hget]
    exact .inr ⟨.nullNode, by rw [EStateM.run_bind, hderef]⟩
  | some node =>
    rw [EStateM.run_bind, run_deref_some hget]
    by_cases hfit : npos + src.length ≤ node.size
    · have hal := (hs.toAligned.set_node hget src hfit).1
      refine .inl ⟨(), _, ?_, ⟨hal, hs.position_le, hs.size_le⟩⟩
      simp only [dif_pos hfit]
      rfl
    · exact .inr ⟨.overrun, by simp only [dif_neg hfit]; rfl⟩

theorem call (hb : 1 ≤ b) (heap : Heap) (host : Endian) (call : Call) :
    Preserves b (call.run heap host) := by
  cases call with
  | op o => exact (Preserves.op hb heap o).bind fun _ => pure _
  | setLittleEndian val => exact setLittleEndian val
  | writeScalar x => exact writeScalar hb heap host x
  | readScalar kind => exact (readScalar hb host kind).bind fun _ => pure _
  | writeString code value => exact writeString hb heap host code value
  | readString code => exact (readString hb host code).bind fun _ => pure _
  | fill i npos src => exact fill i npos src

end Preserves

theorem WellFormed.of_runCalls (hb : 1 ≤ b) (heap : Heap) (host : Endian) (calls : List Call)
    (h : WellFormed b s) (hrun : runCalls heap host calls s = .ok s') : WellFormed b s' := by
  induction calls generalizing s with
  | nil =>
    cases hrun
    exact h
  | cons call calls ih =>
    have hcall := Preserves.call hb heap host call
    unfold runCalls at hrun
    split at hrun
    · exact ih (hcall.ok _ _ _ h ‹_›) hrun
    · rename_i hthrow
      rcases ite_eq_iff.mp hrun with ⟨herr, hrest⟩ | ⟨-, hends⟩
      · exact ih (hcall.thrown _ _ _ h herr hthrow) hrest
      · cases hends

theorem take_unread {n : Nat} (hn : n ≤ s.getReadSize) :
    (s.memory.drop (b * (s.position / b) + s.position % b)).take n = s.unread.take n := by
  have hleft : n ≤ s.size - s.position := hn
  rw [Nat.div_add_mod, unread, stored, List.drop_take, List.take_take, Nat.min_eq_left hleft]

theorem WellFormed.readable (h : WellFormed b s) {n : Nat} (hn : n ≤ s.getReadSize)
    (hpos : 1 ≤ n) :
    s.cur = some (s.position / b) ∧ s.position / b < s.nodes.length ∧
      (∃ node, (deref s.cur).run s = .ok node s ∧ node.size = b) ∧
      b * (s.position / b) + s.position % b + n ≤ b * s.nodes.length := by
  have hsize := h.size_le
  have hleft : n ≤ s.size - s.position := hn
  have hlt : s.position < s.capacity := by omega
  obtain ⟨node, hderef, hnode, hget⟩ := h.toAligned.run_deref_cur hlt
  refine ⟨h.toAligned.cur_eq hlt, (List.getElem?_eq_some_iff.mp hget).1, ⟨node, hderef, hnode⟩, ?_⟩
  rw [Nat.div_add_mod, ← h.capacity]
  omega

theorem WellFormed.run_getReadBuffers (h : WellFormed b s) (hb : 1 ≤ b) (buffers : List Iovec)
    {len : Nat} (hlen : 1 ≤ len) (hleft : 1 ≤ s.getReadSize) :
    ∃ iovs, (getReadBuffers buffers len).run s =
        .ok (min len s.getReadSize, buffers ++ iovs) s ∧
      Cuts s (s.position / b) iovs ∧
      iovs.flatMap (Iovec.bytes s) = s.unread.take (min len s.getReadSize) := by
  obtain ⟨n, hn⟩ : ∃ n, n = min len s.getReadSize := ⟨_, rfl⟩
  have hle : n ≤ s.getReadSize := by omega
  have hclip : (if len > s.getReadSize then s.getReadSize else len) = n := by
    rw [hn]
    split <;> omega
  obtain ⟨hcur, hi, ⟨node, hderef, hnode⟩, hroom⟩ := h.readable hle (by omega)
  obtain ⟨iovs, hrun, hcuts, hbytes, -⟩ := run_iovLoop h.toAligned hb n (s.position / b)
    (s.position % b) n (Nat.le_refl n) (Nat.mod_lt _ hb) hi hroom
  refine ⟨iovs, ?_, hcuts, ?_⟩
  · have hpos : ¬ n = 0 := by omega
    rw [hcur] at hderef
    unfold getReadBuffers
    simp only [EStateM.run_bind, EStateM.run_get, hclip, if_neg hpos, hcur, hderef, hnode,
      h.baseSize, hrun, EStateM.run_pure, ← hn]
  · rw [hbytes, take_unread hle, hn]

theorem WellFormed.run_toString (h : WellFormed b s) (hb : 1 ≤ b) :
    toString.run s = .ok s.unread s := by
  have hlength : s.unread.length = s.getReadSize := h.length_unread
  unfold toString
  rw [EStateM.run_bind, EStateM.run_get]
  by_cases hzero : s.getReadSize = 0
  · have hnil : s.unread = [] := List.length_eq_zero_iff.mp (hlength.trans hzero)
    simp only [if_pos hzero, EStateM.run_pure, hnil]
  · obtain ⟨hcur, hi, ⟨node, hderef, hnode⟩, hroom⟩ := h.readable (Nat.le_refl _) (by omega)
    have hrun := run_peekLoop h.toAligned hb s.getReadSize (s.position / b) (s.position % b)
      s.getReadSize (Nat.le_refl _) (Nat.mod_lt _ hb) hi hroom
    rw [take_unread (Nat.le_refl _), ← hlength, List.take_length, hlength] at hrun
    have hfits : ¬ s.getReadSize > s.size - s.position := Nat.lt_irrefl _
    rw [hcur] at hderef
    simp only [if_neg hzero, readAt, EStateM.run_bind, EStateM.run_get, if_pos h.position_le,
      if_neg hfits, hcur, hderef, hnode, h.baseSize, hrun]

/-- In every reachable state with something left to read, `getReadBuffers`, `toString` and
the next `read` show the same bytes, and the first two leave the object alone. -/
theorem runCalls_views_agree (heap : Heap) (host : Endian) (b : Nat) (hb : 1 ≤ b)
    (calls : List Call) (s : ByteArray)
    (hreach : runCalls heap host calls (fresh heap b) = .ok s) (hleft : 1 ≤ s.getReadSize)
    (buffers : List Iovec) (len : Nat) (hlen : 1 ≤ len) :
    ∃ iovs text bytes s',
      (getReadBuffers buffers len).run s = .ok (min len s.getReadSize, buffers ++ iovs) s ∧
      toString.run s = .ok text s ∧
      (read (min len s.getReadSize)).run s = .ok bytes s' ∧
      bytes.length = min len s.getReadSize ∧
      iovs.flatMap (Iovec.bytes s) = bytes ∧ text.take (min len s.getReadSize) = bytes ∧
      Cuts s (s.position / b) iovs := by
  have h := (wellFormed_fresh heap hb).of_runCalls hb heap host calls hreach
  obtain ⟨iovs, hiovs, hcuts, hbytes⟩ := h.run_getReadBuffers hb buffers hlen hleft
  obtain ⟨s', hread, -⟩ := h.run_read hb (n := min len s.getReadSize) (by omega)
    (Nat.min_le_right _ _)
  have hlength : s.unread.length = s.getReadSize := h.length_unread
  have hcount : (s.unread.take (min len s.getReadSize)).length = min len s.getReadSize := by
    rw [List.length_take, hlength]
    omega
  exact ⟨iovs, s.unread, _, s', hiovs, h.run_toString hb, hread, hcount, hbytes, rfl, hcuts⟩

/-- Three bytes from the middle of a block, over blocks of two. -/
theorem runCalls_views_agree_blocks :
    ∃ s, runCalls (fun _ _ => 0) .little [.op (.write [1, 2, 3, 4, 5]), .op (.setPosition 1)]
        (fresh (fun _ _ => 0) 2) = .ok s ∧ s.getReadSize = 4 ∧
      ∃ iovs text bytes s',
        (getReadBuffers [] 3).run s = .ok (min 3 s.getReadSize, [] ++ iovs) s ∧
        toString.run s = .ok text s ∧ (read (min 3 s.getReadSize)).run s = .ok bytes s' ∧
        bytes.length = min 3 s.getReadSize ∧ iovs.flatMap (Iovec.bytes s) = bytes ∧
        text.take (min 3 s.getReadSize) = bytes ∧ Cuts s (s.position / 2) iovs :=
  ⟨_, rfl, rfl, runCalls_views_agree (fun _ _ => 0) .little 2 (by decide)
    [.op (.write [1, 2, 3, 4, 5]), .op (.setPosition 1)] _ rfl (by decide) [] 3 (by decide)⟩

end Sylar.ByteArray
