import Sylar.ByteArray.Lend

/-! `SocketStream` between a socket and a `ByteArray`. Both directions lend the iovecs of
`getWriteBuffers` to the socket and then move the cursor over what was transferred. -/
namespace Sylar.SocketStream

open Sylar.ByteArray Lib.Blocks

/-- The socket, by what its next call does: `recvmsg` stores no more bytes than there is room
for, `sendmsg` takes no more than it is offered, and a result that is not positive moves
nothing. -/
structure Sock where
  connected : Bool
  recv : Nat → Except Int (List UInt8)
  send : List UInt8 → Int
  recv_le : ∀ room data, recv room = .ok data → data.length ≤ room
  recv_fails : ∀ room ret, recv room = .error ret → ret ≤ 0
  send_le : ∀ bytes, send bytes ≤ bytes.length

variable (sock : Sock) (heap : Heap)

def read (length : Nat) : M Int := do
  if sock.connected = false then
    pure (-1)
  else
    let (_, iovs) ← getWriteBuffers heap length
    match sock.recv (iovs.map Iovec.len).sum with
    | .error ret => pure ret
    | .ok data =>
      scatter iovs data
      if data.length > 0 then
        let s ← get
        setPosition (s.position + data.length)
      pure data.length

/-- What a call of `write` showed to the socket, and what it returned. -/
structure Sent where
  offered : List UInt8
  ret : Int
  deriving DecidableEq, Repr

def write (length : Nat) : M Sent := do
  if sock.connected = false then
    pure ⟨[], -1⟩
  else
    let (_, iovs) ← getWriteBuffers heap length
    let s ← get
    let offered := iovs.flatMap (Iovec.bytes s)
    let ret := sock.send offered
    if ret > 0 then
      setPosition (s.position + ret.toNat)
    pure ⟨offered, ret⟩

variable {b : Nat} {s : ByteArray}

def Sock.received (room : Nat) : List UInt8 :=
  if sock.connected = false then []
  else match sock.recv room with
    | .ok data => data
    | .error _ => []

def Sock.result (room : Nat) : Int :=
  if sock.connected = false then -1
  else match sock.recv room with
    | .ok data => data.length
    | .error ret => ret

theorem Sock.received_length (room : Nat) :
    (sock.received room).length = (sock.result room).toNat ∧ sock.result room ≤ room := by
  unfold received result
  split
  · exact ⟨rfl, by omega⟩
  · split
    · rename_i data hrecv
      have := sock.recv_le room data hrecv
      exact ⟨(Int.toNat_natCast _).symm, by omega⟩
    · rename_i ret hrecv
      have := sock.recv_fails room ret hrecv
      exact ⟨(Int.toNat_of_nonpos this).symm, by omega⟩

/-- What arrives is stored at the cursor, as `ByteArray::write` stores it; a failed call
leaves the stored bytes and the cursor alone. -/
theorem run_read (h : WellFormed b s) (hb : 1 ≤ b) (length : Nat) :
    ∃ s', (read sock heap length).run s = .ok (sock.result length) s' ∧ WellFormed b s' ∧
      s'.position = s.position + (sock.received length).length ∧
      s'.stored = overwrite s.stored s.position (sock.received length) := by
  have hmax : max s.size (s.position + 0) = s.size := Nat.max_eq_left h.position_le
  unfold read Sock.received Sock.result
  by_cases hconn : sock.connected = false
  · simp only [if_pos hconn]
    exact ⟨s, rfl, h, rfl, by simp⟩
  · simp only [if_neg hconn]
    obtain ⟨iovs, s₁, hlend, h₁, ⟨pad, hmem, -⟩, hpos, hsize, -, -, -, hoffs⟩ :=
      h.run_getWriteBuffers hb heap length
    have hroom : (iovs.map Iovec.len).sum = length := by
      have hcount := congrArg List.length hoffs
      simpa [List.length_flatMap, Iovec.offsets, Function.comp_def] using hcount
    -- room was made, and nothing else happened
    have hmem₁ : s₁.memory = overwrite (s.memory ++ pad) s.position [] := by
      rw [hmem, overwrite_nil]
    have hsize₁ : s₁.size = max s.size (s.position + 0) := by rw [hsize, hmax]
    have hstored : s₁.stored = overwrite s.stored s.position [] :=
      h.stored_of_overwrite hmem₁ hsize₁
    cases hrecv : sock.recv length with
    | error ret =>
      refine ⟨s₁, ?_, h₁, hpos, hstored⟩
      simp only [EStateM.run_bind, hlend, hroom, hrecv, EStateM.run_pure]
    | ok data =>
      cases data with
      | nil =>
        refine ⟨s₁, ?_, h₁, hpos, hstored⟩
        simp only [EStateM.run_bind, hlend, hroom, hrecv, scatter_nil, EStateM.run_pure]
        rfl
      | cons x xs =>
        have hle := sock.recv_le _ _ hrecv
        obtain ⟨iovs', s₁', s₂, lent, hlend', hscatter, hset, hl, hpos', -, hstored', -⟩ :=
          h.run_lend hb heap hle
        rw [hlend] at hlend'
        cases hlend'
        refine ⟨lent, ?_, hl, hpos', hstored'⟩
        have hsome : (x :: xs).length > 0 := Nat.succ_pos _
        simp only [EStateM.run_bind, hlend, hroom, hrecv, hscatter, if_pos hsome,
          EStateM.run_get, hset, EStateM.run_pure]

/-- `write` shows the socket nothing but bytes that are left to read, no more than asked
for, and changes nothing but the position, by what was sent. -/
structure Clean (s : ByteArray) (length : Nat) (sent : Sent) (s' : ByteArray) : Prop where
  offered : sent.offered <+: s.unread.take length
  size : s'.size = s.size
  capacity : s'.capacity = s.capacity
  position : s'.position = s.position + sent.ret.toNat

theorem run_write (h : WellFormed b s) (hb : 1 ≤ b) (length : Nat)
    (hconn : ¬ sock.connected = false) :
    ∃ sent s', (write sock heap length).run s = .ok sent s' ∧ WellFormed b s' ∧
      sent.offered.length = length ∧ s'.position = s.position + sent.ret.toNat ∧
      sent.ret = sock.send sent.offered ∧
      (length ≤ s.getReadSize → sent.offered = s.unread.take length ∧ s'.size = s.size ∧
        s'.capacity = s.capacity ∧ s'.memory = s.memory) := by
  obtain ⟨iovs, s₁, hlend, h₁, ⟨pad, hmem, hpad⟩, hpos, hsize, -, -, hbytes, -⟩ :=
    h.run_getWriteBuffers hb heap length
  have hmemory : s₁.memory.length = s.capacity + b * missing b s length := by
    rw [hmem, List.length_append, hpad, h.toAligned.length_memory]
  have hcap : s₁.capacity = s.capacity + b * missing b s length := by
    rw [← h₁.toAligned.length_memory, hmemory]
  have hroom : s.position + length ≤ s₁.capacity := by
    have := missing_room hb s length
    have := h.position_le_capacity
    omega
  have hcount : (iovs.flatMap (Iovec.bytes s₁)).length = length := by
    rw [hbytes, List.length_take, List.length_drop, hmemory]
    omega
  have hread (hle : length ≤ s.getReadSize) :
      iovs.flatMap (Iovec.bytes s₁) = s.unread.take length ∧ s₁.capacity = s.capacity ∧
        s₁.memory = s.memory := by
    have hle' : length ≤ s.size - s.position := hle
    have hsize_le := h.size_le
    have hzero : missing b s length = 0 := missing_eq_zero hb (by omega)
    have hnil : pad = [] := List.eq_nil_of_length_eq_zero (by rw [hpad, hzero, Nat.mul_zero])
    refine ⟨?_, by rw [hcap, hzero, Nat.mul_zero, Nat.add_zero],
      by rw [hmem, hnil, List.append_nil]⟩
    rw [hbytes, hmem, hnil, List.append_nil, unread, stored, List.drop_take, List.take_take,
      Nat.min_eq_left hle']
  obtain ⟨ret, hret⟩ : ∃ ret, ret = sock.send (iovs.flatMap (Iovec.bytes s₁)) := ⟨_, rfl⟩
  have hsend : ret ≤ length := by
    rw [hret, ← hcount]
    exact sock.send_le _
  by_cases hsome : ret > 0
  · obtain ⟨s₂, hset, h₂, hmem₂, hpos₂, hsize₂, -⟩ := h₁.run_setPosition hb
      (v := s₁.position + ret.toNat) (by omega)
    refine ⟨⟨iovs.flatMap (Iovec.bytes s₁), ret⟩, s₂, ?_, h₂, hcount, by rw [hpos₂, hpos], hret, ?_⟩
    · simp only [write, if_neg hconn, EStateM.run_bind, hlend, EStateM.run_get, ← hret,
        if_pos hsome, hset, EStateM.run_pure]
    · intro hle
      obtain ⟨hoffered, hcap', hmem'⟩ := hread hle
      have hle' : length ≤ s.size - s.position := hle
      refine ⟨hoffered, ?_, ?_, hmem₂.trans hmem'⟩
      · rw [hsize₂, hsize]
        omega
      · rw [← hcap', ← h₂.toAligned.length_memory, hmem₂, h₁.toAligned.length_memory]
  · have hzero : ret.toNat = 0 := by omega
    refine ⟨⟨iovs.flatMap (Iovec.bytes s₁), ret⟩, s₁, ?_, h₁, hcount,
      by rw [hpos, hzero, Nat.add_zero], hret, ?_⟩
    · simp only [write, if_neg hconn, EStateM.run_bind, hlend, EStateM.run_get, ← hret,
        if_neg hsome, EStateM.run_pure]
    · intro hle
      obtain ⟨hoffered, hcap', hmem'⟩ := hread hle
      exact ⟨hoffered, hsize, hcap', hmem'⟩

/-- A send is clean if and only if it asks for no more than is left to read, or the stream
is not connected and nothing is sent. -/
theorem runCalls_write_clean (heap : Heap) (host : Endian) (b : Nat) (hb : 1 ≤ b)
    (calls : List Call) (s : ByteArray)
    (hreach : runCalls heap host calls (fresh heap b) = .ok s) (sock : Sock) (length : Nat) :
    ∃ sent s', (write sock heap length).run s = .ok sent s' ∧
      (Clean s length sent s' ↔ sock.connected = false ∨ length ≤ s.getReadSize) := by
  have h := (wellFormed_fresh heap hb).of_runCalls hb heap host calls hreach
  by_cases hconn : sock.connected = false
  · refine ⟨⟨[], -1⟩, s, by simp only [write, if_pos hconn, EStateM.run_pure], ?_⟩
    exact iff_of_true ⟨List.nil_prefix, rfl, rfl, rfl⟩ (.inl hconn)
  · obtain ⟨sent, s', hrun, -, hcount, hpos, -, hread⟩ := run_write sock heap h hb length hconn
    refine ⟨sent, s', hrun, ?_, ?_⟩
    · intro hclean
      have hlen := hclean.offered.length_le
      rw [hcount, List.length_take, h.length_unread] at hlen
      exact .inr (Nat.le_trans hlen (Nat.min_le_right _ _))
    · intro hor
      obtain ⟨hoffered, hsize, hcap, -⟩ := hread (hor.resolve_left hconn)
      exact ⟨hoffered ▸ List.prefix_rfl, hsize, hcap, hpos⟩

def greedy : Sock where
  connected := true
  recv := fun _ => .ok []
  send := fun bytes => bytes.length
  recv_le := by
    intro room data hrecv
    cases hrecv
    exact Nat.zero_le _
  recv_fails := by
    intro room ret hrecv
    cases hrecv
  send_le := fun _ => Int.le_refl _

theorem runCalls_write_clean_greedy :
    ∃ s, runCalls (fun _ _ => 9) .little [.op (.write [1, 2]), .op (.setPosition 0)]
        (fresh (fun _ _ => 9) 2) = .ok s ∧
      ∃ sent s', (write greedy (fun _ _ => 9) 1).run s = .ok sent s' ∧
        (Clean s 1 sent s' ↔ greedy.connected = false ∨ 1 ≤ s.getReadSize) :=
  ⟨_, rfl, runCalls_write_clean (fun _ _ => 9) .little 2 (by decide)
    [.op (.write [1, 2]), .op (.setPosition 0)] _ rfl greedy 1⟩

/-- Two bytes are left to read and three are asked for: the socket is shown a byte of memory
that nothing was stored in, and the byte then counts as stored. -/
theorem write_sends_surplus :
    ∃ s sent s', runCalls (fun _ _ => 9) .little [.op (.write [1, 2]), .op (.setPosition 0)]
        (fresh (fun _ _ => 9) 2) = .ok s ∧
      (write greedy (fun _ _ => 9) 3).run s = .ok sent s' ∧
      s.unread = [1, 2] ∧ sent.offered = [1, 2, 9] ∧ s.size = 2 ∧ s'.size = 3 ∧
      s.capacity = 2 ∧ s'.capacity = 4 ∧ ¬ Clean s 3 sent s' := by
  refine ⟨_, _, _, rfl, rfl, rfl, rfl, rfl, rfl, rfl, rfl, ?_⟩
  intro hclean
  have hsize : 3 = 2 := hclean.size
  omega

end Sylar.SocketStream
