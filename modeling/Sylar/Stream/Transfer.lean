import Sylar.Stream.FixSize
import Sylar.Stream.SocketStream

/-! The fixed-size transfers of `sylar/stream.cc` to and from a `ByteArray`, whose own
cursor keeps the place between two calls. The socket may answer every call differently. -/
namespace Sylar.SocketStream

open Sylar.ByteArray Lib.Blocks

section Loop

variable {α : Type} (call : Nat → Nat → M α) (ret : α → Int) (length : Nat)

/-- The loop of both transfers over the calls `call 0`, `call 1`, …. The result is the
returned `int` and, for each call made, what it was asked for and what it answered, or
`none` when `fuel` runs out. -/
def transferLoop : Nat → Nat → Int → M (Option (Int × List (Nat × α)))
  | 0, _, _ => pure none
  | fuel + 1, i, left =>
    if left > 0 then do
      let a ← call i left.toNat
      if ret a ≤ 0 then
        pure (some (ret a, [(left.toNat, a)]))
      else
        let r ← transferLoop fuel (i + 1) (left - ret a)
        pure (r.map fun r => (r.1, (left.toNat, a) :: r.2))
    else
      pure (some ((length : Int).bmod (2 ^ 32), []))

def moved (calls : List (Nat × α)) : Nat := (calls.map fun c => (ret c.2).toNat).sum

@[simp] theorem moved_nil : moved ret ([] : List (Nat × α)) = 0 := rfl

@[simp] theorem moved_append (calls more : List (Nat × α)) :
    moved ret (calls ++ more) = moved ret calls + moved ret more := by
  simp [moved]

@[simp] theorem moved_singleton (n : Nat) (a : α) : moved ret [(n, a)] = (ret a).toNat := by
  simp [moved]

/-- The transfer gives back the length when no call fails and all of it was moved, and
otherwise what the call that failed returned. -/
structure Outcome (calls : List (Nat × α)) (r : Int) : Prop where
  complete : (∀ c ∈ calls, 0 < ret c.2) → r = length ∧ moved ret calls = length
  fails : ∀ c ∈ calls, ret c.2 ≤ 0 → r = ret c.2

variable {length}

/-- What every call of a transfer keeps holds when it returns, and it does return. -/
theorem run_transferLoop {I : List (Nat × α) → ByteArray → Prop} (hlt : length < 2 ^ 31)
    (hcall : ∀ calls t left, I calls t → moved ret calls + left = length → 0 < left →
      ∃ a t', (call calls.length left).run t = .ok a t' ∧ ret a ≤ left ∧
        I (calls ++ [(left, a)]) t')
    (fuel left : Nat) (calls : List (Nat × α)) (t : ByteArray) (h : I calls t)
    (hpos : ∀ c ∈ calls, 0 < ret c.2) (hleft : moved ret calls + left = length)
    (hfuel : left < fuel) :
    ∃ r rest t', (transferLoop call ret length fuel calls.length left).run t =
        .ok (some (r, rest)) t' ∧
      I (calls ++ rest) t' ∧ Outcome ret length (calls ++ rest) r := by
  induction fuel generalizing left calls t with
  | zero => omega
  | succ fuel ih =>
    unfold transferLoop
    by_cases hsome : 0 < left
    · have hgt : (left : Int) > 0 := by omega
      obtain ⟨a, t₁, hrun, hle, h₁⟩ := hcall calls t left h hleft hsome
      rw [if_pos hgt]
      by_cases hfails : ret a ≤ 0
      · refine ⟨ret a, [(left, a)], t₁, ?_, h₁, ?_, ?_⟩
        · simp only [EStateM.run_bind, Int.toNat_natCast, hrun, if_pos hfails, EStateM.run_pure]
        · intro hall
          have hlast := hall (left, a) (by simp)
          exact absurd hfails (Int.not_le.mpr hlast)
        · intro c hc hle
          rcases List.mem_append.mp hc with hc | hc
          · exact absurd hle (Int.not_le.mpr (hpos c hc))
          · obtain rfl := List.mem_singleton.mp hc
            rfl
      · obtain ⟨k, hk⟩ := Int.eq_ofNat_of_zero_le (show 0 ≤ ret a by omega)
        have hpos₁ : ∀ c ∈ calls ++ [(left, a)], 0 < ret c.2 := by
          intro c hc
          rcases List.mem_append.mp hc with hc | hc
          · exact hpos c hc
          · obtain rfl := List.mem_singleton.mp hc
            exact Int.not_le.mp hfails
        have hnext : (left : Int) - ret a = ((left - k : Nat) : Int) := by omega
        obtain ⟨r, rest, t', hloop, hI, hout⟩ := ih (left - k) (calls ++ [(left, a)]) t₁ h₁ hpos₁
          (by simp only [moved_append, moved_singleton]; omega) (by omega)
        rw [List.length_append, List.length_singleton] at hloop
        rw [List.append_assoc, List.singleton_append] at hI hout
        refine ⟨r, (left, a) :: rest, t', ?_, hI, hout⟩
        simp only [EStateM.run_bind, Int.toNat_natCast, hrun, if_neg hfails, hnext, hloop,
          EStateM.run_pure, Option.map_some]
    · obtain rfl : left = 0 := by omega
      refine ⟨length, [], t, ?_, by rwa [List.append_nil], ?_⟩
      · rw [if_neg (by decide), Stream.bmod_length hlt, EStateM.run_pure]
      · rw [List.append_nil]
        exact ⟨fun _ => ⟨rfl, hleft⟩, fun c hc hle => absurd hle (Int.not_le.mpr (hpos c hc))⟩

end Loop

variable (socks : Nat → Sock) (heap : Heap) (length : Nat)

def readFixSize (fuel : Nat) : M (Option (Int × List (Nat × Int))) :=
  transferLoop (fun i n => read (socks i) heap n) id length fuel 0 length

def writeFixSize (fuel : Nat) : M (Option (Int × List (Nat × Sent))) :=
  transferLoop (fun i n => write (socks i) heap n) Sent.ret length fuel 0 length

def arrived (calls : List (Nat × Int)) : List UInt8 :=
  calls.zipIdx.flatMap fun c => (socks c.2).received c.1.1

@[simp] theorem arrived_snoc (calls : List (Nat × Int)) (c : Nat × Int) :
    arrived socks (calls ++ [c]) = arrived socks calls ++ (socks calls.length).received c.1 := by
  simp [arrived, List.zipIdx_append]

def took (calls : List (Nat × Sent)) : List UInt8 :=
  calls.flatMap fun c => c.2.offered.take c.2.ret.toNat

@[simp] theorem took_snoc (calls : List (Nat × Sent)) (n : Nat) (sent : Sent) :
    took (calls ++ [(n, sent)]) = took calls ++ sent.offered.take sent.ret.toNat := by
  simp [took]

structure Filled (b : Nat) (s : ByteArray) (calls : List (Nat × Int)) (s' : ByteArray) : Prop where
  wellFormed : WellFormed b s'
  answers : ∀ c ∈ calls.zipIdx, c.1.2 = (socks c.2).result c.1.1
  count : (arrived socks calls).length = moved id calls
  position : s'.position = s.position + moved id calls
  stored : s'.stored = overwrite s.stored s.position (arrived socks calls)

structure Drained (b : Nat) (s : ByteArray) (calls : List (Nat × Sent)) (s' : ByteArray) :
    Prop where
  wellFormed : WellFormed b s'
  answers : ∀ c ∈ calls.zipIdx,
    c.1.2 = ⟨[], -1⟩ ∨ (socks c.2).connected = true ∧ c.1.2.ret = (socks c.2).send c.1.2.offered
  taken : took calls = s.unread.take (moved Sent.ret calls)
  position : s'.position = s.position + moved Sent.ret calls
  size : s'.size = s.size
  capacity : s'.capacity = s.capacity
  memory : s'.memory = s.memory

theorem forall_zipIdx_snoc {α : Type} {P : α × Nat → Prop} {calls : List α} {c : α}
    (h : ∀ x ∈ calls.zipIdx, P x) (hc : P (c, calls.length)) :
    ∀ x ∈ (calls ++ [c]).zipIdx, P x := by
  intro x hx
  rw [List.zipIdx_append, Nat.zero_add] at hx
  rcases List.mem_append.mp hx with hx | hx
  · exact h x hx
  · obtain rfl := List.mem_singleton.mp hx
    exact hc

variable {socks} {b : Nat} {s t : ByteArray}

theorem Filled.step (hs : WellFormed b s) (hb : 1 ≤ b) {calls : List (Nat × Int)}
    (h : Filled socks b s calls t) (left : Nat) :
    ∃ a t', (read (socks calls.length) heap left).run t = .ok a t' ∧ id a ≤ left ∧
      Filled socks b s (calls ++ [(left, a)]) t' := by
  obtain ⟨t', hrun, ht', hpos, hstored⟩ := run_read (socks calls.length) heap h.wellFormed hb left
  obtain ⟨hcount, hle⟩ := (socks calls.length).received_length left
  refine ⟨_, t', hrun, hle, ht', forall_zipIdx_snoc h.answers rfl, ?_, ?_, ?_⟩
  · rw [arrived_snoc, List.length_append, h.count, hcount]
    simp
  · rw [hpos, h.position, hcount]
    simp [Nat.add_assoc]
  · have hinside : s.position ≤ s.stored.length := by
      have := hs.position_le
      have := hs.size_le
      rw [ByteArray.stored, List.length_take, hs.toAligned.length_memory]
      omega
    rw [hstored, h.stored, h.position, ← h.count, overwrite_append _ _ _ _ hinside, arrived_snoc]

theorem Drained.unread {calls : List (Nat × Sent)} (h : Drained socks b s calls t) :
    t.unread = s.unread.drop (moved Sent.ret calls) := by
  rw [ByteArray.unread, ByteArray.stored, h.memory, h.size, h.position, ← List.drop_drop]
  rfl

theorem Drained.step (hb : 1 ≤ b) {calls : List (Nat × Sent)}
    (h : Drained socks b s calls t) {left : Nat}
    (hroom : moved Sent.ret calls + left ≤ s.getReadSize) :
    ∃ a t', (write (socks calls.length) heap left).run t = .ok a t' ∧ a.ret ≤ left ∧
      Drained socks b s (calls ++ [(left, a)]) t' := by
  by_cases hconn : (socks calls.length).connected = false
  · refine ⟨⟨[], -1⟩, t, by simp only [write, if_pos hconn, EStateM.run_pure],
      (show (-1 : Int) ≤ left by omega),
      h.wellFormed, forall_zipIdx_snoc h.answers (.inl rfl), ?_, ?_, h.size, h.capacity, h.memory⟩
    · rw [took_snoc, h.taken]
      simp
    · rw [h.position]
      simp
  · have hread : left ≤ t.getReadSize := by
      have hroom : moved Sent.ret calls + left ≤ s.size - s.position := hroom
      show left ≤ t.size - t.position
      rw [h.size, h.position]
      omega
    obtain ⟨a, t', hrun, ht', hcount, hpos, hret, hclean⟩ :=
      run_write (socks calls.length) heap h.wellFormed hb left hconn
    obtain ⟨hoffered, hsize, hcap, hmem⟩ := hclean hread
    have hle : a.ret ≤ left := by
      rw [hret, ← hcount]
      exact (socks calls.length).send_le _
    have hanswer := Bool.eq_true_of_not_eq_false hconn
    refine ⟨a, t', hrun, hle, ht', forall_zipIdx_snoc h.answers (.inr ⟨hanswer, hret⟩),
      ?_, ?_, hsize.trans h.size, hcap.trans h.capacity, hmem.trans h.memory⟩
    · rw [took_snoc, h.taken, hoffered, h.unread, List.take_take, moved_append, moved_singleton,
        Nat.min_eq_left (by omega), List.take_add]
    · rw [hpos, h.position, moved_append, moved_singleton, Nat.add_assoc]

/-- A read of a fixed size into a `ByteArray` returns. What the calls brought stands at the
cursor, which has moved behind it; without a failing call that is the whole length. -/
theorem runCalls_readFixSize (heap : Heap) (host : Endian) (b : Nat) (hb : 1 ≤ b)
    (calls : List Call) (s : ByteArray)
    (hreach : runCalls heap host calls (fresh heap b) = .ok s) (socks : Nat → Sock) (length : Nat)
    (hlt : length < 2 ^ 31) :
    ∃ fuel r made s', (readFixSize socks heap length fuel).run s = .ok (some (r, made)) s' ∧
      Filled socks b s made s' ∧ Outcome id length made r := by
  have h := (wellFormed_fresh heap hb).of_runCalls hb heap host calls hreach
  have hstart : Filled socks b s [] s := by
    refine ⟨h, by simp, rfl, rfl, ?_⟩
    simp [arrived]
  obtain ⟨r, made, s', hrun, hfilled, hout⟩ := run_transferLoop
    (fun i n => read (socks i) heap n) id (I := Filled socks b s) hlt
    (fun made t left hmade _ _ => Filled.step heap h hb hmade left) (length + 1) length [] s hstart
    (by simp) (Nat.zero_add _) (Nat.lt_succ_self _)
  exact ⟨length + 1, r, made, s', hrun, hfilled, hout⟩

def pairs : Sock where
  connected := true
  recv := fun room => .ok ([1, 2].take room)
  send := fun bytes => (min 2 bytes.length : Nat)
  recv_le := by
    intro room data hrecv
    cases hrecv
    exact List.length_take_le _ _
  recv_fails := by
    intro room ret hrecv
    cases hrecv
  send_le := fun _ => Int.ofNat_le.mpr (Nat.min_le_right _ _)

theorem runCalls_readFixSize_pairs :
    ∃ s, runCalls (fun _ _ => 9) .little [.op (.write [7])] (fresh (fun _ _ => 9) 2) = .ok s ∧
      ∃ fuel r made s', (readFixSize (fun _ => pairs) (fun _ _ => 9) 3 fuel).run s =
          .ok (some (r, made)) s' ∧
        Filled (fun _ => pairs) 2 s made s' ∧ Outcome id 3 made r :=
  ⟨_, rfl, runCalls_readFixSize (fun _ _ => 9) .little 2 (by decide) [.op (.write [7])] _ rfl
    (fun _ => pairs) 3 (by decide)⟩

/-- Sending so much of a `ByteArray` returns, if that much is left to read. The calls took
the bytes from the cursor on, once and in order, and only the cursor has moved. -/
theorem runCalls_writeFixSize (heap : Heap) (host : Endian) (b : Nat) (hb : 1 ≤ b)
    (calls : List Call) (s : ByteArray)
    (hreach : runCalls heap host calls (fresh heap b) = .ok s) (socks : Nat → Sock) (length : Nat)
    (hlt : length < 2 ^ 31) (hroom : length ≤ s.getReadSize) :
    ∃ fuel r made s', (writeFixSize socks heap length fuel).run s = .ok (some (r, made)) s' ∧
      Drained socks b s made s' ∧ Outcome Sent.ret length made r := by
  have h := (wellFormed_fresh heap hb).of_runCalls hb heap host calls hreach
  have hstart : Drained socks b s [] s :=
    ⟨h, by simp, by simp [took], rfl, rfl, rfl, rfl⟩
  obtain ⟨r, made, s', hrun, hdrained, hout⟩ := run_transferLoop
    (fun i n => write (socks i) heap n) Sent.ret (I := Drained socks b s) hlt
    (fun made t left hmade hleft _ => Drained.step heap hb hmade (hleft ▸ hroom))
    (length + 1) length [] s hstart (by simp) (Nat.zero_add _) (Nat.lt_succ_self _)
  exact ⟨length + 1, r, made, s', hrun, hdrained, hout⟩

theorem runCalls_writeFixSize_pairs :
    ∃ s, runCalls (fun _ _ => 9) .little [.op (.write [7, 8, 9]), .op (.setPosition 0)]
        (fresh (fun _ _ => 9) 2) = .ok s ∧
      ∃ fuel r made s', (writeFixSize (fun _ => pairs) (fun _ _ => 9) 3 fuel).run s =
          .ok (some (r, made)) s' ∧
        Drained (fun _ => pairs) 2 s made s' ∧ Outcome Sent.ret 3 made r :=
  ⟨_, rfl, runCalls_writeFixSize (fun _ _ => 9) .little 2 (by decide)
    [.op (.write [7, 8, 9]), .op (.setPosition 0)] _ rfl (fun _ => pairs) 3 (by decide)
    (by decide)⟩

end Sylar.SocketStream
