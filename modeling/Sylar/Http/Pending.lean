import Sylar.Http.SizeLine

/-! What the parser of a response takes from its stream. The bytes to come are those in
the buffer and those of the reads after it. A call of the parser takes the bytes that the
automaton ran over and moves the others to the front of the buffer, so none is lost and
none is taken twice, wherever the stream is cut. -/
namespace Sylar.Http

open Lib Lib.Blocks

namespace Client

variable {mem bs : Bytes} {p cs : Nat} {s : HttpResponseParser}

def run : Nat → Bytes → Option Nat
  | cs, [] => some cs
  | cs, b :: bs => (next cs b).bind fun arc => run arc.target bs

@[simp] theorem run_append (cs : Nat) (as bs : Bytes) :
    run cs (as ++ bs) = (run cs as).bind fun cs => run cs bs := by
  induction as generalizing cs with
  | nil => rfl
  | cons a as ih =>
    simp only [List.cons_append, run, ih, Option.bind_assoc]

theorem scan_run {x : Nat × Nat × HttpResponseParser} (h : scan mem p cs bs s = .ok x)
    (hne : x.2.1 ≠ httpclientParserError) :
    ∃ front back, bs = front ++ back ∧ x.1 = p + front.length ∧ run cs front = some x.2.1 := by
  induction bs generalizing p cs s with
  | nil =>
    obtain rfl := Except.ok.inj h
    exact ⟨[], [], rfl, rfl, rfl⟩
  | cons b bs ih =>
    rw [scan] at h
    cases hn : next cs b with
    | none =>
      rw [hn] at h
      obtain rfl := Except.ok.inj h
      exact absurd rfl hne
    | some arc =>
      rw [hn] at h
      obtain ⟨s₁, -, h⟩ := bind_eq_ok.mp h
      rcases ite_eq_iff.mp h with ⟨-, h⟩ | ⟨-, h⟩
      · obtain rfl := Except.ok.inj h
        refine ⟨[b], bs, rfl, rfl, ?_⟩
        simp only [run, hn, Option.bind_some]
      · obtain ⟨front, back, rfl, hp, hrun⟩ := ih h
        refine ⟨b :: front, back, rfl, ?_, ?_⟩
        · rw [hp, List.length_cons]
          omega
        · simp only [run, hn, Option.bind_some, hrun]

end Client

/-- The bytes to come: `length` of them in the buffer, then those of the reads. -/
def pending (length : Nat) (mem : Bytes) (reads : List Bytes) : Bytes :=
  mem.take length ++ reads.flatten

/-- The buffer holds `length` bytes and has room for `buffSize` and the null. -/
structure Holds (buffSize length : Nat) (mem : Bytes) : Prop where
  fits : length ≤ buffSize
  room : buffSize + 1 ≤ mem.length

theorem Holds.le {buffSize length : Nat} {mem : Bytes} (h : Holds buffSize length mem) :
    length ≤ mem.length := by
  have := h.fits
  have := h.room
  omega

theorem pending_read {length : Nat} {mem c : Bytes} (h : length ≤ mem.length)
    (reads : List Bytes) :
    pending (length + c.length) (overwrite mem length c) reads =
      pending length mem (c :: reads) := by
  rw [pending, take_overwrite_end mem length c h, pending, List.flatten_cons, List.append_assoc]

theorem Holds.read {buffSize length : Nat} {mem c : Bytes} (h : Holds buffSize length mem)
    (hc : c.length ≤ buffSize - length) :
    Holds buffSize (length + c.length) (overwrite mem length c) := by
  have hfits := h.fits
  have hroom := h.room
  refine ⟨by omega, ?_⟩
  rw [length_overwrite _ _ _ (by omega)]
  exact hroom

theorem Holds.null {buffSize length : Nat} {mem : Bytes} (h : Holds buffSize length mem) :
    Holds buffSize length (overwrite mem length [0]) ∧
      (overwrite mem length [0]).take length = mem.take length := by
  have hlt : length + 1 ≤ mem.length := Nat.le_trans (Nat.succ_le_succ h.fits) h.room
  constructor
  · refine ⟨h.fits, ?_⟩
    rw [length_overwrite _ _ _ hlt]
    exact h.room
  · rw [overwrite, List.append_assoc]
    apply List.take_left'
    rw [List.length_take, Nat.min_eq_left h.le]

namespace HttpResponseParser

variable {buffSize length : Nat} {mem : Bytes} {s : HttpResponseParser}

theorem hasError_eq_false (h : s.hasError = false) :
    s.error = 0 ∧ s.parser.cs ≠ Client.httpclientParserError := by
  simpa [hasError, HttpclientParser.hasError] using h

theorem execute_taken {chunck : Bool} {x : Nat × Bytes × HttpResponseParser}
    (hheld : Holds buffSize length mem) (h : s.execute mem length chunck = .ok x)
    (hcs : chunck = true ∨ s.parser.cs ≠ Client.httpclientParserError)
    (herror : x.2.2.hasError = false) :
    ∃ front, mem.take length = front ++ x.2.1.take (length - x.1) ∧
      Holds buffSize (length - x.1) x.2.1 ∧
      Client.run (if chunck then Client.httpclientParserStart else s.parser.cs) front =
        some x.2.2.parser.cs := by
  obtain ⟨p, cs, s₁, hscan, -, rfl⟩ := execute_scanned h hcs
  have hne : cs ≠ Client.httpclientParserError := (hasError_eq_false herror).2
  obtain ⟨front, back, hsplit, hp, hrun⟩ := Client.scan_run hscan hne
  obtain rfl : p = front.length := hp.trans (Nat.zero_add _)
  have hlen : front.length + back.length = length := by
    rw [← List.length_append, ← hsplit, List.length_take, Nat.min_eq_left hheld.le]
  -- what is left of the bytes moves to the front
  have hmoved : (mem.drop front.length).take (length - front.length) = back := by
    rw [← List.drop_take, hsplit, List.drop_left]
  have hfits := hheld.fits
  have hroom := hheld.room
  have hrest : length - front.length = back.length := by omega
  refine ⟨front, ?_, ⟨?_, ?_⟩, hrun⟩
  · simp only [hmoved]
    rw [hrest, overwrite_front, List.take_left, hsplit]
  · exact (Nat.sub_le _ _).trans hfits
  · simp only [hmoved]
    rw [length_overwrite _ _ _ (by omega)]
    exact hroom

end HttpResponseParser

namespace ResponseCall

variable {buffSize offset o : Nat} {mem mem' : Bytes} {reads left : List Bytes}
  {s s' : HttpResponseParser}

/-- A head that `recvResponse` has read is the front of the stream that the automaton comes
to its end over, and what was read beyond it lies in the buffer. -/
theorem recvHead_taken (hheld : Holds buffSize offset mem)
    (hcs : s.parser.cs ≠ Client.httpclientParserError)
    (h : recvHead buffSize reads offset mem s = .ok (some (o, mem', s', left))) :
    Holds buffSize o mem' ∧ s'.hasError = false ∧
      ∃ head, pending offset mem reads = head ++ pending o mem' left ∧
        Client.run s.parser.cs head = some Client.httpclientParserFirstFinal := by
  induction reads generalizing offset mem s with
  | nil => cases h
  | cons c reads ih =>
    rw [recvHead] at h
    rcases ite_eq_iff.mp h with ⟨-, h⟩ | ⟨hguard, h⟩
    · cases h
    have hc : c.length ≤ buffSize - offset := Nat.le_of_not_lt (not_or.mp hguard).2
    rw [Nat.add_comm c.length] at h
    obtain ⟨⟨n, mem₁, s₁⟩, hexec, h⟩ := bind_eq_ok.mp h
    rcases ite_eq_iff.mp h with ⟨-, h⟩ | ⟨herror, h⟩
    · cases h
    replace herror : s₁.hasError = false := Bool.not_eq_true _ ▸ herror
    obtain ⟨hnull, htake⟩ := (hheld.read hc).null
    obtain ⟨front, hsplit, hheld₁, hrun⟩ :=
      HttpResponseParser.execute_taken hnull hexec (.inr hcs) herror
    rw [htake] at hsplit
    -- the round takes `front` from the bytes to come
    have hround : pending offset mem (c :: reads) =
        front ++ pending (offset + c.length - n) mem₁ reads := by
      rw [← pending_read hheld.le, pending, hsplit, List.append_assoc]
      rfl
    rcases ite_eq_iff.mp h with ⟨-, h⟩ | ⟨-, h⟩
    · cases h
    rcases ite_eq_iff.mp h with ⟨hfin, h⟩ | ⟨-, h⟩
    · simp only [pure, Except.pure, Except.ok.injEq, Option.some.injEq, Prod.mk.injEq] at h
      obtain ⟨rfl, rfl, rfl, rfl⟩ := h
      have hfinal : s₁.parser.cs = Client.httpclientParserFirstFinal := beq_iff_eq.mp hfin
      exact ⟨hheld₁, herror, front, hround, hrun.trans (congrArg some hfinal)⟩
    · obtain ⟨hheld', herror', head, hrest, hhead⟩ :=
        ih hheld₁ (HttpResponseParser.hasError_eq_false herror).2 h
      refine ⟨hheld', herror', front ++ head, ?_, ?_⟩
      · rw [hround, hrest, List.append_assoc]
      · rw [Client.run_append]
        simp only [Bool.false_eq_true, if_false] at hrun
        rw [hrun]
        exact hhead

theorem head_taken (call : ResponseCall)
    (h : recvHead call.buffSize reads 0 call.memory call.parser = .ok (some (o, mem', s', left))) :
    Holds call.buffSize o mem' ∧ s'.hasError = false ∧
      ∃ head, reads.flatten = head ++ pending o mem' left ∧
        Client.run Client.httpclientParserStart head = some Client.httpclientParserFirstFinal := by
  have hheld : Holds call.buffSize 0 call.memory := ⟨Nat.zero_le _, call.fits⟩
  have hcs : call.parser.parser.cs ≠ Client.httpclientParserError :=
    show Client.httpclientParserStart ≠ Client.httpclientParserError by decide
  obtain ⟨hheld', herror, head, hstream, hrun⟩ := recvHead_taken hheld hcs h
  rw [pending, List.take_zero, List.nil_append] at hstream
  exact ⟨hheld', herror, head, hstream, hrun⟩

end ResponseCall

end Sylar.Http
