import Sylar.Http.Scan

/-! One round of the loop of `recvRequest` on an empty buffer: what is read is
scanned from the front of the buffer, no assertion fails, and when all of it is
parsed the next round finds the buffer empty again. -/
namespace Sylar.Http

open Lib Lib.Blocks

variable {mem : Bytes} {p cs : Nat} {s s' : HttpRequestParser}

theorem HttpParser.rewind_bounded {lim : Nat} {parser : HttpParser} (hlim : lim ≠ 0)
    (hbody : parser.bodyStart ≤ lim) : Bounded lim 0 parser.rewind :=
  { bodyStart := hbody
    mark := Nat.pos_of_ne_zero hlim
    fieldLen := Nat.zero_le _
    fieldStart := Nat.pos_of_ne_zero hlim
    begun := Nat.le_refl 0 }

namespace HttpRequestParser

theorem httpParserExecute_eq {length : Nat} (hne : length ≠ 0) (hlen : length ≤ mem.length)
    (hbody : s.parser.bodyStart ≤ length) :
    s.httpParserExecute mem length =
      scan mem 0 s.parser.cs (mem.take length) s.rewind >>= fun x =>
        .ok (x.1, x.2.2.stopped x.1 x.2.1) := by
  rw [httpParserExecute, if_neg hne]
  cases hscan : scan mem 0 s.parser.cs (mem.take length) s.rewind with
  | error e => rfl
  | ok x =>
    have htake : 0 + (mem.take length).length = length := by
      rw [List.length_take]
      omega
    obtain ⟨hnread, hb⟩ :=
      scan_bounded htake (HttpParser.rewind_bounded hne hbody) hscan
    have hin : (x.2.2.stopped x.1 x.2.1).parser.InBounds length :=
      ⟨hnread, hb.bodyStart, hb.mark, hb.fieldLen, hb.fieldStart⟩
    exact if_pos hin

@[simp] theorem stopped_cs (h : s.parser.cs ≠ httpParserError) :
    (s.stopped p cs).parser.cs = cs := by
  simp [stopped, HttpParser.hasError, h]

@[simp] theorem hasError_stopped (h : s.parser.cs ≠ httpParserError) :
    (s.stopped p cs).hasError = (s.error != 0 || cs == httpParserError) := by
  rw [hasError, HttpParser.hasError, stopped_cs h]
  rfl

@[simp] theorem isFinished_stopped (h : s.parser.cs ≠ httpParserError)
    (hcs : cs ≠ httpParserError) :
    (s.stopped p cs).isFinished = decide (httpParserFirstFinal ≤ cs) := by
  have hcs' : (cs == httpParserError) = false := beq_false_of_ne hcs
  simp only [isFinished, HttpParser.finish, HttpParser.hasError, HttpParser.isFinished, stopped_cs h,
    hcs', Bool.false_eq_true, if_false]
  by_cases hfin : httpParserFirstFinal ≤ cs <;> simp [hfin]

end HttpRequestParser

namespace HttpSession

variable {buffSize : Nat} {c : Bytes} {reads : List Bytes}

theorem recvHead_cons (hc : c ≠ []) (hfit : c.length ≤ buffSize)
    (hbody : s.parser.bodyStart ≤ c.length) :
    recvHead buffSize (c :: reads) 0 mem s =
      scan (overwrite mem 0 c) 0 s.parser.cs c s.rewind >>= fun x =>
        let s := x.2.2.stopped x.1 x.2.1
        if s.hasError then .ok none
        else if full buffSize (c.length - x.1) then .ok none
        else
          let mem := overwrite (overwrite mem 0 c) 0
            (((overwrite mem 0 c).drop x.1).take (c.length - x.1))
          if s.isFinished then .ok (some (c.length - x.1, mem, s, reads))
          else recvHead buffSize reads (c.length - x.1) mem s := by
  have hguard : ¬(c = [] ∨ buffSize - 0 < c.length) := by simp [hc, hfit]
  have htake : (overwrite mem 0 c).take c.length = c := by
    rw [overwrite_front, List.take_left]
  have hlen : c.length ≤ (overwrite mem 0 c).length := by
    rw [overwrite_front, List.length_append]
    exact Nat.le_add_right _ _
  have hexec := HttpRequestParser.httpParserExecute_eq (mt List.length_eq_zero_iff.mp hc) hlen hbody
  rw [htake] at hexec
  rw [recvHead, if_neg hguard]
  simp only [Nat.add_zero, HttpRequestParser.execute, hexec]
  cases scan (overwrite mem 0 c) 0 s.parser.cs c s.rewind with
  | error e => rfl
  | ok x => rfl

theorem recvHead_scanned {x : Nat × Bytes × HttpRequestParser × List Bytes} (hc : c ≠ [])
    (hfit : c.length ≤ buffSize) (hbody : s.parser.bodyStart ≤ c.length)
    (h : recvHead buffSize (c :: reads) 0 mem s = .ok (some x)) :
    ∃ y, scan (overwrite mem 0 c) 0 s.parser.cs c s.rewind = .ok y ∧ y.2.2.error = 0 ∧
      full buffSize (c.length - y.1) = false := by
  rw [recvHead_cons hc hfit hbody] at h
  obtain ⟨y, hscan, h⟩ := bind_eq_ok.mp h
  refine ⟨y, hscan, ?_⟩
  rcases ite_eq_iff.mp h with ⟨-, h⟩ | ⟨herror, h⟩
  · cases h
  rcases ite_eq_iff.mp h with ⟨-, h⟩ | ⟨hroom, -⟩
  · cases h
  refine ⟨?_, Bool.eq_false_of_not_eq_true hroom⟩
  by_contra herr
  exact herror (by simp [HttpRequestParser.hasError, HttpRequestParser.stopped, herr])

theorem recvHead_taken (hc : c ≠ []) (hfit : c.length ≤ buffSize)
    (hroom : full buffSize 0 = false)
    (hbody : s.parser.bodyStart ≤ c.length) (hcs : s.parser.cs ≠ httpParserError)
    (hscan : scan (overwrite mem 0 c) 0 s.parser.cs c s.rewind = .ok (c.length, cs, s'))
    (herr : s'.error = 0) (hcs' : cs ≠ httpParserError) :
    recvHead buffSize (c :: reads) 0 mem s =
      if httpParserFirstFinal ≤ cs then
        .ok (some (0, overwrite mem 0 c, s'.stopped c.length cs, reads))
      else recvHead buffSize reads 0 (overwrite mem 0 c) (s'.stopped c.length cs) := by
  have hkept : s'.parser.cs ≠ httpParserError := by
    rw [(scan_kept hscan).2.cs]
    exact hcs
  have herror : (s'.stopped c.length cs).hasError = false := by
    rw [HttpRequestParser.hasError_stopped hkept, herr, beq_false_of_ne hcs']
    rfl
  rw [recvHead_cons hc hfit hbody, hscan]
  simp only [bind, Except.bind, herror, Nat.sub_self, List.take_zero, overwrite_nil, hroom,
    HttpRequestParser.isFinished_stopped hkept hcs', decide_eq_true_eq, Bool.false_eq_true, if_false]

theorem recvHead_ended {d : Bytes} (reads : List Bytes) (hc : c ≠ [])
    (hfit : (c ++ d).length ≤ buffSize) (hroom : full buffSize d.length = false)
    (hbody : s.parser.bodyStart ≤ (c ++ d).length) (hcs : s.parser.cs ≠ httpParserError)
    (hscan : scan (overwrite mem 0 (c ++ d)) 0 s.parser.cs (c ++ d) s.rewind =
      .ok (c.length, cs, s'))
    (herr : s'.error = 0) (hcs' : cs ≠ httpParserError) (hfinal : httpParserFirstFinal ≤ cs) :
    ∃ mem', recvHead buffSize ((c ++ d) :: reads) 0 mem s =
      .ok (some (d.length, d ++ mem', s'.stopped c.length cs, reads)) := by
  have hkept : s'.parser.cs ≠ httpParserError := by
    rw [(scan_kept hscan).2.cs]
    exact hcs
  have hlen : (c ++ d).length - c.length = d.length := by
    rw [List.length_append, Nat.add_sub_cancel_left]
  have herror : (s'.stopped c.length cs).hasError = false := by
    rw [HttpRequestParser.hasError_stopped hkept, herr, beq_false_of_ne hcs']
    rfl
  -- what is left of the read moves to the front
  have hmoved : ((overwrite mem 0 (c ++ d)).drop c.length).take d.length = d := by
    rw [overwrite_front, List.append_assoc, List.drop_left, List.take_left]
  refine ⟨(overwrite mem 0 (c ++ d)).drop d.length, ?_⟩
  rw [recvHead_cons (List.append_ne_nil_of_left_ne_nil hc d) hfit hbody, hscan]
  simp only [bind, Except.bind, herror, hlen, hmoved, hroom, hfinal, overwrite_front _ d,
    HttpRequestParser.isFinished_stopped hkept hcs', decide_true, Bool.false_eq_true, if_false,
    if_true]

theorem recvBody_front {d mem : Bytes} (lexicalCast : Bytes → Option UInt64)
    (h : s'.data = s.data) :
    recvBody lexicalCast d.length (d ++ mem) s' reads =
      recvBody lexicalCast d.length d s reads := by
  have hlen : s'.getContentLength lexicalCast = s.getContentLength lexicalCast := by
    simp only [HttpRequestParser.getContentLength, h]
  simp only [recvBody, hlen, h, List.take_left, List.take_length]
  split
  · rfl
  · split
    · rename_i hle
      rw [List.take_append_of_le_length (Int.toNat_le.mpr hle)]
    · rfl

/-- The body can be resized to the length that the head declares. -/
def Resizes (session : HttpSession) (s : HttpRequestParser) : Prop :=
  (s.getContentLength session.lexicalCast).toInt64.toInt ≤ session.free

theorem resizeBody_eq_ok {session : HttpSession} :
    session.resizeBody s = .ok () ↔ session.Resizes s := by
  have := session.free_le
  simp only [resizeBody, Resizes]
  split
  · simp only [reduceCtorEq, false_iff]
    omega
  · split <;> simp_all

theorem resizeBody_eq_error {session : HttpSession} {e : Fault}
    (h : session.resizeBody s = .error e) :
    session.free < (s.getContentLength session.lexicalCast).toInt64.toInt ∧
      (e = .lengthError ∨ e = .badAlloc) := by
  have hle := session.free_le
  rcases ite_eq_iff.mp h with ⟨hlong, h⟩ | ⟨-, h⟩
  · exact ⟨by omega, .inl (Except.error.inj h).symm⟩
  rcases ite_eq_iff.mp h with ⟨hlong, h⟩ | ⟨-, h⟩
  · exact ⟨hlong, .inr (Except.error.inj h).symm⟩
  · cases h

theorem Resizes.congr {session : HttpSession} (h : session.Resizes s) (hdata : s'.data = s.data) :
    session.Resizes s' := by
  simpa only [Resizes, HttpRequestParser.getContentLength, hdata] using h

theorem recvRequest_eq {session : HttpSession} {offset : Nat} {left : List Bytes}
    (h : recvHead session.buffSize reads 0 session.memory session.parser =
      .ok (some (offset, mem, s, left))) (hsize : session.Resizes s) :
    session.recvRequest reads = .ok (recvBody session.lexicalCast offset mem s left) := by
  simp only [recvRequest, h, bind, Except.bind, resizeBody_eq_ok.mpr hsize]
  rfl

theorem recvRequest_some {session : HttpSession} {z : HttpRequest × List Bytes}
    (h : session.recvRequest reads = .ok (some z)) :
    ∃ x, recvHead session.buffSize reads 0 session.memory session.parser = .ok (some x) ∧
      session.Resizes x.2.2.1 := by
  obtain ⟨x, hx, h⟩ := bind_eq_ok.mp h
  cases x with
  | none => cases h
  | some x =>
    obtain ⟨⟨⟩, hsize, -⟩ := bind_eq_ok.mp h
    exact ⟨x, hx, resizeBody_eq_ok.mp hsize⟩

end HttpSession

end Sylar.Http
