import Sylar.Http.Server

/-! How long a request can be that `recvRequest` returns. Its head is the part of the stream
that the automaton completes, however it is cut into reads; every read fits into the buffer,
but a round that parses all it has read empties the buffer for the next one. The body is as
long as the head says, and nothing compares that with a limit. -/
namespace Sylar.Http

open Lib Lib.Blocks

namespace HttpSession

/-- The head of a stream: where the automaton is done. -/
def IsHead (session : HttpSession) (stream head : Bytes) : Prop :=
  head <+: stream ∧ completes session.uriRelaxed httpParserStart head

end HttpSession

section Scan

variable {mem : Bytes} {p cs : Nat} {bs : Bytes} {s : HttpRequestParser} {r : Bool}

theorem scan_stopped {x : Nat × Nat × HttpRequestParser} (h : scan mem p cs bs s = .ok x)
    (hcs : cs < httpParserFirstFinal) (hne : x.2.1 ≠ httpParserError) :
    (x.2.1 < httpParserFirstFinal ∧ x.1 = p + bs.length ∧
        ∀ more, completes s.parser.uriRelaxed cs (bs ++ more) =
          completes s.parser.uriRelaxed x.2.1 more) ∨
      (httpParserFirstFinal ≤ x.2.1 ∧ ∃ head surplus, bs = head ++ surplus ∧ x.1 = p + head.length ∧
        completes s.parser.uriRelaxed cs head) := by
  induction bs generalizing p cs s with
  | nil =>
    obtain rfl := Except.ok.inj h
    exact .inl ⟨hcs, rfl, fun _ => rfl⟩
  | cons b bs ih =>
    rcases scan_cons h with ⟨-, rfl⟩ | ⟨arc, s₁, hn, h₁, ⟨hd, rfl⟩ | ⟨hd, h⟩⟩
    · exact absurd rfl hne
    · refine .inr ⟨(next_target hn).2.mpr hd, [b], bs, rfl, rfl, ?_⟩
      simp only [completes, hn, if_pos hd, List.isEmpty_nil]
    · have htarget : arc.target < httpParserFirstFinal :=
        Nat.lt_of_not_le fun hle => hd ((next_target hn).2.mp hle)
      have hrelaxed := (acts_kept h₁).uriRelaxed
      rcases ih h htarget with ⟨hlt, hall, hgo⟩ | ⟨hfinal, head, surplus, rfl, hread, hhead⟩
      · refine .inl ⟨hlt, ?_, fun more => ?_⟩
        · rw [hall, List.length_cons]
          omega
        · rw [List.cons_append, completes_cons hn hd, ← hrelaxed]
          exact hgo more
      · refine .inr ⟨hfinal, b :: head, surplus, rfl, ?_, ?_⟩
        · rw [hread, List.length_cons]
          omega
        · rw [completes_cons hn hd, ← hrelaxed]
          exact hhead

theorem completes_unique {head head' : Bytes} (h : completes r cs head)
    (h' : completes r cs head') (hle : head <+: head') : head = head' := by
  induction head generalizing cs head' with
  | nil => cases h
  | cons b head ih =>
    obtain ⟨more, rfl⟩ := hle
    obtain ⟨arc, hn, ⟨hd, rfl⟩ | ⟨hd, h⟩⟩ := completes_next h
    · rw [List.cons_append, List.nil_append] at h' ⊢
      simp only [completes, hn, if_pos hd, List.isEmpty_iff] at h'
      rw [h']
    · rw [List.cons_append, completes_cons hn hd] at h'
      rw [List.cons_append, ← ih h h' (List.prefix_append _ _)]

end Scan

structure Reading (s : HttpRequestParser) : Prop where
  cs : s.parser.cs ≠ httpParserError
  unfinished : s.parser.cs < httpParserFirstFinal
  bodyStart : s.parser.bodyStart = 0
  body : s.data.body = []

theorem Reading.stopped {mem bs : Bytes} {s : HttpRequestParser}
    {x : Nat × Nat × HttpRequestParser}
    (h : Reading s) (hscan : scan mem 0 s.parser.cs bs s.rewind = .ok x)
    (hne : x.2.1 ≠ httpParserError) (hlt : x.2.1 < httpParserFirstFinal) :
    Reading (x.2.2.stopped x.1 x.2.1) := by
  have hkept := (scan_kept hscan).2
  have hcs : x.2.2.parser.cs ≠ httpParserError := by
    rw [hkept.cs]
    exact h.cs
  have hstop : (x.2.2.stopped x.1 x.2.1).parser.cs = x.2.1 := HttpRequestParser.stopped_cs hcs
  refine ⟨?_, ?_, (hkept.bodyStart hlt).trans h.bodyStart, (scan_body hscan).trans h.body⟩
  · rw [hstop]
    exact hne
  · rw [hstop]
    exact hlt

namespace HttpSession

variable {buffSize offset : Nat} {c : Bytes} {reads left : List Bytes} {mem mem' : Bytes}
  {s s' : HttpRequestParser}

theorem parser_reading (session : HttpSession) : Reading session.parser where
  cs := show httpParserStart ≠ httpParserError by decide
  unfinished := show httpParserStart < httpParserFirstFinal by decide
  bodyStart := rfl
  body := rfl

/-- A round of the loop ends the call, ends the head in its read, or parses all of the read
and leaves the buffer empty to the next one. -/
theorem recvHead_cases {x : Nat × Nat × HttpRequestParser} (hs : Reading s) (hc : c ≠ [])
    (hfit : c.length ≤ buffSize)
    (hscan : scan (overwrite mem 0 c) 0 s.parser.cs c s.rewind = .ok x) :
    recvHead buffSize (c :: reads) 0 mem s = .ok none ∨
    (∃ head surplus, c = head ++ surplus ∧ completes s.parser.uriRelaxed s.parser.cs head ∧
      recvHead buffSize (c :: reads) 0 mem s = .ok (some (surplus.length,
        overwrite (overwrite mem 0 c) 0 surplus, x.2.2.stopped x.1 x.2.1, reads))) ∨
    (x.1 = c.length ∧ x.2.1 ≠ httpParserError ∧ x.2.1 < httpParserFirstFinal ∧
      (∀ more, completes s.parser.uriRelaxed s.parser.cs (c ++ more) =
        completes s.parser.uriRelaxed x.2.1 more) ∧
      recvHead buffSize (c :: reads) 0 mem s =
        recvHead buffSize reads 0 (overwrite mem 0 c) (x.2.2.stopped x.1 x.2.1)) := by
  have hcs : x.2.2.parser.cs ≠ httpParserError := by
    rw [(scan_kept hscan).2.cs]
    exact hs.cs
  rw [recvHead_cons hc hfit (hs.bodyStart ▸ Nat.zero_le _), hscan, ok_bind]
  simp only [HttpRequestParser.hasError_stopped hcs]
  by_cases hne : x.2.1 = httpParserError
  · exact .inl (if_pos (by simp [hne]))
  simp only [HttpRequestParser.isFinished_stopped hcs hne]
  split
  · exact .inl rfl
  split
  · exact .inl rfl
  rcases scan_stopped hscan hs.unfinished hne with
    ⟨hlt, hall, hgo⟩ | ⟨hfinal, head, surplus, rfl, hread, hhead⟩
  · rw [Nat.zero_add] at hall
    refine .inr (.inr ⟨hall, hne, hlt, hgo, ?_⟩)
    rw [if_neg (by simpa using hlt), hall, Nat.sub_self, List.take_zero, overwrite_nil]
  · rw [Nat.zero_add] at hread
    have hlen : (head ++ surplus).length - head.length = surplus.length := by
      rw [List.length_append, Nat.add_sub_cancel_left]
    have hfront : ((overwrite mem 0 (head ++ surplus)).drop head.length).take surplus.length =
        surplus := by
      rw [overwrite_front, List.append_assoc, List.drop_left, List.take_left]
    refine .inr (.inl ⟨head, surplus, rfl, hhead, ?_⟩)
    rw [if_pos (by simpa using hfinal), hread, hlen, hfront]

/-- A head that `recvRequest` has read is the front of the stream that the automaton
completes, and what was read beyond it lies in the buffer. -/
theorem recvHead_head (hs : Reading s) (hmem : buffSize ≤ mem.length)
    (h : recvHead buffSize reads 0 mem s = .ok (some (offset, mem', s', left))) :
    (∃ head, reads.flatten = head ++ (mem'.take offset ++ left.flatten) ∧
        completes s.parser.uriRelaxed s.parser.cs head) ∧
      offset ≤ mem'.length ∧ s'.data.body = [] := by
  induction reads generalizing mem s with
  | nil => cases h
  | cons c reads ih =>
    by_cases hguard : c = [] ∨ buffSize - 0 < c.length
    · rw [recvHead, if_pos hguard] at h
      cases h
    obtain ⟨hc, hfit⟩ := not_or.mp hguard
    replace hfit : c.length ≤ buffSize := Nat.le_of_not_lt hfit
    have hlen : (overwrite mem 0 c).length = mem.length := length_overwrite _ _ _ (by omega)
    obtain ⟨x, hscan, -⟩ :=
      bind_eq_ok.mp (recvHead_cons hc hfit (hs.bodyStart ▸ Nat.zero_le _) ▸ h)
    rcases recvHead_cases hs hc hfit hscan with
      hnone | ⟨head, surplus, rfl, hhead, hsome⟩ | ⟨-, hne, hlt, hgo, hnext⟩
    · cases hnone.symm.trans h
    · rw [hsome] at h
      simp only [Except.ok.injEq, Option.some.injEq, Prod.mk.injEq] at h
      obtain ⟨rfl, rfl, rfl, rfl⟩ := h
      rw [overwrite_front _ surplus]
      refine ⟨⟨head, ?_, hhead⟩, by simp, (scan_body hscan).trans hs.body⟩
      rw [List.take_left, List.flatten_cons, List.append_assoc]
    · have hcs : x.2.2.parser.cs ≠ httpParserError := (scan_kept hscan).2.cs ▸ hs.cs
      have hrelaxed : (x.2.2.stopped x.1 x.2.1).parser.uriRelaxed = s.parser.uriRelaxed :=
        (scan_kept hscan).2.uriRelaxed
      rw [hnext] at h
      obtain ⟨⟨head, hfront, hhead⟩, hoffset, hbody⟩ :=
        ih (hs.stopped hscan hne hlt) (hmem.trans_eq hlen.symm) h
      rw [HttpRequestParser.stopped_cs hcs, hrelaxed] at hhead
      refine ⟨⟨c ++ head, ?_, (hgo head).trans hhead⟩, hoffset, hbody⟩
      rw [List.flatten_cons, hfront, List.append_assoc]

@[simp] theorem body_init (req : HttpRequest) : req.init.body = req.body := by
  unfold HttpRequest.init
  simp only
  split <;> rfl

theorem IsHead.unique {session : HttpSession} {stream head head' : Bytes}
    (h : session.IsHead stream head) (h' : session.IsHead stream head') : head = head' := by
  rcases List.prefix_or_prefix_of_prefix h.1 h'.1 with hle | hle
  · exact completes_unique h.2 h'.2 hle
  · exact (completes_unique h'.2 h.2 hle).symm

open HttpServer (Sent)

end HttpSession

end Sylar.Http
