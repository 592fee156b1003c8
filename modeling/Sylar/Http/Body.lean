import Sylar.Http.Chunks
import Sylar.Http.Limits
import Sylar.Http.Pending

/-! The body of a message whose head says how long it is. What was read beyond the head is
the beginning of the body, and `readFixSize` reads what is missing, however much each read
brings. -/
namespace Sylar.Http

open Lib Lib.Blocks

/-- The answers `reads` begin with `more`, which bring `n` bytes without a failed `read`. -/
structure Delivered (n : Nat) (reads more rest : List Bytes) : Prop where
  split : reads = more ++ rest
  ne_nil : ∀ c ∈ more, c ≠ []
  length : more.flatten.length = n

/-- What a call makes of a body of `length` bytes, with `surplus` in the buffer after the
head and the answers `left` for the reads to come. The bytes that are missing come, and no
others are taken; or the stream ends or fails before that, and the call closes the
connection and returns nothing. -/
structure TakesBody {α : Type} (answer : Except Fault (Option (α × List Bytes)))
    (body : α → Bytes) (surplus : Bytes) (left : List Bytes) (length : Nat) : Prop where
  whole : ∀ more rest, Delivered (length - surplus.length) left more rest →
    ∃ msg, answer = .ok (some (msg, rest)) ∧ body msg = (surplus ++ left.flatten).take length
  broken : (∀ more rest, ¬ Delivered (length - surplus.length) left more rest) →
    answer = .ok none

section Fill

variable {length offset : Nat} {mem : Bytes} {reads : List Bytes}

/-- A body of `length` bytes, of which `offset` bytes at most are in the buffer. -/
def fillBody (length offset : Nat) (mem : Bytes) (reads : List Bytes) :
    Option (Bytes × List Bytes) :=
  (HttpSession.readFixSize (length - offset) reads).map fun x =>
    ((mem.take offset ++ x.1).take length, x.2)

theorem int_positive {n : Nat} (hpos : 0 < n) (hlt : n < 2 ^ 31) : ¬ Int32.ofNat n ≤ 0 := by
  have hvalue : (Int32.ofNat n).toInt = n := Int32.toInt_ofNat_of_lt hlt
  rw [Int32.le_iff_toInt_le, hvalue]
  exact Int.not_le.mpr (Int.natCast_pos.mpr hpos)

/-- The part that `recvRequest` and `recvResponse` have in common: below `2 ^ 31` the three
cases for the surplus are one. -/
theorem fillBody_eq {α : Type} (unset : α) (set : Bytes → α) (hpos : 1 ≤ length)
    (hlt : length < 2 ^ 31) :
    (if (length : Int) ≤ 0 then some (unset, reads)
      else if (length : Int) ≤ offset then some (set (mem.take (length : Int).toNat), reads)
      else if Int32.ofNat ((length : Int).toNat - offset) ≤ 0 then none
      else do
        let (bytes, reads) ← HttpSession.readFixSize ((length : Int).toNat - offset) reads
        return (set (mem.take offset ++ bytes), reads)) =
      (fillBody length offset mem reads).map fun x => (set x.1, x.2) := by
  rw [if_neg (by omega), Int.toNat_natCast, fillBody]
  by_cases hle : length ≤ offset
  · -- all of it is in the buffer
    rw [if_pos (Int.ofNat_le.mpr hle), Nat.sub_eq_zero_of_le hle, HttpSession.readFixSize.eq_1,
      Option.map_some, Option.map_some, List.append_nil, List.take_take, Nat.min_eq_left hle]
  · rw [if_neg (mt Int.ofNat_le.mp hle), if_neg (int_positive (by omega) (by omega))]
    cases hread : HttpSession.readFixSize (length - offset) reads with
    | none => rfl
    | some x =>
      obtain ⟨-, -, -, -, hlen⟩ := HttpSession.readFixSize_split hread
      have hwhole : (mem.take offset ++ x.1).length ≤ length := by
        rw [List.length_append, List.length_take, hlen]
        omega
      rw [Option.map_some, Option.map_some, List.take_of_length_le hwhole]
      rfl

theorem fillBody_delivered {more rest : List Bytes} (hoffset : offset ≤ mem.length)
    (h : Delivered (length - offset) reads more rest) :
    fillBody length offset mem reads =
      some ((mem.take offset ++ reads.flatten).take length, rest) := by
  have hread : HttpSession.readFixSize (length - offset) reads = some (more.flatten, rest) := by
    rw [h.split, ← h.length]
    exact HttpSession.readFixSize_flatten rest h.ne_nil
  have hlen : length ≤ (mem.take offset ++ more.flatten).length := by
    rw [List.length_append, List.length_take, h.length]
    omega
  rw [fillBody, hread, Option.map_some, h.split, List.flatten_append, ← List.append_assoc,
    List.take_append_of_le_length hlen]

theorem fillBody_broken (h : ∀ more rest, ¬ Delivered (length - offset) reads more rest) :
    fillBody length offset mem reads = none := by
  rw [fillBody, Option.map_eq_none_iff, Option.eq_none_iff_forall_ne_some]
  rintro ⟨bytes, rest⟩ hread
  obtain ⟨more, hsplit, hne, rfl, hlen⟩ := HttpSession.readFixSize_split hread
  exact h more rest ⟨hsplit, hne, hlen⟩

theorem takesBody_of_fill {α : Type} {answer : Except Fault (Option (α × List Bytes))}
    {body : α → Bytes} (set : Bytes → α) (hset : ∀ bytes, body (set bytes) = bytes)
    (hoffset : offset ≤ mem.length)
    (h : answer = .ok ((fillBody length offset mem reads).map fun x => (set x.1, x.2))) :
    TakesBody answer body (mem.take offset) reads length := by
  have hlen : (mem.take offset).length = offset := List.length_take_of_le hoffset
  constructor
  · intro more rest hcome
    rw [hlen] at hcome
    refine ⟨set ((mem.take offset ++ reads.flatten).take length), ?_, hset _⟩
    rw [h, fillBody_delivered hoffset hcome, Option.map_some]
  · intro hnone
    rw [hlen] at hnone
    rw [h, fillBody_broken hnone, Option.map_none]

end Fill

namespace HttpSession

variable {lexicalCast : Bytes → Option UInt64} {length offset : Nat} {mem : Bytes}
  {s : HttpRequestParser} {reads : List Bytes}

theorem recvBody_fill (hlen : (s.getContentLength lexicalCast).toNat = length) (hpos : 1 ≤ length)
    (hlt : length < 2 ^ 31) :
    recvBody lexicalCast offset mem s reads =
      (fillBody length offset mem reads).map fun x => ({ s.data with body := x.1 }.init, x.2) := by
  simp only [recvBody, toInt_of_toNat hlen (by omega)]
  exact fillBody_eq s.data.init (fun body => { s.data with body }.init) hpos hlt

end HttpSession

namespace ResponseCall

variable {lexicalCast : Bytes → Option UInt64} {length offset : Nat} {mem : Bytes}
  {s : HttpResponseParser} {reads left : List Bytes} {call : ResponseCall}

theorem recvBody_fill (hlen : (s.getContentLength lexicalCast).toNat = length) (hpos : 1 ≤ length)
    (hlt : length < 2 ^ 31) :
    recvBody lexicalCast offset mem s reads =
      (fillBody length offset mem reads).map fun x => ({ s.data with body := x.1 }, x.2) := by
  simp only [recvBody, HttpSession.toInt_of_toNat hlen (by omega)]
  exact fillBody_eq s.data (fun body => { s.data with body }) hpos hlt

theorem recvResponse_plain
    (h : recvHead call.buffSize reads 0 call.memory call.parser = .ok (some (offset, mem, s, left)))
    (hplain : s.parser.chunked = false) :
    call.recvResponse reads = .ok (recvBody call.lexicalCast offset mem s left) := by
  simp only [recvResponse, h, bind, Except.bind, hplain, Bool.false_eq_true, if_false]
  rfl

end ResponseCall

/-- After a request head or the head of a response that is not chunked, with a length of at
least one byte and below `2 ^ 31`, the body is what follows the head in the stream, and the
reads are asked for what is missing of it in the buffer. -/
theorem body_follows_head :
    (∀ (session : HttpSession) (reads left : List Bytes) (offset length : Nat) (mem : Bytes)
        (s : HttpRequestParser),
      HttpSession.recvHead session.buffSize reads 0 session.memory session.parser =
        .ok (some (offset, mem, s, left)) →
      (s.getContentLength session.lexicalCast).toNat = length → 1 ≤ length → length < 2 ^ 31 →
      ∃ head surplus, reads.flatten = head ++ (surplus ++ left.flatten) ∧
        surplus.length = offset ∧ completes session.uriRelaxed httpParserStart head ∧
        TakesBody (session.recvRequest reads) HttpRequest.body surplus left length) ∧
    (∀ (call : ResponseCall) (reads left : List Bytes) (offset length : Nat) (mem : Bytes)
        (s : HttpResponseParser),
      ResponseCall.recvHead call.buffSize reads 0 call.memory call.parser =
        .ok (some (offset, mem, s, left)) →
      s.parser.chunked = false →
      (s.getContentLength call.lexicalCast).toNat = length → 1 ≤ length → length < 2 ^ 31 →
      ∃ head surplus, reads.flatten = head ++ (surplus ++ left.flatten) ∧
        surplus.length = offset ∧
        Client.run Client.httpclientParserStart head = some Client.httpclientParserFirstFinal ∧
        TakesBody (call.recvResponse reads) HttpResponse.body surplus left length) := by
  constructor
  · intro session reads left offset length mem s hhead hlen hpos hlt
    obtain ⟨⟨head, hstream, hcompletes⟩, hoffset, -⟩ :=
      HttpSession.recvHead_head (HttpSession.parser_reading session) session.fits hhead
    have hsize : session.Resizes s := by
      have hroom := session.room
      rw [HttpSession.Resizes, HttpSession.toInt_of_toNat hlen (by omega)]
      omega
    refine ⟨head, mem.take offset, hstream, List.length_take_of_le hoffset, hcompletes, ?_⟩
    apply takesBody_of_fill (fun body => { s.data with body }.init)
      (fun _ => HttpSession.body_init _) hoffset
    rw [HttpSession.recvRequest_eq hhead hsize, HttpSession.recvBody_fill hlen hpos hlt]
  · intro call reads left offset length mem s hhead hplain hlen hpos hlt
    obtain ⟨hheld, -, head, hstream, hrun⟩ := call.head_taken hhead
    refine ⟨head, mem.take offset, hstream, List.length_take_of_le hheld.le, hrun, ?_⟩
    apply takesBody_of_fill (fun body => { s.data with body }) (fun _ => rfl) hheld.le
    rw [ResponseCall.recvResponse_plain hhead hplain, ResponseCall.recvBody_fill hlen hpos hlt]

namespace ResponseCall

def plain : ResponseCall := { tiny with lexicalCast := HttpServer.roomy.lexicalCast }

def plainLines : List Bytes :=
  [ascii ['H', 'T', 'T', 'P', '/', '1', '.', '1', ' ', '2', '0', '0', ' ', 'O', 'K'],
    ascii ['C', 'o', 'n', 't', 'e', 'n', 't', '-', 'L', 'e', 'n', 'g', 't', 'h', ':', '2'], []]

def plainHead : Bytes := (plainLines.map (· ++ [13, 10])).flatten

def plainParsed : HttpResponseParser :=
  { parser :=
      { HttpclientParser.init 200 with
        cs := 120, bodyStart := 37, contentLen := 2, nread := 37, mark := 32, fieldStart := 17
        fieldLen := 14 }
    data :=
      { HttpResponse.fresh with
        reason := ascii ['O', 'K']
        headers :=
          [(ascii ['C', 'o', 'n', 't', 'e', 'n', 't', '-', 'L', 'e', 'n', 'g', 't', 'h'],
            ascii ['2'])] }
    error := 0 }

end ResponseCall

open HttpServer (roomy put)
open ResponseCall (plain plainHead plainParsed)

theorem body_follows_head_two :
    (∃ req, roomy.recvRequest [put.head ++ [111], [107], [120]] = .ok (some (req, [[120]])) ∧
      req.body = [111, 107]) ∧
    (∃ rsp, plain.recvResponse [plainHead ++ [111], [107], [120]] = .ok (some (rsp, [[120]])) ∧
      rsp.body = [111, 107]) := by
  -- of the three bytes after a head, the first is in the buffer
  have hbody : ∀ (front : Bytes) {head surplus : Bytes},
      front ++ [111, 107, 120] = head ++ (surplus ++ [107, 120]) →
      surplus.length = 1 → (surplus ++ [107, 120]).take 2 = [111, 107] := by
    intro front head surplus hstream hlen
    rw [← (List.append_inj' hstream (by simp [hlen])).2]
    rfl
  constructor
  · obtain ⟨head, surplus, hstream, hlen, -, htakes⟩ := body_follows_head.1 roomy
      [put.head ++ [111], [107], [120]] [[107], [120]] 1 2
      (overwrite (overwrite roomy.memory 0 (put.head ++ [111])) 0 [111]) put.parsed
      (by decide +kernel) (by decide) (by decide) (by decide)
    obtain ⟨req, hreq, htext⟩ :=
      htakes.whole [[107]] [[120]] ⟨rfl, by decide, by rw [hlen]; rfl⟩
    exact ⟨req, hreq, htext.trans (hbody put.head hstream hlen)⟩
  · obtain ⟨head, surplus, hstream, hlen, -, htakes⟩ := body_follows_head.2 plain
      [plainHead ++ [111], [107], [120]] [[107], [120]] 1 2
      (overwrite (overwrite (overwrite plain.memory 0 (plainHead ++ [111])) 38 [0]) 0 [111])
      plainParsed (by decide +kernel) (by decide) (by decide) (by decide) (by decide)
    obtain ⟨rsp, hrsp, htext⟩ :=
      htakes.whole [[107]] [[120]] ⟨rfl, by decide, by rw [hlen]; rfl⟩
    exact ⟨rsp, hrsp, htext.trans (hbody plainHead hstream hlen)⟩

end Sylar.Http
