import Sylar.Http.ClientFills

/-! `HttpResponse::dump` and its way back through `HttpConnection::recvResponse`. The client
takes the status, the reason and the headers from the text; what the text says about the
connection it stores as a header and not in the flag. -/
namespace Sylar.Http

open Lib Lib.Blocks Lib.Numerals
open Scanner (Lies)
open HttpRequest (crlf connectionKey contentLengthKey closeText)

namespace HttpResponse

structure Printable (rsp : HttpResponse) : Prop where
  version : rsp.version = 0x10 ∨ rsp.version = 0x11
  status : -2 ^ 31 ≤ rsp.status ∧ rsp.status < 2 ^ 31
  reason : ∀ b ∈ rsp.reason, b ≠ 10 ∧ b ≠ 13
  ordered : rsp.headers.Ordered
  plain : ∀ i ∈ rsp.headers, Client.Plain i

/-- The response that the client receives. The flag keeps its value from the constructor. -/
def received (rsp : HttpResponse) : HttpResponse :=
  { rsp with close := true, reason := rsp.dumpReason, headers := rsp.headers.setAll rsp.added }

end HttpResponse

section Numbers

variable {ds g : Bytes} {b : UInt8}

theorem digit_value : ∀ b : UInt8, isDigit b = true →
    digitValue b = b.toNat - 48 ∧ digitValue b < 10 :=
  forall_byte (by decide +kernel)

theorem value_eq_ofDigits (hdigits : ∀ b ∈ ds, isDigit b = true) :
    value ds = Nat.ofDigits 10 (ds.map digitValue).reverse := by
  rw [← foldl_digits, List.foldl_map, value]
  apply List.foldl_ext
  intro n d hd
  rw [(digit_value d (hdigits d hd)).1]

theorem strtol_decimal (hne : ds ≠ []) (hdigits : ∀ b ∈ ds, isDigit b = true)
    (hb : 10 ≤ digitValue b) : strtol 10 (ds ++ b :: g) = min (value ds : Int) (2 ^ 63 - 1) := by
  have hskip : skipHex 10 (ds ++ b :: g) = ds ++ b :: g := by
    unfold skipHex
    split <;> simp_all
  rw [strtol_digits (by decide) hne (fun d hd => (digit_value d (hdigits d hd)).2) hb hskip,
    value_eq_ofDigits hdigits]

theorem toInt_status {status : Int} (h : -2 ^ 31 ≤ status ∧ status < 2 ^ 31) :
    toInt (min ((status % 2 ^ 32).toNat : Int) (2 ^ 63 - 1)) = status := by
  have hrange : 0 ≤ status % 2 ^ 32 ∧ status % 2 ^ 32 < 2 ^ 32 := by omega
  rw [Int.toNat_of_nonneg hrange.1, min_eq_left (by omega), toInt]
  have hmod : (status % ((2 ^ 32 : Nat) : Int)).bmod (2 ^ 32) = status.bmod (2 ^ 32) :=
    Int.emod_bmod _ _
  exact hmod.trans (Int.bmod_eq_of_le (by omega) (by omega))

end Numbers

namespace Client

section StatusLine

variable {w mem : Bytes} {d : UInt8} {cs cs' : Nat}

theorem Fills.of_act {b : UInt8} {c n : Nat} {a : Action} {fill : HttpResponse → HttpResponse}
    (hfirst : next cs b = some ⟨[.mark], c⟩) (hquiet : Quiet c w n)
    (hend : next n d = some ⟨[a], cs'⟩) (ha : a ≠ .done)
    (hact : ∀ mem p s, Lies mem p (b :: w ++ [d]) → s.parser.mark = p →
      (b :: w).length < 2 ^ 63 → ∃ s', act mem (p + (b :: w).length) s a = .ok s' ∧
        s'.data = fill s.data ∧ s'.error = s.error ∧ s'.parser.chunked = s.parser.chunked) :
    Fills cs (b :: w ++ [d]) cs' fill := by
  intro mem p s more hlies hlt
  rw [List.length_append, List.length_singleton] at hlt ⊢
  obtain ⟨s', hlast, hdata, herror, hplain⟩ := hact mem p
    { s with parser := { s.parser with mark := p } } hlies rfl (by omega)
  refine ⟨s', ?_, hdata, herror, hplain⟩
  rw [List.append_assoc, List.singleton_append,
    scan_stretch hfirst (by simp) hquiet hend (by simpa using ha.symm)]
  simp only [List.foldlM_cons, List.foldlM_nil, bind_pure]
  rw [show act mem p s .mark = .ok { s with parser := { s.parser with mark := p } } from rfl,
    ok_bind, hlast]
  rfl

theorem fills_version {minor : UInt8} (h : minor = 48 ∨ minor = 49) :
    Fills httpclientParserStart (ascii ['H', 'T', 'T', 'P', '/', '1', '.'] ++ [minor] ++ [32]) 16
      fun rsp => { rsp with version := 0x10 + (minor.toNat - 48) } := by
  have hquiet : Quiet 8 (ascii ['T', 'T', 'P', '/', '1', '.'] ++ [minor]) 15 := by
    rcases h with rfl | rfl <;> exact .of_quiet (by decide)
  apply Fills.of_act (b := 72) (by decide) hquiet (by decide) (a := .http_version) (by decide)
  intro mem p s hlies hmark _
  obtain ⟨rest, hrest⟩ := hlies.front
  refine ⟨{ s with data := { s.data with version := 0x10 + (minor.toNat - 48) } }, ?_, rfl, rfl,
    rfl⟩
  rw [act, hmark, len_add, onResponseVersion, ← hrest]
  rcases h with rfl | rfl <;> rfl

theorem fills_status {status : Int} (h : -2 ^ 31 ≤ status ∧ status < 2 ^ 31) :
    Fills 16 (decimal (status % 2 ^ 32).toNat ++ [32]) 18 fun rsp => { rsp with status } := by
  have hdigit := isDigit_decimal (status % 2 ^ 32).toNat
  have hvalue := value_decimal (status % 2 ^ 32).toNat
  obtain ⟨b, w, hdigits⟩ := List.exists_cons_of_ne_nil (decimal_ne_nil (status % 2 ^ 32).toNat)
  rw [hdigits] at hdigit hvalue ⊢
  have hquiet : Quiet 17 w 17 := .of_forall fun c hc =>
    (next_decimal c (hdigit c (List.mem_cons_of_mem b hc))).2.2.2
  apply Fills.of_act (next_decimal b (hdigit b List.mem_cons_self)).2.2.1 hquiet
    (show next 17 32 = some .tr28 by decide) (by decide)
  intro mem p s hlies hmark _
  obtain ⟨rest, hrest⟩ := hlies.front
  have hread : toInt (strtol 10 (mem.drop p)) = status := by
    rw [← hrest, List.append_assoc, List.singleton_append,
      strtol_decimal (List.cons_ne_nil b w) hdigit (by decide), hvalue]
    exact toInt_status h
  refine ⟨_, rfl, ?_, rfl, rfl⟩
  simp only [onResponseStatus, atoi, hmark, hread]

theorem next_reason : ∀ b : UInt8, b ≠ 10 → b ≠ 13 →
    next 18 b = some ⟨[.mark], 19⟩ ∧ next 19 b = some (.st 19) :=
  forall_byte (by decide +kernel)

theorem fills_reason {reason : Bytes} (hne : reason ≠ []) (h : ∀ b ∈ reason, b ≠ 10 ∧ b ≠ 13) :
    Fills 18 (reason ++ crlf) 20 fun rsp => { rsp with reason } := by
  obtain ⟨b, w, rfl⟩ := List.exists_cons_of_ne_nil hne
  have hquiet : Quiet 19 w 19 := .of_forall fun c hc => by
    obtain ⟨h10, h13⟩ := h c (List.mem_cons_of_mem b hc)
    exact (next_reason c h10 h13).2
  obtain ⟨h10, h13⟩ := h b List.mem_cons_self
  have hline : Fills 18 (b :: w ++ [13]) 24 fun rsp => { rsp with reason := b :: w } := by
    apply Fills.of_act (next_reason b h10 h13).1 hquiet (show next 19 13 = some .tr33 by decide)
      (by decide)
    intro mem p s hlies hmark hlt
    refine ⟨{ s with data := { s.data with reason := b :: w } }, ?_, rfl, rfl, rfl⟩
    rw [act, hmark, len_add, onResponseReason, stdString_of_lies hlies.left hlt]
    rfl
  have hnewline : Quiet 24 [10] 20 := .of_quiet (by decide)
  apply (hline.trans hnewline.fills).congr
  · simp [crlf]
  · intro rsp
    rfl

theorem scan_end {start : Nat} (mem : Bytes) (p : Nat) (s : HttpResponseParser) (more : Bytes)
    (hstart : start = 20 ∨ start = 43) :
    ∃ s', scan mem p start (13 :: 10 :: more) s = .ok (p + 2, httpclientParserFirstFinal, s') ∧
      s'.data = s.data ∧ s'.error = s.error ∧ s'.parser.chunked = s.parser.chunked := by
  rcases hstart with rfl | rfl
  · exact ⟨_, rfl, rfl, rfl, rfl⟩
  · exact ⟨_, rfl, rfl, rfl, rfl⟩

end StatusLine

end Client

namespace HttpResponse

variable {rsp : HttpResponse}

theorem httpStatusToString_line (s : Int) : httpStatusToString s ≠ [] ∧
    ∀ b ∈ httpStatusToString s, b ≠ 10 ∧ b ≠ 13 := by
  -- The whole table is tested by one Boolean, which the kernel evaluates far faster.
  have hall : (httpStatusMap.all fun e => !(ascii e.2.toList).isEmpty &&
      (ascii e.2.toList).all fun b => b != 10 && b != 13) = true := by decide +kernel
  unfold httpStatusToString
  cases hfind : httpStatusMap.find? fun e => e.1 = s with
  | none => decide +kernel
  | some e =>
    have he := List.all_eq_true.mp hall e (List.mem_of_find?_eq_some hfind)
    simpa using he

theorem Printable.dumpReason (h : rsp.Printable) :
    rsp.dumpReason ≠ [] ∧ ∀ b ∈ rsp.dumpReason, b ≠ 10 ∧ b ≠ 13 := by
  unfold HttpResponse.dumpReason
  split
  · exact httpStatusToString_line rsp.status
  · rename_i hne
    exact ⟨by simpa using hne, h.reason⟩

theorem Printable.fills_line (h : rsp.Printable) :
    Client.Fills Client.httpclientParserStart rsp.dumpLine 20 fun r =>
      { r with version := rsp.version, status := rsp.status, reason := rsp.dumpReason } := by
  have hversion : ∃ minor, (minor = 48 ∨ minor = 49) ∧ rsp.version = 0x10 + (minor.toNat - 48) ∧
      ascii ['H', 'T', 'T', 'P', '/'] ++ decimal (rsp.version >>> 4) ++ ascii ['.'] ++
        decimal (rsp.version &&& 0x0f) =
          ascii ['H', 'T', 'T', 'P', '/', '1', '.'] ++ [minor] := by
    rcases h.version with hv | hv
    · exact ⟨48, .inl rfl, hv, by rw [hv]; decide⟩
    · exact ⟨49, .inr rfl, hv, by rw [hv]; decide⟩
  obtain ⟨minor, hminor, hvalue, htext⟩ := hversion
  obtain ⟨hne, hline⟩ := h.dumpReason
  apply ((Client.fills_version hminor).trans ((Client.fills_status h.status).trans
    (Client.fills_reason hne hline))).congr
  · rw [dumpLine, htext]
    simp [ascii]
  · intro r
    simp [hvalue]

theorem Printable.dumpHeaders_eq (h : rsp.Printable) :
    rsp.dumpHeaders = rsp.headers.flatMap fun i => headerLine i.1 1 i.2 := by
  apply List.flatMap_congr
  intro i hi
  simp [(h.plain i hi).other connectionKey (by decide), headerLine, ascii, crlf]

theorem Printable.fills_dump (h : rsp.Printable) :
    ∃ lines start, rsp.dumpHead = lines ++ [13, 10] ∧ (start = 20 ∨ start = 43) ∧
      Client.Fills Client.httpclientParserStart lines start fun r =>
        { r with
          version := rsp.version
          status := rsp.status
          reason := rsp.dumpReason
          headers := r.headers.setAll (rsp.headers ++ rsp.added) } := by
  have hfields := (h.fills_line.trans (Client.fills_headers h.plain)).trans
    (Client.fills_connection rsp.close)
  have hstart : (if rsp.close then 43 else 20) = 20 ∨ (if rsp.close then 43 else 20) = 43 := by
    cases rsp.close <;> simp
  cases hbody : rsp.body.isEmpty with
  | true =>
    refine ⟨_, _, ?_, hstart, hfields.congr rfl ?_⟩
    · simp [dumpHead, h.dumpHeaders_eq, hbody, headerLine, crlf, ascii]
    · intro r
      simp [added, addedHeaders, hbody, Headers.setAll]
  | false =>
    refine ⟨_, _, ?_, .inl rfl,
      (hfields.trans (Client.fills_contentLength rsp.body.length hstart)).congr rfl ?_⟩
    · simp [dumpHead, h.dumpHeaders_eq, hbody, headerLine, crlf, ascii]
    · intro r
      simp [added, addedHeaders, hbody, Headers.setAll]

theorem Printable.setAll_printed (h : rsp.Printable) :
    Headers.setAll [] (rsp.headers ++ rsp.added) = rsp.received.headers := by
  rw [Headers.setAll_append, Headers.setAll_nil h.ordered]
  rfl

theorem find_received (h : rsp.Printable) (key : Bytes) :
    rsp.received.headers.find key =
      if foldCase key = foldCase contentLengthKey ∧ rsp.body ≠ [] then
        some (decimal rsp.body.length)
      else if foldCase key = foldCase connectionKey then some (closeText rsp.close)
      else rsp.headers.find key :=
  HttpRequest.find_added h.ordered rsp.close rsp.body key

end HttpResponse

theorem Client.scan_dump {rsp : HttpResponse} {mem : Bytes} {s : HttpResponseParser}
    (begun : Bytes) (h : rsp.Printable) (hlies : Lies mem 0 rsp.dumpHead)
    (hlt : rsp.dumpHead.length < 2 ^ 63) (hdata : s.data = .fresh) :
    ∃ s', Client.scan mem 0 httpclientParserStart (rsp.dumpHead ++ begun) s =
        .ok (rsp.dumpHead.length, httpclientParserFirstFinal, s') ∧
      s'.data = { rsp.received with body := [] } ∧ s'.error = s.error ∧
      s'.parser.chunked = s.parser.chunked := by
  obtain ⟨lines, start, hhead, hstart, hlines⟩ := h.fills_dump
  have hlen : rsp.dumpHead.length = 0 + lines.length + 2 := by
    rw [hhead, List.length_append, Nat.zero_add]
    rfl
  have hfront : Lies mem 0 lines := by
    rw [hhead] at hlies
    exact hlies.left
  obtain ⟨s₁, hscan₁, hdata₁, herror₁, hplain₁⟩ :=
    hlines mem 0 s (13 :: 10 :: begun) hfront (by omega)
  obtain ⟨s₂, hscan₂, hdata₂, herror₂, hplain₂⟩ :=
    scan_end mem (0 + lines.length) s₁ begun hstart
  refine ⟨s₂, ?_, ?_, herror₂.trans herror₁, hplain₂.trans hplain₁⟩
  · rw [hlen, hhead, List.append_assoc]
    exact hscan₁.trans hscan₂
  · rw [hdata₂, hdata₁, hdata]
    simp only [HttpResponse.fresh, h.setAll_printed]
    rfl

namespace ResponseCall

variable {call : ResponseCall} {rsp : HttpResponse} {begun : Bytes}

theorem execute_started (mem : Bytes) (length : Nat) :
    call.parser.execute mem length false = call.parser.execute mem length true := by
  simp only [HttpResponseParser.execute, Bool.false_eq_true, if_false, if_true]
  rfl

theorem recvHead_first {head : Bytes} {s : HttpResponseParser} (reads : List Bytes)
    (hne : head ≠ []) (hfits : (head ++ begun).length ≤ call.buffSize)
    (hscan : Client.scan (overwrite (overwrite call.memory 0 (head ++ begun))
      (head ++ begun).length [0]) 0 Client.httpclientParserStart (head ++ begun) call.parser =
        .ok (head.length, Client.httpclientParserFirstFinal, s))
    (herror : s.error = 0) :
    ∃ m, recvHead call.buffSize ((head ++ begun) :: reads) 0 call.memory call.parser =
      .ok (some (begun.length, begun ++ m,
        s.stopped head.length Client.httpclientParserFirstFinal, reads)) := by
  obtain ⟨m, hmem⟩ : ∃ m, overwrite (overwrite call.memory 0 (head ++ begun))
      (head ++ begun).length [0] = head ++ begun ++ 0 :: m := by
    rw [overwrite_front]
    exact ⟨_, overwrite_null _ _⟩
  rw [hmem] at hscan
  have hguard : ¬(head ++ begun = [] ∨ call.buffSize - 0 < (head ++ begun).length) :=
    not_or.mpr ⟨List.append_ne_nil_of_left_ne_nil hne begun, Nat.not_lt.mpr hfits⟩
  have hle : head.length ≤ (head ++ begun).length := by
    rw [List.length_append]
    exact Nat.le_add_right _ _
  have hpos := List.length_pos_iff.mpr hne
  have hzero : Client.Behind (0 - 1) call.parser :=
    ⟨Nat.le_refl _, Nat.le_refl _, Nat.le_refl _, Nat.zero_le _⟩
  have hin := (hzero.of_scan hscan).inBounds (Nat.lt_of_lt_of_le hpos hle) hle
  have hexec : call.parser.execute (head ++ begun ++ 0 :: m) (head ++ begun).length false =
      .ok (head.length, begun ++ (head ++ begun ++ 0 :: m).drop begun.length,
        s.stopped head.length Client.httpclientParserFirstFinal) := by
    rw [execute_started, HttpResponseParser.execute_eq hscan hle hin, List.drop_left,
      overwrite_front]
  have haccepted : (s.stopped head.length Client.httpclientParserFirstFinal).hasError = false := by
    simp only [HttpResponseParser.hasError, HttpResponseParser.stopped, herror]
    rfl
  have hfinished : (s.stopped head.length Client.httpclientParserFirstFinal).isFinished = true :=
    beq_self_eq_true Client.httpclientParserFirstFinal
  have hlen : (head ++ begun).length - head.length = begun.length := by
    rw [List.length_append, Nat.add_sub_cancel_left]
  have hroom : ¬ begun.length = call.buffSize := by
    rw [List.length_append] at hfits
    omega
  refine ⟨(head ++ begun ++ 0 :: m).drop begun.length, ?_⟩
  rw [recvHead, if_neg hguard]
  simp only [Nat.add_zero, hmem, hexec, bind, Except.bind, haccepted, hlen, if_neg hroom,
    Bool.false_eq_true, if_false, hfinished, if_true, pure, Except.pure]

theorem recvResponse_head (more : List Bytes) (h : rsp.Printable)
    (hfits : (rsp.dumpHead ++ begun).length ≤ call.buffSize) :
    ∃ (s : HttpResponseParser) (m : Bytes), s.data = { rsp.received with body := [] } ∧
      call.recvResponse ((rsp.dumpHead ++ begun) :: more) =
        .ok (recvBody call.lexicalCast begun.length (begun ++ m) s more) := by
  have hint := call.int
  have hlies : Lies (overwrite (overwrite call.memory 0 (rsp.dumpHead ++ begun))
      (rsp.dumpHead ++ begun).length [0]) 0 rsp.dumpHead := by
    refine ⟨Nat.zero_le _, ?_⟩
    rw [overwrite_front, overwrite_null, List.append_assoc]
    exact List.prefix_append _ _
  have hlt : rsp.dumpHead.length < 2 ^ 63 := by
    rw [List.length_append] at hfits
    omega
  obtain ⟨s, hscan, hdata, herror, hplain⟩ :=
    Client.scan_dump (s := call.parser) begun h hlies hlt rfl
  have hne : rsp.dumpHead ≠ [] := by
    obtain ⟨lines, start, hhead, -⟩ := h.fills_dump
    rw [hhead]
    exact List.append_ne_nil_of_right_ne_nil _ (by decide)
  obtain ⟨m, hrecv⟩ := recvHead_first more hne hfits hscan herror
  exact ⟨s.stopped rsp.dumpHead.length Client.httpclientParserFirstFinal, m, hdata,
    recvResponse_plain hrecv hplain⟩

theorem getContentLength_dump {s : HttpResponseParser} (h : rsp.Printable)
    (hcast : CastsDecimals call.lexicalCast) (hsize : rsp.body.length < 2 ^ 64)
    (hdata : s.data = { rsp.received with body := [] }) :
    (s.getContentLength call.lexicalCast).toNat = rsp.body.length := by
  have hvalue : s.getContentLength call.lexicalCast =
      ((rsp.received.headers.find contentLengthKey).bind call.lexicalCast).getD 0 := by
    unfold HttpResponseParser.getContentLength
    rw [hdata]
    rfl
  have hlacks : rsp.headers.Lacks contentLengthKey :=
    Headers.lacks_of_strcasecmpEq fun e he => (h.plain e he).other _ (by decide)
  rw [hvalue, HttpResponse.find_received h, if_neg (HttpRequest.foldCase_keys.symm),
    Headers.find_of_lacks h.ordered hlacks]
  by_cases hbody : rsp.body = []
  · simp [hbody]
  · simp only [hbody, ne_eq, not_false_eq_true, and_self, if_true, Option.bind_some, hcast _ hsize,
      Option.getD_some]
    exact UInt64.toNat_ofNat_of_lt' hsize

/-- The text of a response, with its head in one read, comes back as the response, and later
reads are not touched. -/
theorem recvResponse_printed {first : Bytes} {more : List Bytes} (rest : List Bytes)
    (h : rsp.Printable) (hcast : CastsDecimals call.lexicalCast)
    (hdelivers : Delivers call.buffSize rsp.dumpHead rsp.dump first more)
    (hsize : rsp.body.length < 2 ^ 31) :
    call.recvResponse (first :: (more ++ rest)) = .ok (some (rsp.received, rest)) := by
  obtain ⟨begun, rfl⟩ := hdelivers.head
  have hbody : begun ++ more.flatten = rsp.body := hdelivers.body
  obtain ⟨s, m, hdata, hrecv⟩ := recvResponse_head (more ++ rest) h hdelivers.fits
  have hlength := getContentLength_dump h hcast (by omega) hdata
  rw [hrecv]
  by_cases hnil : rsp.body = []
  · -- without a body there is nothing to read
    rw [hnil] at hbody hlength
    obtain ⟨rfl, hflat⟩ := List.append_eq_nil_iff.mp hbody
    have hzero : (s.getContentLength call.lexicalCast).toInt64.toInt ≤ 0 := by
      rw [HttpSession.toInt_of_toNat hlength (by decide)]
      exact Int.le_refl 0
    have hsame : ({ rsp.received with body := [] } : HttpResponse) = rsp.received := by
      rw [← hnil]
      rfl
    simp only [recvBody, if_pos hzero, hdata, hsame,
      Pieces.eq_nil_of_flatten hdelivers.ne_nil hflat, List.nil_append]
  · have hpos : 1 ≤ rsp.body.length := List.length_pos_iff.mpr hnil
    have hdelivered : Delivered (rsp.body.length - begun.length) (more ++ rest) more rest := by
      refine ⟨rfl, hdelivers.ne_nil, ?_⟩
      rw [← hbody, List.length_append, Nat.add_sub_cancel_left]
    have htaken : ((begun ++ m).take begun.length ++ (more ++ rest).flatten).take rsp.body.length =
        rsp.body := by
      rw [List.take_left, List.flatten_append, ← List.append_assoc, hbody, List.take_left]
    rw [recvBody_fill hlength hpos hsize,
      fillBody_delivered (by rw [List.length_append]; omega) hdelivered, htaken, hdata]
    rfl

def reader : ResponseCall :=
  { buffSize := 4096
    memory := List.replicate 4097 0
    status := 0
    lexicalCast := fun text => some (UInt64.ofNat (value text))
    fits := Nat.le_of_eq List.length_replicate.symm
    int := by decide }

def answer : HttpResponse :=
  { HttpResponse.fresh with
    status := 404
    close := false
    body := ascii ['o', 'k']
    headers := [(ascii ['S', 'e', 'r', 'v', 'e', 'r'], ascii ['x', ' ', 'y'])] }

theorem answer_printable : answer.Printable where
  version := by decide
  status := by decide
  reason := by decide +kernel
  ordered := List.pairwise_singleton _ _
  plain := List.forall_mem_singleton.mpr
    ⟨by decide, by decide +kernel, by decide +kernel, by decide +kernel, by decide +kernel⟩

/-- The response that comes back has the status, the version and the body of the one that was
printed, a reason, and its headers with those for the connection and the length. -/
theorem recvResponse_dump (call : ResponseCall) (rsp : HttpResponse) (first : Bytes)
    (more rest : List Bytes) (h : rsp.Printable) (hcast : CastsDecimals call.lexicalCast)
    (hdelivers : Delivers call.buffSize rsp.dumpHead rsp.dump first more)
    (hsize : rsp.body.length < 2 ^ 31) :
    ∃ rsp', call.recvResponse (first :: (more ++ rest)) = .ok (some (rsp', rest)) ∧
      rsp'.status = rsp.status ∧ rsp'.version = rsp.version ∧ rsp'.body = rsp.body ∧
      rsp'.reason = rsp.dumpReason ∧ ∀ key, rsp'.headers.find key =
        if foldCase key = foldCase contentLengthKey ∧ rsp.body ≠ [] then
          some (decimal rsp.body.length)
        else if foldCase key = foldCase connectionKey then some (closeText rsp.close)
        else rsp.headers.find key :=
  ⟨rsp.received, recvResponse_printed rest h hcast hdelivers hsize, rfl, rfl, rfl, rfl,
    HttpResponse.find_received h⟩

theorem recvResponse_dump_answer :
    ∃ rsp, reader.recvResponse [answer.dumpHead ++ ascii ['o'], ascii ['k'], ascii ['x']] =
        .ok (some (rsp, [ascii ['x']])) ∧ rsp.status = 404 := by
  obtain ⟨rsp, hrecv, hstatus, -⟩ := recvResponse_dump reader answer
    (answer.dumpHead ++ ascii ['o']) [ascii ['k']] [ascii ['x']] answer_printable
    castsDecimals_value ⟨rfl, List.prefix_append _ _, by decide, by decide⟩ (by decide)
  exact ⟨rsp, hrecv, hstatus⟩

end ResponseCall

end Sylar.Http
