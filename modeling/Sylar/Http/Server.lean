import Sylar.Http.Cuts
import Sylar.Http.Print
import Sylar.Stream.FixSize

/-! Several requests on one connection. `recvRequest` parses in a buffer of its own
call, so what a read brings after the end of its request is gone when it returns:
the calls take the requests one by one when each request ends where a read ends,
and only then. Between two calls a response is sent, which takes for ever unless a
`write` fails. -/
namespace Sylar.Http

open Lib Lib.Blocks Lib.Pieces

section Body

variable {mem : Bytes} {p cs : Nat} {a : Action} {bs : Bytes} {s s' : HttpRequestParser}

theorem act_body (h : act mem p s a = .ok s') : s'.data.body = s.data.body := by
  have htext : ∀ {set : Bytes → HttpRequest → HttpRequest} {off length : Nat},
      onText mem set off length s = .ok s' → (∀ text req, (set text req).body = req.body) →
      s'.data.body = s.data.body := by
    intro set off length h hset
    obtain ⟨text, -, h⟩ := bind_eq_ok.mp h
    obtain rfl := Except.ok.inj h
    exact hset text s.data
  cases a with
  | fragment | query_string | request_path =>
    simp only [act, onRequestFragment, onRequestQuery, onRequestPath] at h
    exact htext h fun _ _ => rfl
  | write_value =>
    rcases ite_eq_iff.mp h with ⟨-, h⟩ | ⟨-, h⟩
    · obtain rfl := Except.ok.inj h
      rfl
    · obtain ⟨key, -, h⟩ := bind_eq_ok.mp h
      obtain ⟨val, -, h⟩ := bind_eq_ok.mp h
      obtain rfl := Except.ok.inj h
      rfl
  | request_method | http_version =>
    obtain ⟨-, rfl⟩ := comparing_eq_ok.mp h
    simp only [onRequestMethod, onRequestVersion]
    grind
  | done =>
    rcases ite_eq_iff.mp h with ⟨-, h⟩ | ⟨-, h⟩ <;>
    · obtain rfl := Except.ok.inj h
      rfl
  | mark | start_field | write_field | request_uri | start_query | xml | json =>
    obtain rfl := Except.ok.inj h
    rfl

theorem acts_body {as : List Action} (h : as.foldlM (act mem p) s = .ok s') :
    s'.data.body = s.data.body := by
  induction as generalizing s with
  | nil =>
    obtain rfl := Except.ok.inj h
    rfl
  | cons a as ih =>
    rw [List.foldlM_cons] at h
    obtain ⟨s₁, h₁, h⟩ := bind_eq_ok.mp h
    exact (ih h).trans (act_body h₁)

theorem scan_body {x : Nat × Nat × HttpRequestParser} (h : scan mem p cs bs s = .ok x) :
    x.2.2.data.body = s.data.body := by
  induction bs generalizing p cs s with
  | nil =>
    obtain rfl := Except.ok.inj h
    rfl
  | cons b bs ih =>
    rcases scan_cons h with ⟨-, rfl⟩ | ⟨arc, s₁, -, h₁, ⟨-, rfl⟩ | ⟨-, h⟩⟩
    · rfl
    · exact acts_body h₁
    · exact (ih h).trans (acts_body h₁)

end Body

namespace HttpSession

section Unread

variable {session : HttpSession} {buffSize left offset : Nat} {reads unread : List Bytes}
  {mem bytes : Bytes} {s : HttpRequestParser}

theorem readFixSize_flatten {more : List Bytes} (rest : List Bytes) (hne : ∀ c ∈ more, c ≠ []) :
    readFixSize more.flatten.length (more ++ rest) = some (more.flatten, rest) := by
  induction more with
  | nil => exact readFixSize.eq_1 rest
  | cons c more ih =>
    have hc := hne c List.mem_cons_self
    obtain ⟨n, hn, hle, hmore⟩ := length_flatten_cons more hc
    have hguard : ¬(c = [] ∨ n + 1 < c.length) := not_or.mpr ⟨hc, Nat.not_lt.mpr hle⟩
    rw [hn, List.cons_append, readFixSize, if_neg hguard, hmore,
      ih fun c' h => hne c' (List.mem_cons_of_mem _ h)]
    rfl

theorem readFixSize_split (h : readFixSize left reads = some (bytes, unread)) :
    ∃ more, reads = more ++ unread ∧ (∀ c ∈ more, c ≠ []) ∧ more.flatten = bytes ∧
      bytes.length = left := by
  induction reads generalizing left bytes with
  | nil =>
    cases left with
    | zero =>
      obtain ⟨rfl, rfl⟩ := Prod.mk.inj (Option.some.inj h)
      exact ⟨[], rfl, by simp, rfl, rfl⟩
    | succ left => cases h
  | cons c reads ih =>
    cases left with
    | zero =>
      obtain ⟨rfl, rfl⟩ := Prod.mk.inj (Option.some.inj h)
      exact ⟨[], rfl, by simp, rfl, rfl⟩
    | succ left =>
      obtain ⟨hguard, h⟩ := Option.ite_none_left_eq_some.mp h
      obtain ⟨hc, hfit⟩ := not_or.mp hguard
      obtain ⟨⟨bytes', unread'⟩, hrest, heq⟩ := Option.bind_eq_some_iff.mp h
      obtain ⟨rfl, rfl⟩ := Prod.mk.inj (Option.some.inj heq)
      obtain ⟨more, rfl, hne, rfl, hlen⟩ := ih hrest
      refine ⟨c :: more, rfl, ?_, rfl, ?_⟩
      · simpa [hc] using hne
      · rw [List.length_append, hlen]
        omega

theorem recvHead_unread {x : Nat × Bytes × HttpRequestParser × List Bytes}
    (h : recvHead buffSize reads offset mem s = .ok (some x)) : x.2.2.2 <:+ reads := by
  induction reads generalizing offset mem s with
  | nil => cases h
  | cons c reads ih =>
    rw [recvHead] at h
    rcases ite_eq_iff.mp h with ⟨-, h⟩ | ⟨-, h⟩
    · cases h
    obtain ⟨⟨nparse, mem, s⟩, -, h⟩ := bind_eq_ok.mp h
    rcases ite_eq_iff.mp h with ⟨-, h⟩ | ⟨-, h⟩
    · cases h
    rcases ite_eq_iff.mp h with ⟨-, h⟩ | ⟨-, h⟩
    · cases h
    rcases ite_eq_iff.mp h with ⟨-, h⟩ | ⟨-, h⟩
    · obtain rfl := Option.some.inj (Except.ok.inj h)
      exact List.suffix_cons c reads
    · exact (ih h).trans (List.suffix_cons c reads)

theorem recvBody_some {lexicalCast : Bytes → Option UInt64} {req : HttpRequest}
    (h : recvBody lexicalCast offset mem s reads = some (req, unread)) :
    ∃ bytes, readFixSize ((s.getContentLength lexicalCast).toInt64.toInt.toNat - offset) reads =
        some (bytes, unread) ∧
      req = { s.data with
        body := if (s.getContentLength lexicalCast).toInt64.toInt ≤ 0 then s.data.body
          else (mem.take offset ++ bytes).take
            (s.getContentLength lexicalCast).toInt64.toInt.toNat }.init := by
  unfold recvBody at h
  obtain ⟨length, hlength⟩ :
      ∃ length, (s.getContentLength lexicalCast).toInt64.toInt = length := ⟨_, rfl⟩
  simp only [hlength] at h ⊢
  rcases ite_eq_iff.mp h with ⟨hneg, h⟩ | ⟨hpos, h⟩
  · obtain ⟨rfl, rfl⟩ := Prod.mk.inj (Option.some.inj h)
    refine ⟨[], ?_, by rw [if_pos hneg]⟩
    rw [Int.toNat_of_nonpos hneg, Nat.zero_sub]
    exact readFixSize.eq_1 reads
  rcases ite_eq_iff.mp h with ⟨hinside, h⟩ | ⟨hbeyond, h⟩
  · obtain ⟨rfl, rfl⟩ := Prod.mk.inj (Option.some.inj h)
    refine ⟨[], ?_, ?_⟩
    · rw [Nat.sub_eq_zero_of_le (Int.toNat_le.mpr hinside)]
      exact readFixSize.eq_1 reads
    · rw [if_neg hpos, List.append_nil, List.take_take, Nat.min_eq_left (Int.toNat_le.mpr hinside)]
  · obtain ⟨-, h⟩ := Option.ite_none_left_eq_some.mp h
    obtain ⟨⟨bytes, unread'⟩, hread, heq⟩ := Option.bind_eq_some_iff.mp h
    obtain ⟨rfl, rfl⟩ := Prod.mk.inj (Option.some.inj heq)
    obtain ⟨-, -, -, -, hlen⟩ := readFixSize_split hread
    have hwhole : (mem.take offset ++ bytes).length ≤ length.toNat := by
      rw [List.length_append, List.length_take, hlen]
      omega
    exact ⟨bytes, hread, by rw [if_neg hpos, List.take_of_length_le hwhole]⟩

theorem recvRequest_unread {req : HttpRequest}
    (h : session.recvRequest reads = .ok (some (req, unread))) : unread <:+ reads := by
  obtain ⟨⟨offset, mem, s, rest⟩, hhead, hsize⟩ := recvRequest_some h
  rw [recvRequest_eq hhead hsize, Except.ok.injEq] at h
  obtain ⟨bytes, hread, -⟩ := recvBody_some h
  obtain ⟨more, rfl, -⟩ := readFixSize_split hread
  exact (List.suffix_append more unread).trans (recvHead_unread hhead)

end Unread

theorem toInt_of_toNat {x : UInt64} {n : Nat} (h : x.toNat = n) (hn : n < 2 ^ 63) :
    x.toInt64.toInt = (n : Int) := by
  have hhalf : 2 * x.toNat < 2 ^ 64 := by omega
  exact (BitVec.toInt_eq_toNat_of_lt hhalf).trans (congrArg _ h)

/-- A body whose beginning `d` is in the buffer and that is as long as the head says.
The number of bytes that are still missing goes through an `int`. -/
theorem recvBody_whole {lexicalCast : Bytes → Option UInt64} {d : Bytes} {more : List Bytes}
    {s : HttpRequestParser} (rest : List Bytes) (hempty : s.data.body = [])
    (hlength : (s.getContentLength lexicalCast).toNat = (d ++ more.flatten).length)
    (hlt : (d ++ more.flatten).length < 2 ^ 63) (hne : ∀ c ∈ more, c ≠ [])
    (hint : more = [] ∨ 0 < Int32.ofNat more.flatten.length) :
    recvBody lexicalCast d.length d s (more ++ rest) =
      some ({ s.data with body := d ++ more.flatten }.init, rest) := by
  have hvalue := toInt_of_toNat hlength hlt
  simp only [recvBody, hvalue]
  rcases Nat.eq_zero_or_pos (d ++ more.flatten).length with hzero | hpos
  · -- no body
    obtain ⟨rfl, hflat⟩ := List.append_eq_nil_iff.mp (List.length_eq_zero_iff.mp hzero)
    have hsame : { s.data with body := [] } = s.data := by rw [← hempty]
    rw [if_pos (by omega), eq_nil_of_flatten hne hflat, List.flatten_nil, List.append_nil, hsame,
      List.nil_append]
  rw [if_neg (by omega)]
  by_cases hmore : more.flatten = []
  · -- all of it came with the head
    rw [hmore, List.append_nil, eq_nil_of_flatten hne hmore, if_pos (Int.le_refl _),
      Int.toNat_natCast, List.take_length, List.nil_append]
  · have hpos := List.length_pos_iff.mpr hmore
    have hlen : (d ++ more.flatten).length - d.length = more.flatten.length := by
      rw [List.length_append, Nat.add_sub_cancel_left]
    have hint' : ¬ Int32.ofNat more.flatten.length ≤ 0 := by
      rcases hint with rfl | hint
      · exact absurd rfl hmore
      · exact Int32.not_le.mpr hint
    have hlong : ¬ ((d ++ more.flatten).length : Int) ≤ d.length := by
      rw [List.length_append]
      omega
    rw [if_neg hlong, Int.toNat_natCast, hlen, if_neg hint', readFixSize_flatten rest hne,
      List.take_length]
    rfl

def parseHead (session : HttpSession) (head : Bytes) :
    Except Fault (Option HttpRequestParser) := do
  let (_, s) ← session.parser.httpParserExecute head head.length
  return if s.hasError then none else some s

theorem parseHead_scanned {session : HttpSession} {head : Bytes} {s : HttpRequestParser}
    (hne : head ≠ []) (h : session.parseHead head = .ok (some s)) :
    ∃ x, scan head 0 httpParserStart head session.parser.rewind = .ok x ∧ x.2.2.error = 0 ∧
      s.data = x.2.2.data := by
  rw [parseHead, HttpRequestParser.httpParserExecute_eq (mt List.length_eq_zero_iff.mp hne)
    (Nat.le_refl _) (Nat.zero_le _), List.take_length] at h
  obtain ⟨⟨n, s'⟩, hexec, h⟩ := bind_eq_ok.mp h
  obtain ⟨x, hscan, hx⟩ := bind_eq_ok.mp hexec
  obtain ⟨-, rfl⟩ := Prod.mk.inj (Except.ok.inj hx)
  obtain ⟨herror, hsome⟩ := Option.ite_none_left_eq_some.mp (Except.ok.inj h)
  obtain rfl := Option.some.inj hsome
  refine ⟨x, hscan, ?_, rfl⟩
  by_contra herr
  exact herror (by simp [HttpRequestParser.hasError, HttpRequestParser.stopped, herr])

end HttpSession

namespace HttpServer

/-- What a server does with a request: `handle` is that of the dispatch. -/
structure Service where
  isKeepalive : Bool
  name : Bytes
  handle : HttpRequest → HttpResponse → HttpResponse

def Service.respond (server : Service) (req : HttpRequest) : HttpResponse :=
  server.handle req
    { HttpResponse.fresh with
      version := req.version
      close := req.close || !server.isKeepalive
      headers := Headers.set (ascii ['S', 'e', 'r', 'v', 'e', 'r']) server.name [] }

/-- What one round of the loop finds: the allocations of `recvRequest` and the answers of
`write` to `sendResponse`. -/
structure Round where
  session : HttpSession
  write : Stream.Io

/-- `HttpSession::sendResponse`, or `none` when it makes more than `fuel` calls of `write`. -/
def sendResponse (write : Stream.Io) (rsp : HttpResponse) (fuel : Nat) : Option Int :=
  (Stream.writeFixSize write rsp.dump.length fuel).map (·.1)

/-- The loop of `HttpServer::handleClient`: what each call of `recvRequest` returns, a
request and the answers of `read` that are left. `rounds` are as many as are looked at. -/
def handleClient (server : Service) (fuel : Nat) : List Round → List Bytes →
    Except Fault (List (HttpRequest × List Bytes))
  | [], _ => .ok []
  | round :: rounds, reads => do
    match ← round.session.recvRequest reads with
    | none => return []
    | some (req, reads) =>
      match sendResponse round.write (server.respond req) fuel with
      | none => return [(req, reads)]
      | some _ =>
        if !server.isKeepalive || req.close then return [(req, reads)]
        else return (req, reads) :: (← handleClient server fuel rounds reads)

/-- A request as it is sent, with the round whose turn it is. The request is what the
parser makes of its head alone and the body after it, which has the length that the
head says. -/
structure Sent extends Round where
  head : Bytes
  body : Bytes
  parsed : HttpRequestParser
  start : head.head?.any methodStart
  complete : completes session.uriRelaxed httpParserStart head
  parses : session.parseHead head = .ok (some parsed)
  length : (parsed.getContentLength session.lexicalCast).toNat = body.length

namespace Sent

def bytes (m : Sent) : Bytes := m.head ++ m.body

def req (m : Sent) : HttpRequest := { m.parsed.data with body := m.body }.init

/-- The reads of one request. The last read of its head goes on with `begun`, the
beginning of the body, and `more` are the reads of the rest of the body. A read of
the head is asked for as much as the buffer takes, one of the body for what is
missing. -/
structure Arrival (m : Sent) where
  first : Bytes
  cuts : List Bytes
  begun : Bytes
  more : List Bytes
  head : first ++ cuts.flatten = m.head
  body : begun ++ more.flatten = m.body
  ne_nil : ∀ c ∈ first :: (cuts ++ more), c ≠ []
  fits : ∀ c ∈ goOn begun [] first cuts, c.length ≤ m.session.buffSize

namespace Arrival

variable {m : Sent}

def reads (a : m.Arrival) : List Bytes := goOn a.begun a.more a.first a.cuts

/-- The head is cut in settled reads, none of which leaves what is taken for a full buffer;
the body can be allocated, and the length of what is missing of it when the head is
complete is a positive `int`. -/
structure Sound (a : m.Arrival) : Prop where
  settled : settledCuts m.session.uriRelaxed httpParserStart (a.first :: a.cuts)
  between : a.cuts ≠ [] → HttpSession.full m.session.buffSize 0 = false
  begun : HttpSession.full m.session.buffSize a.begun.length = false
  length : m.body.length < 2 ^ 63
  free : m.body.length ≤ m.session.free
  missing : a.more = [] ∨ 0 < Int32.ofNat a.more.flatten.length

end Arrival

/-- What successive calls are to return: each its request, with all the bytes of the
later ones left. -/
def taken : List Sent → List (HttpRequest × Bytes)
  | [] => []
  | m :: ms => (m.req, (ms.map bytes).flatten) :: taken ms

/-- The calls of `recvRequest` return the requests in order and no byte of a later one
is lost. -/
def Taken (server : Service) (ms : List Sent) (rounds : List Round) (reads : List Bytes) : Prop :=
  ∃ fuel out, handleClient server fuel (ms.map toRound ++ rounds) reads = .ok out ∧
    out.map (fun z => (z.1, z.2.flatten)) = taken ms

def Fails (server : Service) (m : Sent) : Prop :=
  let length := (server.respond m.req).dump.length
  ∃ i, m.write i (Stream.writeOffset m.write length i) length ≤ 0

end Sent

@[simp] theorem Sent.head_ne_nil (m : Sent) : m.head ≠ [] := by
  intro hnil
  exact absurd m.start (by simp [hnil])

theorem Sent.Arrival.Sound.received {m : Sent} {a : m.Arrival} (h : a.Sound) (rest : List Bytes) :
    m.session.recvRequest (a.reads ++ rest) = .ok (some (m.req, rest)) := by
  obtain ⟨x, hscan, herr, hdata⟩ := HttpSession.parseHead_scanned m.head_ne_nil m.parses
  have hstart := m.start
  have hcomplete := m.complete
  rw [← a.head] at hscan hstart hcomplete
  have halone : scan (a.first ++ a.cuts.flatten ++ []) 0 httpParserStart
      (a.first ++ a.cuts.flatten) m.session.parser.rewind = .ok x := by
    rw [List.append_nil]
    exact hscan
  have hcuts : ∀ e ∈ a.first :: a.cuts, e ≠ [] := fun e he =>
    a.ne_nil e (List.cons_subset_cons _ (List.subset_append_left _ _) he)
  have hmore : ∀ e ∈ a.more, e ≠ [] := fun e he =>
    a.ne_nil e (List.mem_cons_of_mem _ (List.mem_append_right _ he))
  have hlength : (x.2.2.getContentLength m.session.lexicalCast).toNat =
      (a.begun ++ a.more.flatten).length := by
    rw [a.body, ← m.length]
    simp only [HttpRequestParser.getContentLength, hdata]
  have hlt : (a.begun ++ a.more.flatten).length < 2 ^ 63 := a.body.symm ▸ h.length
  have hsize : m.session.Resizes x.2.2 := by
    rw [HttpSession.Resizes, HttpSession.toInt_of_toNat hlength hlt, a.body]
    exact Int.ofNat_le.mpr h.free
  have hreq : m.session.recvRequest (goOn a.begun (a.more ++ rest) a.first a.cuts) =
      .ok (HttpSession.recvBody m.session.lexicalCast a.begun.length a.begun x.2.2
        (a.more ++ rest)) :=
    HttpSession.recvRequest_goOn _ hstart hcomplete halone herr hcuts a.fits h.between h.begun hsize
      h.settled
  have hempty : x.2.2.data.body = [] := scan_body hscan
  rw [reads, goOn_append, hreq,
    HttpSession.recvBody_whole rest hempty hlength hlt hmore h.missing, a.body, ← hdata]
  rfl

theorem dump_pos (rsp : HttpResponse) : 1 ≤ rsp.dump.length := by
  have hkey : 1 ≤ HttpRequest.connectionKey.length := by decide
  simp only [HttpResponse.dump, HttpResponse.dumpHead, List.length_append]
  omega

theorem sendResponse_returns_iff {write : Stream.Io} {rsp : HttpResponse} {fuel : Nat} :
    (∃ r, sendResponse write rsp fuel = some r) ↔
      ∃ i < fuel, write i (Stream.writeOffset write rsp.dump.length i) rsp.dump.length ≤ 0 := by
  rw [← Stream.writeFixSize_returns_iff (dump_pos rsp)]
  simp [sendResponse]

section Loop

variable {server : Service} {fuel : Nat} {ms : List Sent} {rounds : List Round}
  {reads : List Bytes}

theorem handleClient_some (server : Service) (fuel : Nat) {round : Round} {req : HttpRequest}
    {left : List Bytes} (rounds : List Round)
    (h : round.session.recvRequest reads = .ok (some (req, left))) :
    handleClient server fuel (round :: rounds) reads =
      if (sendResponse round.write (server.respond req) fuel).isNone ∨ !server.isKeepalive ∨
        req.close then .ok [(req, left)]
      else handleClient server fuel rounds left >>= fun out => .ok ((req, left) :: out) := by
  rw [handleClient, h]
  cases hsend : sendResponse round.write (server.respond req) fuel <;>
    simp [bind, Except.bind, hsend, pure, Except.pure]

theorem handleClient_cons {round : Round} {z : HttpRequest × List Bytes}
    {out : List (HttpRequest × List Bytes)}
    (h : handleClient server fuel (round :: rounds) reads = .ok (z :: out)) :
    round.session.recvRequest reads = .ok (some z) ∧
      (out = [] ∨ (∃ r, sendResponse round.write (server.respond z.1) fuel = some r) ∧
        handleClient server fuel rounds z.2 = .ok out) := by
  rw [handleClient] at h
  obtain ⟨req, hreq, h⟩ := bind_eq_ok.mp h
  cases req with
  | none => cases h
  | some z' =>
    obtain ⟨req, left⟩ := z'
    cases hsend : sendResponse round.write (server.respond req) fuel with
    | none =>
      simp only [hsend] at h
      obtain ⟨rfl, rfl⟩ := List.cons.inj (Except.ok.inj h)
      exact ⟨hreq, .inl rfl⟩
    | some r =>
      simp only [hsend] at h
      rcases ite_eq_iff.mp h with ⟨-, h⟩ | ⟨-, h⟩
      · obtain ⟨rfl, rfl⟩ := List.cons.inj (Except.ok.inj h)
        exact ⟨hreq, .inl rfl⟩
      · obtain ⟨out', hout, h⟩ := bind_eq_ok.mp h
        obtain ⟨rfl, rfl⟩ := List.cons.inj (Except.ok.inj h)
        exact ⟨hreq, .inr ⟨⟨r, hsend⟩, hout⟩⟩

@[simp] theorem handleClient_nil : handleClient server fuel rounds [] = .ok [] := by
  cases rounds with
  | nil => rfl
  | cons round rounds => rfl

abbrev Sent.Arrive (ms : List Sent) (parts : List (List Bytes)) : Prop :=
  List.Forall₂ (fun m part => ∃ a : m.Arrival, a.reads = part ∧ a.Sound) ms parts

@[simp] theorem Sent.Arrival.flatten {m : Sent} (a : m.Arrival) : a.reads.flatten = m.bytes := by
  rw [reads, flatten_goOn, a.head, a.body, bytes]

theorem Sent.Arrive.flatten {parts : List (List Bytes)} (h : Sent.Arrive ms parts) :
    parts.flatten.flatten = (ms.map Sent.bytes).flatten := by
  induction h with
  | nil => rfl
  | cons hpart _ ih =>
    obtain ⟨a, rfl, -⟩ := hpart
    rw [List.flatten_cons, List.flatten_append, ih, a.flatten, List.map_cons, List.flatten_cons]

theorem Sent.fuel_of_fails (h : ∀ m ∈ ms, m.Fails server) :
    ∃ fuel, ∀ m ∈ ms, ∃ r, sendResponse m.write (server.respond m.req) fuel = some r := by
  induction ms with
  | nil => exact ⟨0, fun m hm => absurd hm List.not_mem_nil⟩
  | cons m ms ih =>
    obtain ⟨fuel, hfuel⟩ := ih fun m' hm => h m' (List.mem_cons_of_mem _ hm)
    obtain ⟨i, hi⟩ := h m List.mem_cons_self
    refine ⟨max (i + 1) fuel, fun m' hm => sendResponse_returns_iff.mpr ?_⟩
    rcases List.mem_cons.mp hm with rfl | hm
    · exact ⟨i, by omega, hi⟩
    · obtain ⟨j, hj, hle⟩ := sendResponse_returns_iff.mp (hfuel m' hm)
      exact ⟨j, by omega, hle⟩

/-- Requests that arrive in reads of their own are taken one by one, as long as the
responses come to an end. -/
theorem Sent.Arrive.taken {parts : List (List Bytes)} (h : Sent.Arrive ms parts)
    (hserver : server.isKeepalive = true) (hkeep : ∀ m ∈ ms.dropLast, m.req.close = false)
    (hsent : ∀ m ∈ ms.dropLast, ∃ r, sendResponse m.write (server.respond m.req) fuel = some r) :
    ∃ out, handleClient server fuel (ms.map Sent.toRound ++ rounds) parts.flatten = .ok out ∧
      out.map (fun z => (z.1, z.2.flatten)) = Sent.taken ms := by
  induction h with
  | nil => exact ⟨[], handleClient_nil, rfl⟩
  | @cons m part ms parts hpart hrest ih =>
    obtain ⟨a, rfl, hsound⟩ := hpart
    have hround := handleClient_some server fuel (ms.map Sent.toRound ++ rounds)
      (hsound.received parts.flatten)
    rw [List.flatten_cons, List.map_cons, List.cons_append, hround]
    by_cases hlast : ms = []
    · -- after the last request the loop ends, or the next call finds nothing
      subst hlast
      cases hrest
      refine ⟨[(m.req, [])], ?_, rfl⟩
      rw [List.flatten_nil, handleClient_nil]
      split <;> rfl
    · rw [List.dropLast_cons_of_ne_nil hlast] at hkeep hsent
      obtain ⟨out, hout, hall⟩ := ih (fun m' h => hkeep m' (List.mem_cons_of_mem _ h))
        fun m' h => hsent m' (List.mem_cons_of_mem _ h)
      obtain ⟨r, hr⟩ := hsent m List.mem_cons_self
      refine ⟨(m.req, parts.flatten) :: out, ?_, ?_⟩
      · rw [if_neg (by simp [hr, hserver, hkeep m List.mem_cons_self]), hout]
        rfl
      · rw [List.map_cons, hall, Sent.Arrive.flatten hrest]
        rfl

/-- When they are taken one by one, each request ends where a read ends, and the response
to each but the last has come to an end. -/
theorem Sent.parts_of_taken {out : List (HttpRequest × List Bytes)} (hne : ∀ c ∈ reads, c ≠ [])
    (hsent : reads.flatten = (ms.map Sent.bytes).flatten)
    (hout : handleClient server fuel (ms.map Sent.toRound ++ rounds) reads = .ok out)
    (hall : out.map (fun z => (z.1, z.2.flatten)) = Sent.taken ms) :
    (∃ parts : List (List Bytes), parts.flatten = reads ∧
      parts.map List.flatten = ms.map Sent.bytes) ∧ ∀ m ∈ ms.dropLast, m.Fails server := by
  induction ms generalizing reads out with
  | nil =>
    obtain rfl := eq_nil_of_flatten hne hsent
    exact ⟨⟨[], rfl, rfl⟩, fun m hm => absurd hm List.not_mem_nil⟩
  | cons m ms ih =>
    obtain ⟨z, out, rfl, hz, hall⟩ := List.map_eq_cons_iff.mp hall
    obtain ⟨hzreq, hleft⟩ := Prod.mk.inj hz
    obtain ⟨hreq, hrest⟩ := handleClient_cons hout
    obtain ⟨used, rfl⟩ := HttpSession.recvRequest_unread hreq
    have hne' : ∀ c ∈ z.2, c ≠ [] := fun c hc => hne c (List.mem_append_right _ hc)
    have hused : used.flatten = m.bytes := by
      rw [List.flatten_append, hleft, List.map_cons, List.flatten_cons] at hsent
      exact List.append_cancel_right hsent
    cases ms with
    | nil =>
      -- nothing is left after the last request
      have hnil := eq_nil_of_flatten hne' hleft
      refine ⟨⟨[used], by simp [hnil], by simp [hused]⟩, fun m hm => absurd hm List.not_mem_nil⟩
    | cons m' ms =>
      rcases hrest with rfl | ⟨hsend, hrest⟩
      · cases hall
      obtain ⟨⟨parts, hparts, hbytes⟩, hfails⟩ := ih hne' hleft hrest hall
      refine ⟨⟨used :: parts, by rw [List.flatten_cons, hparts], ?_⟩, ?_⟩
      · rw [List.map_cons, List.map_cons (f := Sent.bytes), hbytes, hused]
      · rw [List.dropLast_cons_of_ne_nil (List.cons_ne_nil m' ms), List.forall_mem_cons]
        refine ⟨?_, hfails⟩
        rw [hzreq] at hsend
        obtain ⟨i, -, hi⟩ := sendResponse_returns_iff.mp hsend
        exact ⟨i, hi⟩

end Loop

/-- The calls of `recvRequest` return the requests that are sent on a connection, in
order and with no byte of a later one lost, when each arrives in sound reads of its
own and a `write` of each response but the last fails; and they do so only when no read
brings bytes of two requests and these calls fail. -/
theorem handleClient_requests (server : Service) (hserver : server.isKeepalive = true)
    (ms : List Sent) (rounds : List Round) (reads : List Bytes)
    (hne : ∀ c ∈ reads, c ≠ []) (hsent : reads.flatten = (ms.map Sent.bytes).flatten)
    (hkeep : ∀ m ∈ ms.dropLast, m.req.close = false) :
    (∀ parts, parts.flatten = reads → Sent.Arrive ms parts →
      (∀ m ∈ ms.dropLast, m.Fails server) → Sent.Taken server ms rounds reads) ∧
    (Sent.Taken server ms rounds reads →
      (∃ parts : List (List Bytes), parts.flatten = reads ∧
        parts.map List.flatten = ms.map Sent.bytes) ∧ ∀ m ∈ ms.dropLast, m.Fails server) := by
  constructor
  · rintro parts rfl harrive hfails
    obtain ⟨fuel, hfuel⟩ := Sent.fuel_of_fails hfails
    exact ⟨fuel, harrive.taken hserver hkeep hfuel⟩
  · rintro ⟨fuel, out, hout, hall⟩
    exact Sent.parts_of_taken hne hsent hout hall

def roomy : HttpSession :=
  { buffSize := 160
    memory := List.replicate 160 0
    queryStart := 0
    uriRelaxed := false
    lexicalCast := fun text => if text = ascii ['2'] then some 2 else none
    maxSize := 2 ^ 63 - 2
    free := 2 ^ 32
    fits := Nat.le_of_eq List.length_replicate.symm
    free_le := Nat.le_of_ble_eq_true rfl
    room := Nat.le_of_ble_eq_true rfl }

def putLines : List Bytes :=
  [ascii ['P', 'U', 'T', ' ', '/', ' ', 'H', 'T', 'T', 'P', '/', '1', '.', '0'],
    ascii ['C', 'o', 'n', 'n', 'e', 'c', 't', 'i', 'o', 'n', ':'] ++
      ascii ['k', 'e', 'e', 'p', '-', 'a', 'l', 'i', 'v', 'e'],
    ascii ['C', 'o', 'n', 't', 'e', 'n', 't', '-', 'L', 'e', 'n', 'g', 't', 'h', ':', '2'], []]

/-- A request with a body of two bytes. The response goes out with the first `write`, and the
second one fails. -/
def put : Sent :=
  { session := roomy
    write := fun i _ n => if i = 0 then n else -1
    head := (putLines.map (· ++ [13, 10])).flatten
    body := ascii ['o', 'k']
    parsed :=
      { parser :=
          { HttpParser.init 0 false with
            cs := 348, bodyStart := 59, nread := 59, mark := 54, fieldStart := 57, fieldLen := 14 }
        data :=
          { HttpRequest.fresh with
            method := .PUT
            version := 0x10
            headers :=
              [(ascii ['C', 'o', 'n', 'n', 'e', 'c', 't', 'i', 'o', 'n'],
                  ascii ['k', 'e', 'e', 'p', '-', 'a', 'l', 'i', 'v', 'e']),
                (ascii ['C', 'o', 'n', 't', 'e', 'n', 't', '-', 'L', 'e', 'n', 'g', 't', 'h'],
                  ascii ['2'])] }
        error := 0 }
    start := by decide
    complete := by decide +kernel
    parses := by decide +kernel
    length := by decide }

def put.apart : put.Arrival :=
  { first := put.head
    cuts := []
    begun := []
    more := [put.body]
    head := rfl
    body := rfl
    ne_nil := by decide
    fits := by decide }

def put.together : put.Arrival :=
  { first := put.head
    cuts := []
    begun := put.body
    more := []
    head := rfl
    body := rfl
    ne_nil := by decide
    fits := by decide }

def echo : Service :=
  { isKeepalive := true
    name := []
    handle := fun _ rsp => rsp }

theorem handleClient_requests_twice :
    Sent.Taken echo [put, put] [] [put.head, put.body, put.bytes] := by
  have hsound : put.apart.Sound :=
    ⟨by decide, by decide, by decide, by decide, by decide, by decide⟩
  have hsound' : put.together.Sound :=
    ⟨by decide, by decide, by decide, by decide, by decide, by decide⟩
  have harrive : Sent.Arrive [put, put] [put.apart.reads, put.together.reads] :=
    .cons ⟨_, rfl, hsound⟩ (.cons ⟨_, rfl, hsound'⟩ .nil)
  have hkeep : ∀ m ∈ [put, put].dropLast, m.req.close = false := by
    intro m hm
    obtain rfl := List.mem_singleton.mp hm
    decide
  have hfails : ∀ m ∈ [put, put].dropLast, m.Fails echo := by
    intro m hm
    obtain rfl := List.mem_singleton.mp hm
    exact ⟨1, show (-1 : Int) ≤ 0 by decide⟩
  exact (handleClient_requests echo rfl [put, put] [] [put.head, put.body, put.bytes] (by decide)
    (by decide) hkeep).1 _ (by decide) harrive hfails

/-- When one read brings two requests the second is lost. -/
theorem second_request_discarded :
    (∀ fuel, handleClient echo fuel [put.toRound, put.toRound] [put.bytes ++ put.bytes] =
      .ok [(put.req, [])]) ∧ ¬ Sent.Taken echo [put, put] [] [put.bytes ++ put.bytes] := by
  have hreq : put.session.recvRequest [put.bytes ++ put.bytes] = .ok (some (put.req, [])) := by
    decide +kernel
  have hrun : ∀ fuel, handleClient echo fuel [put.toRound, put.toRound]
      [put.bytes ++ put.bytes] = .ok [(put.req, [])] := by
    intro fuel
    rw [handleClient_some _ _ _ hreq, handleClient_nil]
    split <;> rfl
  refine ⟨hrun, ?_⟩
  rintro ⟨fuel, out, hout, hall⟩
  obtain rfl := Except.ok.inj ((hrun fuel).symm.trans hout)
  cases hall

end HttpServer

end Sylar.Http
