import Sylar.Http.Fills
import Sylar.Http.Server
import Sylar.Lib.Numerals

/-! `HttpRequest::dump` and its way back through `HttpSession::recvRequest`. Every piece of
the text fills in the member it was printed from; the headers come in the order of the
text, with the one for the connection first, and the map puts them in its own. -/
namespace Sylar.Http

open Lib Lib.Blocks Lib.Numerals
open Scanner (Lies)

namespace HttpRequest

def printed (req : HttpRequest) : Headers :=
  (connectionKey, closeText req.close) :: req.headers ++
    if req.body.isEmpty then [] else [(contentLengthKey, decimal req.body.length)]

structure Printable (req : HttpRequest) : Prop where
  version : req.version = 0x10 ∨ req.version = 0x11
  method : httpMethodToString req.method ∈ Rule.Method.words
  path : req.path ∈ Rule.relative_part.words
  query : req.query ∈ Rule.query.words
  fragment : req.fragment ∈ Rule.fragment.words
  ordered : req.headers.Ordered
  plain : ∀ i ∈ req.headers, Plain i
  connection : ∀ i ∈ req.headers, strcasecmpEq i.1 connectionKey = false
  contentLength : ∀ i ∈ req.headers, strcasecmpEq i.1 contentLengthKey = false

end HttpRequest

open HttpRequest

section Pieces

variable {req : HttpRequest}

theorem fills_target (h : req.Printable) :
    Fills 3 (req.dumpTarget ++ [32]) 4 fun r =>
      { r with
        path := req.path
        query := if req.query.isEmpty then r.query else req.query
        fragment := if req.fragment.isEmpty then r.fragment else req.fragment } := by
  have hpath : ∀ e ∈ Part.path.ends, Fills 3 (req.path ++ [e.1]) e.2.target fun r =>
      { r with path := req.path } := fun e he => fills_path h.path he
  have hmark : ascii ['?'] = [63] ∧ ascii ['#'] = [35] := by decide
  -- what follows the path depends on which of the two other parts there are
  by_cases hquery : req.query = []
  · by_cases hfragment : req.fragment = []
    · apply (hpath (32, .tr37) (by decide)).congr
      · simp [dumpTarget, hquery, hfragment]
      · simp [hquery, hfragment]
    · apply ((hpath (35, .tr39) (by decide)).trans (fills_fragment h.fragment)).congr
      · simp [dumpTarget, hquery, hfragment, hmark]
      · simp [hquery, hfragment]
  · have hread := fun e (he : e ∈ Part.query.ends) =>
      (hpath (63, .tr42) (by decide)).trans (fills_query h.query (d := e.1) he)
    by_cases hfragment : req.fragment = []
    · apply (hread (32, .tr58) (by decide)).congr
      · simp [dumpTarget, hquery, hfragment, hmark]
      · simp [hquery, hfragment]
    · apply ((hread (35, .tr59) (by decide)).trans (fills_fragment h.fragment)).congr
      · simp [dumpTarget, hquery, hfragment, hmark]
      · simp [hquery, hfragment]

theorem fills_line (h : req.Printable) :
    Fills httpParserStart req.dumpLine 13 fun r =>
      { r with
        method := req.method
        version := req.version
        path := req.path
        query := if req.query.isEmpty then r.query else req.query
        fragment := if req.fragment.isEmpty then r.fragment else req.fragment } := by
  have hversion : ∃ minor, (minor = 48 ∨ minor = 49) ∧ req.version = 0x10 + (minor.toNat - 48) ∧
      ascii ['H', 'T', 'T', 'P', '/'] ++ decimal (req.version >>> 4) ++ ascii ['.'] ++
        decimal (req.version &&& 0x0f) ++ crlf = versionLine minor := by
    rcases h.version with hv | hv
    · exact ⟨48, .inl rfl, hv, by rw [hv]; decide⟩
    · exact ⟨49, .inr rfl, hv, by rw [hv]; decide⟩
  obtain ⟨minor, hminor, hvalue, htext⟩ := hversion
  apply (((fills_method h.method).trans (fills_target h)).trans (fills_version hminor)).congr
  · rw [← htext]
    simp [dumpLine, ascii]
  · intro r
    simp [hvalue]

theorem plain_connection (close : Bool) : Plain (connectionKey, closeText close) := by
  cases close
  · exact Plain.of_check (by decide) (by decide)
  · exact Plain.of_check (by decide) (by decide)

theorem isDigit_plain : ∀ b : UInt8, isDigit b = true → isControl b = false ∧ b ≠ 32 :=
  forall_byte (by decide +kernel)

theorem plain_contentLength (n : Nat) : Plain (contentLengthKey, decimal n) where
  ne_nil := show contentLengthKey ≠ [] by decide
  token := List.all_eq_true.mp (show contentLengthKey.all isToken = true by decide)
  control := fun b hb => (isDigit_plain b (isDigit_decimal n b hb)).1
  blank := by
    intro hhead
    have hmem : 32 ∈ decimal n := List.mem_of_mem_head? hhead
    exact (isDigit_plain 32 (isDigit_decimal n 32 hmem)).2 rfl

theorem fills_length (req : HttpRequest) :
    Fills 13 (if req.body.isEmpty then []
      else headerLine contentLengthKey 1 (decimal req.body.length)) 13 fun r =>
        { r with headers := r.headers.setAll (if req.body.isEmpty then []
          else [(contentLengthKey, decimal req.body.length)]) } := by
  cases req.body.isEmpty with
  | true => exact Quiet.fills .nil
  | false => exact (plain_contentLength req.body.length).fills 1

theorem dumpHeaders_eq (h : req.Printable) :
    req.dumpHeaders = req.headers.flatMap fun i => headerLine i.1 0 i.2 := by
  apply List.flatMap_congr
  intro i hi
  simp [h.connection i hi, headerLine, ascii, crlf]

theorem fills_dump (h : req.Printable) :
    ∃ lines, req.dumpHead = lines ++ [13, 10] ∧
      Fills httpParserStart lines 13 fun r =>
        { r with
          method := req.method
          version := req.version
          path := req.path
          query := if req.query.isEmpty then r.query else req.query
          fragment := if req.fragment.isEmpty then r.fragment else req.fragment
          headers := r.headers.setAll req.printed } := by
  have hfields := (((fills_line h).trans ((plain_connection req.close).fills 1)).trans
    (fills_headers h.plain)).trans (fills_length req)
  refine ⟨_, ?_, hfields.congr rfl ?_⟩
  · rw [dumpHead, dumpHeaders_eq h]
    cases req.body.isEmpty <;> simp [headerLine, crlf, ascii]
  · intro r
    simp [printed, Headers.setAll]

end Pieces

namespace HttpRequest

variable {req : HttpRequest}

theorem mem_added {e : Bytes × Bytes} (h : e ∈ req.added) :
    e.1 = connectionKey ∨ e.1 = contentLengthKey := by
  unfold added addedHeaders at h
  cases hbody : req.body.isEmpty <;> simp [hbody] at h
  · rcases h with rfl | rfl
    · exact .inl rfl
    · exact .inr rfl
  · rw [h]
    exact .inl rfl

theorem foldCase_keys : foldCase connectionKey ≠ foldCase contentLengthKey := by decide

theorem find_added {headers : Headers} (h : headers.Ordered) (close : Bool) (body key : Bytes) :
    (headers.setAll (addedHeaders close body)).find key =
      if foldCase key = foldCase contentLengthKey ∧ body ≠ [] then some (decimal body.length)
      else if foldCase key = foldCase connectionKey then some (closeText close)
      else headers.find key := by
  have hne : foldCase contentLengthKey ≠ foldCase connectionKey := foldCase_keys.symm
  rw [Headers.find_setAll key h, addedHeaders]
  cases body with
  | nil =>
    by_cases hkey : foldCase key = foldCase connectionKey
    · simp [hkey]
    · simp [hkey]
  | cons b bs =>
    by_cases hkey : foldCase key = foldCase contentLengthKey
    · simp [hkey]
    · by_cases hkey' : foldCase key = foldCase connectionKey
      · simp [hkey', hne.symm]
      · simp [hkey, hkey']

theorem Printable.distinct (h : req.Printable) :
    (req.headers ++ req.added).Pairwise fun a b => foldCase a.1 ≠ foldCase b.1 := by
  refine List.pairwise_append.mpr ⟨List.Pairwise.imp ne_of_lt h.ordered, ?_, ?_⟩
  · unfold added addedHeaders
    cases req.body.isEmpty <;> simp [foldCase_keys]
  · intro a ha b hb
    rcases mem_added hb with hkey | hkey
    · rw [hkey]
      exact Headers.lacks_of_strcasecmpEq h.connection a ha
    · rw [hkey]
      exact Headers.lacks_of_strcasecmpEq h.contentLength a ha

theorem printed_perm (req : HttpRequest) : req.printed.Perm (req.headers ++ req.added) :=
  List.perm_middle.symm

/-- The request that is received: it has the two headers besides its own. -/
def received (req : HttpRequest) : HttpRequest :=
  { req with headers := req.headers.setAll req.added }

theorem Printable.received_headers (h : req.Printable) :
    req.received.headers.Ordered ∧ req.received.headers.Perm (req.headers ++ req.added) :=
  Headers.setAll_of_distinct h.ordered h.distinct

theorem Printable.setAll_printed (h : req.Printable) :
    Headers.setAll [] req.printed = req.received.headers := by
  have hprinted : ([] ++ req.printed).Pairwise
      fun a b : Bytes × Bytes => foldCase a.1 ≠ foldCase b.1 :=
    (printed_perm req).symm.pairwise h.distinct fun hab => hab.symm
  obtain ⟨hordered, hperm⟩ := Headers.setAll_of_distinct List.Pairwise.nil hprinted
  obtain ⟨hordered', hperm'⟩ := h.received_headers
  exact OrderedSet.Sorted.eq_of_perm hordered hordered'
    ((hperm.trans (printed_perm req)).trans hperm'.symm)

theorem Printable.find_connection (h : req.Printable) :
    req.received.headers.find connectionKey = some (closeText req.close) := by
  obtain ⟨hordered, hperm⟩ := h.received_headers
  have hmem : (connectionKey, closeText req.close) ∈ req.received.headers :=
    hperm.mem_iff.mpr (List.mem_append_right _ List.mem_cons_self)
  exact Headers.find_of_mem hordered hmem rfl

theorem Printable.find_contentLength (h : req.Printable) :
    req.received.headers.find contentLengthKey =
      if req.body.isEmpty then none else some (decimal req.body.length) := by
  obtain ⟨hordered, hperm⟩ := h.received_headers
  cases hbody : req.body.isEmpty with
  | false =>
    have hmem : (contentLengthKey, decimal req.body.length) ∈ req.received.headers := by
      apply hperm.mem_iff.mpr
      simp [added, addedHeaders, hbody]
    exact Headers.find_of_mem hordered hmem rfl
  | true =>
    apply Headers.find_of_lacks hordered
    intro e he
    rcases List.mem_append.mp (hperm.mem_iff.mp he) with he | he
    · exact Headers.lacks_of_strcasecmpEq h.contentLength e he
    · simp only [added, addedHeaders, hbody, if_true, List.mem_singleton] at he
      rw [he]
      exact foldCase_keys

theorem init_of_find {r : HttpRequest} {close : Bool}
    (h : r.headers.find connectionKey = some (closeText close)) : r.init = { r with close } := by
  have hkey : (r.headers.find
      (ascii ['c', 'o', 'n', 'n', 'e', 'c', 't', 'i', 'o', 'n'])).getD [] = closeText close := by
    rw [show ascii ['c', 'o', 'n', 'n', 'e', 'c', 't', 'i', 'o', 'n'] = connectionKey from rfl, h]
    rfl
  unfold init
  simp only [hkey]
  cases close <;> rfl

end HttpRequest

theorem scan_dump {req : HttpRequest} {mem : Bytes} {s : HttpRequestParser} (begun : Bytes)
    (h : req.Printable) (hlies : Lies mem 0 req.dumpHead) (hlt : req.dumpHead.length < 2 ^ 63)
    (hdata : s.data = .fresh) :
    ∃ s', scan mem 0 httpParserStart (req.dumpHead ++ begun) s =
        .ok (req.dumpHead.length, 348, s') ∧
      s'.data = { req.received with close := true, body := [] } ∧ s'.error = s.error := by
  obtain ⟨lines, hhead, hlines⟩ := fills_dump h
  have hlen : req.dumpHead.length = 0 + lines.length + 2 := by
    rw [hhead, List.length_append, Nat.zero_add]
    rfl
  have hfront : Lies mem 0 lines := by
    rw [hhead] at hlies
    exact hlies.left
  obtain ⟨s₁, hscan₁, hdata₁, herror₁⟩ := hlines mem 0 s (13 :: 10 :: begun) hfront (by omega)
  obtain ⟨s₂, hscan₂, hdata₂, herror₂⟩ : ∃ s', scan mem (0 + lines.length) 13 (13 :: 10 :: begun) s₁ =
      .ok (0 + lines.length + 2, 348, s') ∧ s'.data = s₁.data ∧ s'.error = s₁.error := scan_end
  refine ⟨s₂, ?_, ?_, herror₂.trans herror₁⟩
  · rw [hlen, hhead, List.append_assoc]
    exact hscan₁.trans hscan₂
  · have hpart : ∀ w : Bytes, (if w.isEmpty then [] else w) = w := by
      intro w
      cases w <;> rfl
    rw [hdata₂, hdata₁, hdata]
    simp only [fresh, hpart, h.setAll_printed]
    rfl

/-- `boost::lexical_cast` reads the numbers that a stream prints. -/
def CastsDecimals (lexicalCast : Bytes → Option UInt64) : Prop :=
  ∀ n < 2 ^ 64, lexicalCast (decimal n) = some (UInt64.ofNat n)

theorem castsDecimals_value : CastsDecimals fun text => some (UInt64.ofNat (value text)) := by
  intro n _
  simp only [value_decimal]

structure Delivers (buffSize : Nat) (head text first : Bytes) (more : List Bytes) : Prop where
  bytes : first ++ more.flatten = text
  head : head <+: first
  fits : first.length ≤ buffSize
  ne_nil : ∀ c ∈ more, c ≠ []

theorem Delivers.body {buffSize : Nat} {head body begun : Bytes} {more : List Bytes}
    (h : Delivers buffSize head (head ++ body) (head ++ begun) more) :
    begun ++ more.flatten = body := by
  have hbytes := h.bytes
  rw [List.append_assoc] at hbytes
  exact List.append_cancel_left hbytes

namespace HttpSession

/-- What is left of the first read is not taken for a full buffer, the body can be allocated,
and the length of what is missing of it keeps its sign as an `int`. -/
structure Counted (session : HttpSession) (req : HttpRequest) (first : Bytes)
    (more : List Bytes) : Prop where
  room : full session.buffSize (first.length - req.dumpHead.length) = false
  free : req.body.length ≤ session.free
  missing : more = [] ∨ 0 < Int32.ofNat more.flatten.length

variable {session : HttpSession} {req : HttpRequest} {begun : Bytes}

theorem scan_first_dump (session : HttpSession) (h : req.Printable)
    (hlt : (req.dumpHead ++ begun).length < 2 ^ 31) :
    ∃ s, scan (overwrite session.memory 0 (req.dumpHead ++ begun)) 0 httpParserStart
        (req.dumpHead ++ begun) session.parser.rewind = .ok (req.dumpHead.length, 348, s) ∧
      s.data = { req.received with close := true, body := [] } ∧ s.error = 0 := by
  have hlies : Lies (overwrite session.memory 0 (req.dumpHead ++ begun)) 0 req.dumpHead := by
    refine ⟨Nat.zero_le _, ?_⟩
    rw [overwrite_front, List.append_assoc]
    exact List.prefix_append _ _
  rw [List.length_append] at hlt
  exact scan_dump (s := session.parser.rewind) begun h hlies (by omega) rfl

@[simp] theorem dumpHead_ne_nil (req : HttpRequest) : req.dumpHead ≠ [] := by
  have hkey : connectionKey ≠ [] := by decide
  simp [dumpHead, hkey]

theorem recvHead_dump (session : HttpSession) (begun : Bytes) (more : List Bytes)
    (h : req.Printable) (hfits : (req.dumpHead ++ begun).length ≤ session.buffSize)
    (hlt : (req.dumpHead ++ begun).length < 2 ^ 31)
    (hroom : full session.buffSize begun.length = false) :
    ∃ (mem : Bytes) (s : HttpRequestParser),
      s.data = { req.received with close := true, body := [] } ∧
      recvHead session.buffSize ((req.dumpHead ++ begun) :: more) 0 session.memory
        session.parser = .ok (some (begun.length, begun ++ mem, s, more)) := by
  obtain ⟨s, hscan, hdata, herror⟩ := scan_first_dump session h hlt
  obtain ⟨mem, hended⟩ := recvHead_ended (s := session.parser) more (dumpHead_ne_nil req) hfits
    hroom (Nat.zero_le _) (show httpParserStart ≠ httpParserError by decide) hscan herror
    (by decide) (by decide)
  exact ⟨mem, s.stopped req.dumpHead.length 348, hdata, hended⟩

theorem getContentLength_dump {s : HttpRequestParser} (h : req.Printable)
    (hcast : CastsDecimals session.lexicalCast) (hsize : req.body.length < 2 ^ 63)
    (hdata : s.data = { req.received with close := true, body := [] }) :
    (s.getContentLength session.lexicalCast).toNat = req.body.length := by
  have hfind : s.data.headers.find contentLengthKey =
      if req.body.isEmpty then none else some (decimal req.body.length) := by
    rw [hdata]
    exact h.find_contentLength
  have hvalue : s.getContentLength session.lexicalCast =
      ((s.data.headers.find contentLengthKey).bind session.lexicalCast).getD 0 := rfl
  rw [hvalue, hfind]
  cases hbody : req.body with
  | nil => rfl
  | cons b bs =>
    rw [hbody] at hsize
    have hlt : (b :: bs).length < 2 ^ 64 := by omega
    simp only [List.isEmpty_cons, Bool.false_eq_true, if_false, Option.bind_some, hcast _ hlt,
      Option.getD_some]
    exact UInt64.toNat_ofNat_of_lt' hlt

/-- A body whose missing bytes are counted by an `int` that is not positive is refused. -/
theorem recvBody_refused {lexicalCast : Bytes → Option UInt64} {offset n : Nat} {mem : Bytes}
    {s : HttpRequestParser} (reads : List Bytes)
    (hlength : (s.getContentLength lexicalCast).toNat = n) (hn : n < 2 ^ 63) (hlong : offset < n)
    (hint : Int32.ofNat (n - offset) ≤ 0) : recvBody lexicalCast offset mem s reads = none := by
  have hvalue := toInt_of_toNat hlength hn
  simp only [recvBody, hvalue]
  rw [if_neg (by omega), if_neg (by omega), Int.toNat_natCast, if_pos hint]

/-- Where the head is parsed, whether the body is received depends on how many bytes of it are
missing. -/
theorem recvBody_dump {more : List Bytes} {mem : Bytes} {s : HttpRequestParser}
    (h : req.Printable)
    (hdelivers : Delivers session.buffSize req.dumpHead req.dump (req.dumpHead ++ begun) more)
    (hlength : (s.getContentLength session.lexicalCast).toNat = req.body.length)
    (hsize : req.body.length < 2 ^ 63)
    (hdata : s.data = { req.received with close := true, body := [] }) :
    recvBody session.lexicalCast begun.length (begun ++ mem) s more =
        some (req.received, []) ↔ more = [] ∨ 0 < Int32.ofNat more.flatten.length := by
  have hbody := hdelivers.body
  constructor
  · intro hsome
    by_contra hmissing
    obtain ⟨hmore, hint⟩ := not_or.mp hmissing
    have hpos : 0 < more.flatten.length := List.length_pos_iff.mpr fun hnil =>
      hmore (Pieces.eq_nil_of_flatten hdelivers.ne_nil hnil)
    have hlen : begun.length + more.flatten.length = req.body.length := by
      rw [← hbody, List.length_append]
    have hrest : req.body.length - begun.length = more.flatten.length := by omega
    rw [recvBody_refused more hlength hsize (by omega)
      (by rw [hrest]; exact Int32.not_lt.mp hint)] at hsome
    cases hsome
  · intro hmissing
    rw [← hbody] at hlength hsize
    have hempty : s.data.body = [] := by rw [hdata]
    have hwhole := recvBody_whole [] hempty hlength hsize hdelivers.ne_nil hmissing
    have hinit : ({ req.received with close := true } : HttpRequest).init = req.received :=
      init_of_find h.find_connection
    rw [List.append_nil, hbody, hdata] at hwhole
    rw [recvBody_front session.lexicalCast rfl, hwhole]
    exact congrArg (fun r => some (r, [])) hinit

/-- The text of a request, with its head in one read, comes back as the request if and only
if the lengths are counted right. -/
theorem recvRequest_dump (session : HttpSession) (req : HttpRequest) (first : Bytes)
    (more : List Bytes) (h : req.Printable) (hcast : CastsDecimals session.lexicalCast)
    (hdelivers : Delivers session.buffSize req.dumpHead req.dump first more)
    (hfirst : first.length < 2 ^ 31) (hsize : req.body.length < 2 ^ 63) :
    session.recvRequest (first :: more) = .ok (some (req.received, [])) ↔
      session.Counted req first more := by
  obtain ⟨begun, rfl⟩ := hdelivers.head
  have hbegun : (req.dumpHead ++ begun).length - req.dumpHead.length = begun.length := by
    rw [List.length_append, Nat.add_sub_cancel_left]
  have hresizes : ∀ s : HttpRequestParser,
      s.data = { req.received with close := true, body := [] } →
      (session.Resizes s ↔ req.body.length ≤ session.free) := by
    intro s hdata
    rw [Resizes, toInt_of_toNat (getContentLength_dump h hcast hsize hdata) hsize, Int.ofNat_le]
  constructor
  · intro hreq
    obtain ⟨x, hx, hresized⟩ := recvRequest_some hreq
    obtain ⟨y, hscan, -, hroom⟩ := recvHead_scanned
      (List.append_ne_nil_of_left_ne_nil (dumpHead_ne_nil req) begun) hdelivers.fits
      (Nat.zero_le _) hx
    obtain ⟨s, hscan', -⟩ := scan_first_dump session h hfirst
    obtain rfl := Except.ok.inj (hscan.symm.trans hscan')
    have hroom' : full session.buffSize begun.length = false := hbegun ▸ hroom
    obtain ⟨mem, s, hdata, hhead⟩ := recvHead_dump session begun more h hdelivers.fits hfirst hroom'
    obtain rfl := Option.some.inj (Except.ok.inj (hx.symm.trans hhead))
    rw [recvRequest_eq hhead hresized] at hreq
    exact ⟨hroom, (hresizes s hdata).mp hresized, (recvBody_dump h hdelivers
      (getContentLength_dump h hcast hsize hdata) hsize hdata).mp (Except.ok.inj hreq)⟩
  · rintro ⟨hroom, hfree, hmissing⟩
    rw [hbegun] at hroom
    obtain ⟨mem, s, hdata, hhead⟩ := recvHead_dump session begun more h hdelivers.fits hfirst hroom
    rw [recvRequest_eq hhead ((hresizes s hdata).mpr hfree), (recvBody_dump h hdelivers
      (getContentLength_dump h hcast hsize hdata) hsize hdata).mpr hmissing]

def reader : HttpSession :=
  { HttpServer.roomy with lexicalCast := fun text => some (UInt64.ofNat (value text)) }

def greeting : HttpRequest :=
  { HttpRequest.fresh with
    method := .PUT
    close := false
    path := ascii ['/', 'a']
    query := ascii ['q', '=', '1']
    fragment := ascii ['f']
    body := ascii ['o', 'k']
    headers := [(ascii ['H', 'o', 's', 't'], ascii ['x', ' ', 'y'])] }

theorem greeting_printable : greeting.Printable where
  version := by decide
  method := (Part.accepts_iff Part.method_reads).mp (by decide)
  path := (Part.accepts_iff Part.path_reads).mp (by decide)
  query := (Part.accepts_iff Part.query_reads).mp (by decide)
  fragment := (Part.accepts_iff Part.fragment_reads).mp (by decide)
  ordered := List.pairwise_singleton _ _
  plain := List.forall_mem_singleton.mpr (Plain.of_check (by decide) (by decide))
  connection := by decide
  contentLength := by decide

theorem recvRequest_dump_greeting :
    reader.recvRequest [greeting.dumpHead ++ ascii ['o'], ascii ['k']] =
      .ok (some (greeting.received, [])) :=
  (recvRequest_dump reader greeting _ _ greeting_printable castsDecimals_value
    ⟨rfl, List.prefix_append _ _, by decide, by decide⟩ (by decide) (by decide)).mpr
    ⟨by decide, by decide, by decide⟩

def huge : HttpRequest := { HttpRequest.fresh with body := List.replicate (2 ^ 31) 0 }

theorem huge_printable : huge.Printable where
  version := .inr rfl
  method := (Part.accepts_iff Part.method_reads).mp (by decide)
  path := (Part.accepts_iff Part.path_reads).mp (by decide)
  query := (Part.accepts_iff Part.query_reads).mp (by decide)
  fragment := (Part.accepts_iff Part.fragment_reads).mp (by decide)
  ordered := List.Pairwise.nil
  plain := List.forall_mem_nil _
  connection := List.forall_mem_nil _
  contentLength := List.forall_mem_nil _

@[simp] theorem huge_body_length : huge.body.length = 2 ^ 31 := List.length_replicate

theorem huge_body_ne_nil : huge.body ≠ [] := by
  apply List.length_pos_iff.mp
  rw [huge_body_length]
  decide

theorem huge_dumpHead_length : huge.dumpHead.length ≤ 160 := by
  have hempty : ¬ huge.body.isEmpty = true := by simpa using huge_body_ne_nil
  rw [dumpHead, if_neg hempty, huge_body_length]
  decide

/-- The length of a large body is a negative `int`, and the call gives up. -/
theorem huge_refused :
    huge.Printable ∧ CastsDecimals reader.lexicalCast ∧
      Delivers reader.buffSize huge.dumpHead huge.dump huge.dumpHead [huge.body] ∧
      reader.recvRequest [huge.dumpHead, huge.body] = .ok none := by
  have hfits := huge_dumpHead_length
  have hne : ∀ c ∈ [huge.body], c ≠ [] := List.forall_mem_singleton.mpr huge_body_ne_nil
  refine ⟨huge_printable, castsDecimals_value, ⟨?_, List.prefix_rfl, hfits, hne⟩, ?_⟩
  · rw [List.flatten_singleton, dump]
  have hhead : huge.dumpHead ++ [] = huge.dumpHead := List.append_nil _
  obtain ⟨mem, s, hdata, hrecv⟩ := recvHead_dump reader [] [huge.body] huge_printable
    (by rw [hhead]; exact hfits) (by rw [hhead]; omega) (by decide)
  have hcast : CastsDecimals reader.lexicalCast := castsDecimals_value
  have hlength := getContentLength_dump huge_printable hcast
    (by rw [huge_body_length]; decide) hdata
  rw [huge_body_length] at hlength
  have hsize : reader.Resizes s := by
    rw [Resizes, toInt_of_toNat hlength (by decide)]
    exact Int.ofNat_le.mpr reader.room
  rw [hhead] at hrecv
  rw [recvRequest_eq hrecv hsize,
    recvBody_refused _ hlength (by decide) (by decide) (by decide)]

end HttpSession

end Sylar.Http
