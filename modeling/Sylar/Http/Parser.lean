import Sylar.Http.Automaton
import Sylar.Http.Request
import Sylar.Lib.Blocks

/-! `HttpRequestParser` and `HttpSession::recvRequest`. The parser keeps its state
and its offsets in one record; `http_parser_execute` runs the automaton over the
buffer from the front and the callbacks read the buffer at the recorded offsets.
The memory is a list of bytes that begins with the buffer. -/
namespace Sylar.Http

open Lib.Blocks (overwrite)

inductive Fault where
  | assertion
  | lengthError
  | badAlloc
  | outOfBounds
deriving Repr, DecidableEq

structure HttpParser where
  cs : Nat
  bodyStart : Nat
  contentLen : Int
  nread : Nat
  mark : Nat
  fieldStart : Nat
  fieldLen : Nat
  queryStart : Nat
  xmlSent : Bool
  jsonSent : Bool
  uriRelaxed : Bool
deriving DecidableEq

structure HttpRequestParser where
  parser : HttpParser
  data : HttpRequest
  error : Nat
deriving DecidableEq

def len (off p : Nat) : Nat := if off ≤ p then p - off else 2 ^ 64 + p - off

/-- `std::string(data + off, length)`. -/
def stdString (mem : Bytes) (off length : Nat) : Except Fault Bytes :=
  if 2 ^ 63 ≤ length then .error .lengthError
  else if off + length ≤ mem.length then .ok ((mem.drop off).take length)
  else .error .outOfBounds

section Callbacks

variable (mem : Bytes)

/-- A callback that compares texts, where it reads nothing outside the memory. -/
def comparing (inside : Bool) (s : HttpRequestParser) : Except Fault HttpRequestParser :=
  if inside then .ok s else .error .outOfBounds

@[simp] theorem comparing_true (s : HttpRequestParser) : comparing true s = .ok s := rfl

theorem comparing_eq_ok {inside : Bool} {s s' : HttpRequestParser} :
    comparing inside s = .ok s' ↔ inside ∧ s = s' := by
  cases inside <;> simp [comparing]

def onRequestMethod (off : Nat) (s : HttpRequestParser) : HttpRequestParser :=
  let m := charsToHttpMethod (mem.drop off)
  if m = .INVAILD_METHOD then { s with error := 1000 }
  else { s with data := { s.data with method := m } }

def onText (set : Bytes → HttpRequest → HttpRequest) (off length : Nat) (s : HttpRequestParser) :
    Except Fault HttpRequestParser := do
  let text ← stdString mem off length
  return { s with data := set text s.data }

def onRequestFragment := onText mem fun text req => { req with fragment := text }

def onRequestPath := onText mem fun text req => { req with path := text }

def onRequestQuery := onText mem fun text req => { req with query := text }

def http11 : Bytes := ascii ['H', 'T', 'T', 'P', '/', '1', '.', '1'] ++ [0]

def http10 : Bytes := ascii ['H', 'T', 'T', 'P', '/', '1', '.', '0'] ++ [0]

def onRequestVersion (off length : Nat) (s : HttpRequestParser) : HttpRequestParser :=
  if strncmpEq (mem.drop off) http11 length then { s with data := { s.data with version := 0x11 } }
  else if strncmpEq (mem.drop off) http10 length then
    { s with data := { s.data with version := 0x10 } }
  else { s with error := 1001 }

/-- The comparisons of `onRequestVersion` stay inside the memory. -/
def versionInside (off length : Nat) : Bool :=
  strncmpInside (mem.drop off) http11 length &&
    (strncmpEq (mem.drop off) http11 length || strncmpInside (mem.drop off) http10 length)

def onRequestHttpField (field flen value vlen : Nat) (s : HttpRequestParser) :
    Except Fault HttpRequestParser :=
  if flen = 0 then .ok s
  else do
    let key ← stdString mem field flen
    let val ← stdString mem value vlen
    return { s with data := { s.data with headers := s.data.headers.set key val } }

/-- One action of the grammar with `fpc` at offset `p`. The callbacks for the whole
URI and for the end of the headers do nothing. -/
def act (p : Nat) (s : HttpRequestParser) : Action → Except Fault HttpRequestParser
  | .mark => .ok { s with parser := { s.parser with mark := p } }
  | .start_field => .ok { s with parser := { s.parser with fieldStart := p } }
  | .write_field => .ok { s with parser := { s.parser with fieldLen := len s.parser.fieldStart p } }
  | .write_value =>
    onRequestHttpField mem s.parser.fieldStart s.parser.fieldLen s.parser.mark
      (len s.parser.mark p) s
  | .request_method =>
    comparing (charsInside (mem.drop s.parser.mark)) (onRequestMethod mem s.parser.mark s)
  | .request_uri => .ok s
  | .fragment => onRequestFragment mem s.parser.mark (len s.parser.mark p) s
  | .start_query => .ok { s with parser := { s.parser with queryStart := p } }
  | .query_string => onRequestQuery mem s.parser.queryStart (len s.parser.queryStart p) s
  | .http_version =>
    comparing (versionInside mem s.parser.mark (len s.parser.mark p))
      (onRequestVersion mem s.parser.mark (len s.parser.mark p) s)
  | .request_path => onRequestPath mem s.parser.mark (len s.parser.mark p) s
  | .done =>
    if s.parser.xmlSent ∨ s.parser.jsonSent then
      .ok { s with
        parser := { s.parser with
          bodyStart := s.parser.mark
          contentLen := (p : Int) - s.parser.mark + 1 } }
    else .ok { s with parser := { s.parser with bodyStart := p + 1 } }
  | .xml => .ok { s with parser := { s.parser with xmlSent := true } }
  | .json => .ok { s with parser := { s.parser with jsonSent := true } }

/-- The generated loop over the bytes from offset `p`: the offset and the state it
stops with. `done` breaks out of it after stepping over its byte. -/
def scan : Nat → Nat → Bytes → HttpRequestParser → Except Fault (Nat × Nat × HttpRequestParser)
  | p, cs, [], s => .ok (p, cs, s)
  | p, cs, b :: bs, s =>
    match next s.parser.uriRelaxed cs b with
    | none => .ok (p, httpParserError, s)
    | some arc => do
      let s ← arc.actions.foldlM (act mem p) s
      if .done ∈ arc.actions then return (p + 1, arc.target, s)
      else scan (p + 1) arc.target bs s

end Callbacks

namespace HttpParser

def hasError (parser : HttpParser) : Bool := parser.cs == httpParserError

def isFinished (parser : HttpParser) : Bool := httpParserFirstFinal ≤ parser.cs

def finish (parser : HttpParser) : Int :=
  if parser.hasError then -1 else if parser.isFinished then 1 else 0

/-- `http_parser_init`, which leaves two members as they were allocated. -/
def init (queryStart : Nat) (uriRelaxed : Bool) : HttpParser :=
  { cs := httpParserStart
    bodyStart := 0
    contentLen := 0
    nread := 0
    mark := 0
    fieldStart := 0
    fieldLen := 0
    queryStart
    xmlSent := false
    jsonSent := false
    uriRelaxed }

def rewind (parser : HttpParser) : HttpParser :=
  { parser with nread := 0, mark := 0, fieldLen := 0, fieldStart := 0 }

/-- What `http_parser_execute` asserts when it is through. -/
def InBounds (parser : HttpParser) (length : Nat) : Prop :=
  parser.nread ≤ length ∧ parser.bodyStart ≤ length ∧ parser.mark < length ∧
    parser.fieldLen ≤ length ∧ parser.fieldStart < length

instance (parser : HttpParser) (length : Nat) : Decidable (parser.InBounds length) :=
  inferInstanceAs (Decidable (_ ∧ _))

end HttpParser

namespace HttpRequestParser

def rewind (s : HttpRequestParser) : HttpRequestParser := { s with parser := s.parser.rewind }

def stopped (p cs : Nat) (s : HttpRequestParser) : HttpRequestParser :=
  { s with
    parser := { s.parser with
      cs := if s.parser.hasError then s.parser.cs else cs
      nread := p } }

def httpParserExecute (mem : Bytes) (length : Nat) (s : HttpRequestParser) :
    Except Fault (Nat × HttpRequestParser) :=
  if length = 0 then .ok (0, s)
  else do
    let (p, cs, s) ← scan mem 0 s.parser.cs (mem.take length) s.rewind
    let s := s.stopped p cs
    if s.parser.InBounds length then return (s.parser.nread, s) else .error .assertion

def execute (mem : Bytes) (length : Nat) (s : HttpRequestParser) :
    Except Fault (Nat × Bytes × HttpRequestParser) := do
  let (offset, s) ← s.httpParserExecute mem length
  return (offset, overwrite mem 0 ((mem.drop offset).take (length - offset)), s)

def isFinished (s : HttpRequestParser) : Bool := s.parser.finish != 0

def hasError (s : HttpRequestParser) : Bool := s.error != 0 || s.parser.hasError

def getContentLength (lexicalCast : Bytes → Option UInt64) (s : HttpRequestParser) : UInt64 :=
  let key := ascii ['c', 'o', 'n', 't', 'e', 'n', 't', '-', 'l', 'e', 'n', 'g', 't', 'h']
  ((s.data.headers.find key).bind lexicalCast).getD 0

end HttpRequestParser

/-- What a call of `recvRequest` finds: the size of its buffer, the bytes in and
after the buffer and the two members of the parser that nothing sets,
`boost::lexical_cast` to an unsigned number, `max_size` of a `std::string` and how
long a string can be allocated. A string shorter than 2^31 bytes always can. -/
structure HttpSession where
  buffSize : Nat
  memory : Bytes
  queryStart : Nat
  uriRelaxed : Bool
  lexicalCast : Bytes → Option UInt64
  maxSize : Nat
  free : Nat
  fits : buffSize ≤ memory.length
  free_le : free ≤ maxSize
  room : 2 ^ 31 ≤ free

namespace HttpSession

/-- `Stream::readFixSize` over the answers of `read`: the bytes and the answers that
are left. An empty answer and one that does not fit stand for a failed `read`. -/
def readFixSize : Nat → List Bytes → Option (Bytes × List Bytes)
  | 0, reads => some ([], reads)
  | _ + 1, [] => none
  | left + 1, c :: reads =>
    if c = [] ∨ left + 1 < c.length then none
    else do
      let (bytes, reads) ← readFixSize (left + 1 - c.length) reads
      return (c ++ bytes, reads)

/-- The test for a full buffer, `offset == (int)buff_size` with an `int` on both sides. -/
def full (buffSize offset : Nat) : Bool := Int32.ofNat offset == Int32.ofNat buffSize

/-- The loop that reads and parses until the head is complete: how much of the
buffer is left, the buffer, the parser and the answers that are left. -/
def recvHead (buffSize : Nat) : List Bytes → Nat → Bytes → HttpRequestParser →
    Except Fault (Option (Nat × Bytes × HttpRequestParser × List Bytes))
  | [], _, _, _ => .ok none
  | c :: reads, offset, mem, s =>
    if c = [] ∨ buffSize - offset < c.length then .ok none
    else do
      let length := c.length + offset
      let (nparse, mem, s) ← s.execute (overwrite mem offset c) length
      if s.hasError then return none
      else if full buffSize (length - nparse) then return none
      else if s.isFinished then return some (length - nparse, mem, s, reads)
      else recvHead buffSize reads (length - nparse) mem s

/-- `body.resize(length)` for the length that the head declares, where it is positive. -/
def resizeBody (session : HttpSession) (s : HttpRequestParser) : Except Fault Unit :=
  let length := (s.getContentLength session.lexicalCast).toInt64.toInt
  if session.maxSize < length then .error .lengthError
  else if session.free < length then .error .badAlloc
  else .ok ()

/-- The part of `recvRequest` after its loop, when the body has been resized. -/
def recvBody (lexicalCast : Bytes → Option UInt64) (offset : Nat) (mem : Bytes)
    (s : HttpRequestParser) (reads : List Bytes) : Option (HttpRequest × List Bytes) :=
  let length := (s.getContentLength lexicalCast).toInt64.toInt
  if length ≤ 0 then some (s.data.init, reads)
  else if length ≤ offset then
    some ({ s.data with body := mem.take length.toNat }.init, reads)
  else
    let left := length.toNat - offset
    -- the bytes wanted are returned as an `int`, and a negative one is taken for a failure
    if Int32.ofNat left ≤ 0 then none
    else do
      let (bytes, reads) ← readFixSize left reads
      return ({ s.data with body := mem.take offset ++ bytes }.init, reads)

def parser (session : HttpSession) : HttpRequestParser :=
  { parser := .init session.queryStart session.uriRelaxed, data := .fresh, error := 0 }

/-- A request and the answers of `read` that the call did not take, or nothing when
it closed the connection. -/
def recvRequest (session : HttpSession) (reads : List Bytes) :
    Except Fault (Option (HttpRequest × List Bytes)) := do
  match ← recvHead session.buffSize reads 0 session.memory session.parser with
  | none => return none
  | some (offset, mem, s, reads) =>
    session.resizeBody s
    return recvBody session.lexicalCast offset mem s reads

end HttpSession

end Sylar.Http
