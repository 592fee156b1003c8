import Sylar.Http.ClientAutomaton
import Sylar.Http.Parser

/-! `HttpResponseParser` and `HttpConnection::recvResponse`. The parser is run over
the head and then, started anew by every call, over the size line of each chunk;
the data of a chunk is taken from the buffer as far as it is there and from the
socket for the rest. -/
namespace Sylar.Http

open Lib.Blocks (overwrite)

section Numbers

/-- The value of a character as a digit, 36 if it is none. -/
def digitValue (b : UInt8) : Nat :=
  if 48 ≤ b ∧ b ≤ 57 then b.toNat - 48
  else if 65 ≤ b ∧ b ≤ 90 then b.toNat - 55
  else if 97 ≤ b ∧ b ≤ 122 then b.toNat - 87
  else 36

def isspace (b : UInt8) : Bool := b == 32 || (9 ≤ b && b ≤ 13)

def sign : Bytes → Bool × Bytes
  | 45 :: text => (true, text)
  | 43 :: text => (false, text)
  | text => (false, text)

/-- A hexadecimal number may be written with `0x`. -/
def skipHex (base : Nat) : Bytes → Bytes
  | 48 :: x :: d :: text =>
    if base = 16 ∧ (x = 120 ∨ x = 88) ∧ digitValue d < 16 then d :: text else 48 :: x :: d :: text
  | text => text

/-- The number that the digits at the front of the text spell. -/
def numeral (base : Nat) (text : Bytes) : Nat :=
  ((text.map digitValue).takeWhile (· < base)).foldl (fun n d => n * base + d) 0

/-- `strtol(text, NULL, base)`, which stays in the range of a `long`. -/
def strtol (base : Nat) (text : Bytes) : Int :=
  let (negative, text) := sign (text.dropWhile isspace)
  let n : Int := numeral base (skipHex base text)
  if negative then max (-n) (-2 ^ 63) else min n (2 ^ 63 - 1)

def toInt (n : Int) : Int := n.bmod (2 ^ 32)

def atoi (text : Bytes) : Int := toInt (strtol 10 text)

end Numbers

structure HttpResponse where
  status : Int
  version : Nat
  close : Bool
  body : Bytes
  reason : Bytes
  headers : Headers
deriving DecidableEq

def HttpResponse.fresh : HttpResponse :=
  { status := 200
    version := 0x11
    close := true
    body := []
    reason := []
    headers := [] }

structure HttpclientParser where
  cs : Nat
  bodyStart : Nat
  contentLen : Int
  status : Int
  chunked : Bool
  chunksDone : Bool
  close : Bool
  nread : Nat
  mark : Nat
  fieldStart : Nat
  fieldLen : Nat
deriving DecidableEq

structure HttpResponseParser where
  parser : HttpclientParser
  data : HttpResponse
  error : Nat
deriving DecidableEq

namespace Client

section Callbacks

variable (mem : Bytes)

def onResponseReason (off length : Nat) (s : HttpResponseParser) :
    Except Fault HttpResponseParser := do
  let text ← stdString mem off length
  return { s with data := { s.data with reason := text } }

def onResponseStatus (off : Nat) (s : HttpResponseParser) : HttpResponseParser :=
  { s with data := { s.data with status := atoi (mem.drop off) } }

def onResponseVersion (off length : Nat) (s : HttpResponseParser) : HttpResponseParser :=
  let http11 := ascii ['H', 'T', 'T', 'P', '/', '1', '.', '1'] ++ [0]
  let http10 := ascii ['H', 'T', 'T', 'P', '/', '1', '.', '0'] ++ [0]
  if strncmpEq (mem.drop off) http11 length then { s with data := { s.data with version := 0x11 } }
  else if strncmpEq (mem.drop off) http10 length then
    { s with data := { s.data with version := 0x10 } }
  else { s with error := 1001 }

def onResponseHttpField (field flen value vlen : Nat) (s : HttpResponseParser) :
    Except Fault HttpResponseParser :=
  if flen = 0 then .ok s
  else do
    let key ← stdString mem field flen
    let val ← stdString mem value vlen
    return { s with data := { s.data with headers := s.data.headers.set key val } }

/-- One action of the grammar with `fpc` at offset `p`. The callbacks for chunks and
for the end of the headers do nothing. -/
def act (p : Nat) (s : HttpResponseParser) : Action → Except Fault HttpResponseParser
  | .mark => .ok { s with parser := { s.parser with mark := p } }
  | .start_field => .ok { s with parser := { s.parser with fieldStart := p } }
  | .write_field => .ok { s with parser := { s.parser with fieldLen := len s.parser.fieldStart p } }
  | .write_content_len =>
    .ok { s with
      parser := { s.parser with contentLen := toInt (strtol 10 (mem.drop s.parser.mark)) } }
  | .write_connection_close => .ok { s with parser := { s.parser with close := true } }
  | .write_value =>
    onResponseHttpField mem s.parser.fieldStart s.parser.fieldLen s.parser.mark
      (len s.parser.mark p) s
  | .reason_phrase => onResponseReason mem s.parser.mark (len s.parser.mark p) s
  | .status_code =>
    let status := toInt (strtol 10 (mem.drop s.parser.mark))
    .ok (onResponseStatus mem s.parser.mark { s with parser := { s.parser with status } })
  | .http_version => .ok (onResponseVersion mem s.parser.mark (len s.parser.mark p) s)
  | .chunk_size =>
    let contentLen := toInt (strtol 16 (mem.drop s.parser.mark))
    .ok { s with
      parser := { s.parser with chunked := true, contentLen, chunksDone := contentLen ≤ 0 } }
  | .trans_chunked => .ok { s with parser := { s.parser with chunked := true } }
  | .done => .ok { s with parser := { s.parser with bodyStart := p + 1 } }

/-- The generated loop over the bytes from offset `p`: the offset and the state it
stops with. `done` breaks out of it after stepping over its byte. -/
def scan : Nat → Nat → Bytes → HttpResponseParser → Except Fault (Nat × Nat × HttpResponseParser)
  | p, cs, [], s => .ok (p, cs, s)
  | p, cs, b :: bs, s =>
    match next cs b with
    | none => .ok (p, httpclientParserError, s)
    | some arc => do
      let s ← arc.actions.foldlM (act mem p) s
      if .done ∈ arc.actions then return (p + 1, arc.target, s)
      else scan (p + 1) arc.target bs s

end Callbacks

end Client

open Client (httpclientParserStart httpclientParserFirstFinal httpclientParserError)

namespace HttpclientParser

def hasError (parser : HttpclientParser) : Bool := parser.cs == httpclientParserError

/-- Of the four final states only the first counts. -/
def isFinished (parser : HttpclientParser) : Bool := parser.cs == httpclientParserFirstFinal

/-- `httpclient_parser_init`, which leaves the status as it was. -/
def init (status : Int) : HttpclientParser :=
  { cs := httpclientParserStart
    bodyStart := 0
    contentLen := -1
    status
    chunked := false
    chunksDone := false
    close := false
    nread := 0
    mark := 0
    fieldStart := 0
    fieldLen := 0 }

def rewind (parser : HttpclientParser) : HttpclientParser :=
  { parser with nread := 0, mark := 0, fieldLen := 0, fieldStart := 0 }

end HttpclientParser

namespace HttpResponseParser

def rewind (s : HttpResponseParser) : HttpResponseParser := { s with parser := s.parser.rewind }

def stopped (p cs : Nat) (s : HttpResponseParser) : HttpResponseParser :=
  { s with parser := { s.parser with cs, nread := p } }

def httpclientParserExecute (mem : Bytes) (length : Nat) (s : HttpResponseParser) :
    Except Fault (Nat × HttpResponseParser) := do
  if mem[length]? ≠ some 0 then throw .assertion
  let (p, cs, s) ←
    -- the error state has no case in the switch, and the label after it stands for state 2
    if s.parser.cs = httpclientParserError ∧ length ≠ 0 then .ok (0, 2, s.rewind)
    else Client.scan mem 0 s.parser.cs (mem.take length) s.rewind
  let s := s.stopped p cs
  if s.parser.nread ≤ length ∧ s.parser.bodyStart ≤ length then
    -- a failed check returns -1, and `execute` then moves bytes from before the buffer
    if s.parser.mark < length ∧ s.parser.fieldLen ≤ length ∧ s.parser.fieldStart < length then
      return (s.parser.nread, s)
    else throw .outOfBounds
  else throw .assertion

/-- Parse, from a fresh state for a chunk, and move what is left to the front of the
buffer. -/
def execute (mem : Bytes) (length : Nat) (chunck : Bool) (s : HttpResponseParser) :
    Except Fault (Nat × Bytes × HttpResponseParser) := do
  let s := if chunck then { s with parser := .init s.parser.status } else s
  let (offset, s) ← s.httpclientParserExecute mem length
  return (offset, overwrite mem 0 ((mem.drop offset).take (length - offset)), s)

def isFinished (s : HttpResponseParser) : Bool := s.parser.isFinished

def hasError (s : HttpResponseParser) : Bool := s.error != 0 || s.parser.hasError

def getContentLength (lexicalCast : Bytes → Option UInt64) (s : HttpResponseParser) : UInt64 :=
  let key := ascii ['c', 'o', 'n', 't', 'e', 'n', 't', '-', 'l', 'e', 'n', 'g', 't', 'h']
  ((s.data.headers.find key).bind lexicalCast).getD 0

end HttpResponseParser

/-- What a call of `recvResponse` finds: the size of its buffer, which is an `int`, the
bytes in and after the buffer, the member of the parser that nothing sets, and
`boost::lexical_cast` to an unsigned number. -/
structure ResponseCall where
  buffSize : Nat
  memory : Bytes
  status : Int
  lexicalCast : Bytes → Option UInt64
  fits : buffSize + 1 ≤ memory.length
  int : buffSize < 2 ^ 31

namespace ResponseCall

/-- The loop that reads and parses until the head is complete. As for a request, an
empty answer of `read` and one that does not fit stand for a failed `read`. -/
def recvHead (buffSize : Nat) : List Bytes → Nat → Bytes → HttpResponseParser →
    Except Fault (Option (Nat × Bytes × HttpResponseParser × List Bytes))
  | [], _, _, _ => .ok none
  | c :: reads, offset, mem, s =>
    if c = [] ∨ buffSize - offset < c.length then .ok none
    else do
      let length := c.length + offset
      let (nparse, mem, s) ← s.execute (overwrite (overwrite mem offset c) length [0]) length false
      if s.hasError then return none
      else if length - nparse = buffSize then return none
      else if s.isFinished then return some (length - nparse, mem, s, reads)
      else recvHead buffSize reads (length - nparse) mem s

/-- One round of the loop over a size line, with `length` bytes in the buffer. -/
def parseSize (buffSize length : Nat) (mem : Bytes) (s : HttpResponseParser) :
    Except Fault (Option (Nat × Bytes × HttpResponseParser)) := do
  let (nparse, mem, s) ← s.execute (overwrite mem length [0]) length true
  if s.hasError then return none
  else if length - nparse = buffSize then return none
  else return some (length - nparse, mem, s)

def recvSize (buffSize : Nat) : List Bytes → Nat → Bytes → HttpResponseParser →
    Except Fault (Option (Nat × Bytes × HttpResponseParser × List Bytes))
  | [], _, _, _ => .ok none
  | c :: reads, length, mem, s =>
    if c = [] ∨ buffSize - length < c.length then .ok none
    else do
      match ← parseSize buffSize (length + c.length) (overwrite mem length c) s with
      | none => return none
      | some (length, mem, s) =>
        if s.isFinished then return some (length, mem, s, reads)
        else recvSize buffSize reads length mem s

/-- The loop over a size line: its first round reads only if the buffer is empty. -/
def chunkSize (buffSize : Nat) (reads : List Bytes) (length : Nat) (mem : Bytes)
    (s : HttpResponseParser) :
    Except Fault (Option (Nat × Bytes × HttpResponseParser × List Bytes)) :=
  if length = 0 then recvSize buffSize reads length mem s
  else do
    match ← parseSize buffSize length mem s with
    | none => return none
    | some (length, mem, s) =>
      if s.isFinished then return some (length, mem, s, reads)
      else recvSize buffSize reads length mem s

def recvLeft (buffSize : Nat) : List Bytes → Nat → Bytes → Bytes →
    Option (Bytes × Bytes × List Bytes)
  | reads, 0, mem, body => some (mem, body, reads)
  | [], _ + 1, _, _ => none
  | c :: reads, left + 1, mem, body =>
    if c = [] ∨ min (left + 1) buffSize < c.length then none
    else recvLeft buffSize reads (left + 1 - c.length) (overwrite mem 0 c) (body ++ c)

/-- The data of a chunk and the two bytes after it. -/
def chunkData (buffSize : Nat) (reads : List Bytes) (length : Nat) (mem : Bytes) (contentLen : Int)
    (body : Bytes) : Except Fault (Option (Nat × Bytes × Bytes × List Bytes)) :=
  if toInt (contentLen + 2) ≤ length then do
    let text ← stdString mem 0 (contentLen % 2 ^ 64).toNat
    let taken := (contentLen + 2).toNat
    return some (length - taken, overwrite mem 0 ((mem.drop taken).take (length - taken)),
      body ++ text, reads)
  else
    match recvLeft buffSize reads (contentLen - length + 2).toNat mem (body ++ mem.take length) with
    | none => .ok none
    | some (mem, body, reads) =>
      if body.length < 2 then .error .lengthError
      else .ok (some (0, mem, body.take (body.length - 2), reads))

/-- The loop over the chunks. Each round takes bytes from the buffer or the socket, so
their number bounds the rounds. -/
def recvChunks (buffSize : Nat) : Nat → List Bytes → Nat → Bytes → HttpResponseParser → Bytes →
    Except Fault (Option (HttpResponseParser × Bytes × List Bytes))
  | 0, _, _, _, _, _ => .ok none
  | rounds + 1, reads, length, mem, s, body => do
    match ← chunkSize buffSize reads length mem s with
    | none => return none
    | some (length, mem, s, reads) =>
      match ← chunkData buffSize reads length mem s.parser.contentLen body with
      | none => return none
      | some (length, mem, body, reads) =>
        if s.parser.chunksDone then return some (s, body, reads)
        else recvChunks buffSize rounds reads length mem s body

def recvBody (lexicalCast : Bytes → Option UInt64) (offset : Nat) (mem : Bytes)
    (s : HttpResponseParser) (reads : List Bytes) : Option (HttpResponse × List Bytes) :=
  let length := (s.getContentLength lexicalCast).toInt64.toInt
  if length ≤ 0 then some (s.data, reads)
  else if length ≤ offset then some ({ s.data with body := mem.take length.toNat }, reads)
  else
    let left := length.toNat - offset
    if Int32.ofNat left ≤ 0 then none
    else do
      let (bytes, reads) ← HttpSession.readFixSize left reads
      return ({ s.data with body := mem.take offset ++ bytes }, reads)

def parser (call : ResponseCall) : HttpResponseParser :=
  { parser := .init call.status, data := .fresh, error := 0 }

/-- A response and the answers of `read` that the call did not take, or nothing when it
closed the connection. -/
def recvResponse (call : ResponseCall) (reads : List Bytes) :
    Except Fault (Option (HttpResponse × List Bytes)) := do
  match ← recvHead call.buffSize reads 0 call.memory call.parser with
  | none => return none
  | some (offset, mem, s, reads) =>
    if s.parser.chunked then
      match ← recvChunks call.buffSize (offset + reads.flatten.length + 1) reads offset mem s [] with
      | none => return none
      | some (s, body, reads) => return some ({ s.data with body }, reads)
    else return recvBody call.lexicalCast offset mem s reads

end ResponseCall

end Sylar.Http
