import Sylar.Lib.OrderedSet

/-! The request that the parser fills in, and the library functions on characters
that it goes through. Headers are a map ordered by keys without regard to
case. -/
namespace Sylar.Http

open Lib

abbrev Bytes := List UInt8

def ascii (text : List Char) : Bytes := text.map fun c => c.toNat.toUInt8

/-- `strncmp(a, b, n) == 0` for two stretches of memory. -/
def strncmpEq : Bytes → Bytes → Nat → Bool
  | _, _, 0 => true
  | a :: as, b :: bs, n + 1 => a == b && (a == 0 || strncmpEq as bs n)
  | _, _, _ => false

/-- `strncmp(a, b, n)` has its answer before it is past the end of either stretch. -/
def strncmpInside : Bytes → Bytes → Nat → Bool
  | _, _, 0 => true
  | a :: as, b :: bs, n + 1 => a != b || a == 0 || strncmpInside as bs n
  | _, _, _ => false

def tolower (b : UInt8) : UInt8 := if 65 ≤ b ∧ b ≤ 90 then b + 32 else b

/-- `strcasecmp(lhs, rhs) < 0`; a text ends with its first null. -/
def strcasecmpLess : Bytes → Bytes → Bool
  | [], [] => false
  | [], r :: _ => r != 0
  | _ :: _, [] => false
  | l :: ls, r :: rs =>
    if l = 0 then r != 0
    else if tolower l = tolower r then strcasecmpLess ls rs
    else tolower l < tolower r

def strcasecmpEq (lhs rhs : Bytes) : Bool := !strcasecmpLess lhs rhs && !strcasecmpLess rhs lhs

inductive HttpMethod where
  | DELETE | GET | HEAD | POST | PUT | CONNECT | OPTIONS | TRACE | COPY | LOCK | MKCOL | MOVE
  | PROPFIND | PROPPATCH | SEARCH | UNLOCK | BIND | REBIND | UNBIND | ACL | REPORT | MKACTIVITY
  | CHECKOUT | MERGE | MSEARCH | NOTIFY | SUBSCRIBE | UNSUBSCRIBE | PATCH | PURGE | MKCALENDAR
  | LINK | UNLINK | SOURCE | INVAILD_METHOD
deriving Repr, DecidableEq

/-- `HTTP_METHOD_MAP`. The text of `MSEARCH` comes from the tokens `M - SEARCH`
and has their blanks. -/
def httpMethodMap : List (HttpMethod × Bytes) :=
  [(.DELETE, ascii ['D', 'E', 'L', 'E', 'T', 'E']),
   (.GET, ascii ['G', 'E', 'T']),
   (.HEAD, ascii ['H', 'E', 'A', 'D']),
   (.POST, ascii ['P', 'O', 'S', 'T']),
   (.PUT, ascii ['P', 'U', 'T']),
   (.CONNECT, ascii ['C', 'O', 'N', 'N', 'E', 'C', 'T']),
   (.OPTIONS, ascii ['O', 'P', 'T', 'I', 'O', 'N', 'S']),
   (.TRACE, ascii ['T', 'R', 'A', 'C', 'E']),
   (.COPY, ascii ['C', 'O', 'P', 'Y']),
   (.LOCK, ascii ['L', 'O', 'C', 'K']),
   (.MKCOL, ascii ['M', 'K', 'C', 'O', 'L']),
   (.MOVE, ascii ['M', 'O', 'V', 'E']),
   (.PROPFIND, ascii ['P', 'R', 'O', 'P', 'F', 'I', 'N', 'D']),
   (.PROPPATCH, ascii ['P', 'R', 'O', 'P', 'P', 'A', 'T', 'C', 'H']),
   (.SEARCH, ascii ['S', 'E', 'A', 'R', 'C', 'H']),
   (.UNLOCK, ascii ['U', 'N', 'L', 'O', 'C', 'K']),
   (.BIND, ascii ['B', 'I', 'N', 'D']),
   (.REBIND, ascii ['R', 'E', 'B', 'I', 'N', 'D']),
   (.UNBIND, ascii ['U', 'N', 'B', 'I', 'N', 'D']),
   (.ACL, ascii ['A', 'C', 'L']),
   (.REPORT, ascii ['R', 'E', 'P', 'O', 'R', 'T']),
   (.MKACTIVITY, ascii ['M', 'K', 'A', 'C', 'T', 'I', 'V', 'I', 'T', 'Y']),
   (.CHECKOUT, ascii ['C', 'H', 'E', 'C', 'K', 'O', 'U', 'T']),
   (.MERGE, ascii ['M', 'E', 'R', 'G', 'E']),
   (.MSEARCH, ascii ['M', ' ', '-', ' ', 'S', 'E', 'A', 'R', 'C', 'H']),
   (.NOTIFY, ascii ['N', 'O', 'T', 'I', 'F', 'Y']),
   (.SUBSCRIBE, ascii ['S', 'U', 'B', 'S', 'C', 'R', 'I', 'B', 'E']),
   (.UNSUBSCRIBE, ascii ['U', 'N', 'S', 'U', 'B', 'S', 'C', 'R', 'I', 'B', 'E']),
   (.PATCH, ascii ['P', 'A', 'T', 'C', 'H']),
   (.PURGE, ascii ['P', 'U', 'R', 'G', 'E']),
   (.MKCALENDAR, ascii ['M', 'K', 'C', 'A', 'L', 'E', 'N', 'D', 'A', 'R']),
   (.LINK, ascii ['L', 'I', 'N', 'K']),
   (.UNLINK, ascii ['U', 'N', 'L', 'I', 'N', 'K']),
   (.SOURCE, ascii ['S', 'O', 'U', 'R', 'C', 'E'])]

/-- The first method whose text the characters at `m` begin with, however the
token there goes on. -/
def charsToHttpMethod (m : Bytes) : HttpMethod :=
  ((httpMethodMap.find? fun e => strncmpEq e.2 m e.2.length).map Prod.fst).getD .INVAILD_METHOD

/-- None of its comparisons, the last of which is the first that succeeds, leaves the
memory at `m`. -/
def charsInside (m : Bytes) : Bool :=
  go httpMethodMap
where
  go : List (HttpMethod × Bytes) → Bool
  | [] => true
  | e :: es =>
    strncmpInside e.2 m e.2.length && (strncmpEq e.2 m e.2.length || go es)

/-- A `std::map` from keys to values under `CaseInsensitiveLess`. -/
abbrev Headers := List (Bytes × Bytes)

namespace Headers

def lowerBound (key : Bytes) (headers : Headers) : Nat :=
  OrderedSet.lowerBound (fun e => strcasecmpLess e.1 key) headers

def find (key : Bytes) (headers : Headers) : Option Bytes :=
  match headers[headers.lowerBound key]? with
  | some e => if strcasecmpLess key e.1 then none else some e.2
  | none => none

/-- `m_headers[key] = val`, which keeps the spelling of a key that is there. -/
def set (key val : Bytes) (headers : Headers) : Headers :=
  let it := headers.lowerBound key
  match headers[it]? with
  | some e =>
    if strcasecmpLess key e.1 then headers.take it ++ (key, val) :: headers.drop it
    else List.set headers it (e.1, val)
  | none => headers ++ [(key, val)]

end Headers

structure HttpRequest where
  method : HttpMethod
  version : Nat
  close : Bool
  path : Bytes
  query : Bytes
  fragment : Bytes
  body : Bytes
  headers : Headers
deriving DecidableEq

namespace HttpRequest

def fresh : HttpRequest :=
  { method := .GET
    version := 0x11
    close := true
    path := ascii ['/']
    query := []
    fragment := []
    body := []
    headers := [] }

def init (req : HttpRequest) : HttpRequest :=
  let conn := (req.headers.find (ascii ['c', 'o', 'n', 'n', 'e', 'c', 't', 'i', 'o', 'n'])).getD []
  let keepAlive := ascii ['k', 'e', 'e', 'p', '-', 'a', 'l', 'i', 'v', 'e']
  if conn = [] then req else { req with close := !strcasecmpEq conn keepAlive }

end HttpRequest

end Sylar.Http
