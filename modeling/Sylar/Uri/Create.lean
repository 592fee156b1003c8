import Sylar.Http.Request
import Sylar.Lib.Numerals
import Sylar.Uri.Automaton

/-! `Uri::Create` and the printing of a `Uri`. The generated code runs over the text
with one pointer `mark`, which the actions set and clear; an action that builds a
string from the mark throws where there is none. -/
namespace Sylar

open Lib Lib.Numerals
open Http (Bytes ascii)

structure Uri where
  scheme : Bytes
  userinfo : Bytes
  host : Bytes
  path : Bytes
  query : Bytes
  fragment : Bytes
  port : Int
deriving Repr, DecidableEq

namespace Uri

section Getters

def fresh : Uri :=
  { scheme := []
    userinfo := []
    host := []
    path := []
    query := []
    fragment := []
    port := 0 }

variable (uri : Uri)

def isHttp : Bool := uri.scheme == ascii ['h', 't', 't', 'p'] || uri.scheme == ascii ['w', 's']

def isHttps : Bool :=
  uri.scheme == ascii ['h', 't', 't', 'p', 's'] || uri.scheme == ascii ['w', 's', 's']

def isDefaultPort : Bool :=
  if uri.port = 0 then true
  else if uri.isHttp then uri.port == 80
  else if uri.isHttps then uri.port == 443
  else false

def getPath : Bytes := if uri.path.isEmpty then ascii ['/'] else uri.path

def getPort : Int :=
  if uri.port ≠ 0 then uri.port
  else if uri.isHttp then 80
  else if uri.isHttps then 443
  else uri.port

def stdToString (n : Int) : Bytes := if n < 0 then 45 :: decimal n.natAbs else decimal n.natAbs

def toString : Bytes :=
  uri.scheme ++ ascii [':', '/', '/'] ++ uri.userinfo ++
    (if uri.userinfo.isEmpty then [] else ascii ['@']) ++ uri.host ++
    (if uri.isDefaultPort then [] else ascii [':'] ++ stdToString uri.port) ++ uri.getPath ++
    (if uri.query.isEmpty then [] else ascii ['?']) ++ uri.query ++
    (if uri.fragment.isEmpty then [] else ascii ['#']) ++ uri.fragment

end Getters

/-- What an action throws. -/
inductive Fault where
  | nullMark
deriving Repr, DecidableEq

structure Machine where
  mark : Option Nat
  uri : Uri
deriving DecidableEq

/-- `atoi` on digits, with a value that does not fit an `int` cut to its low bits. -/
def atoi (text : Bytes) : Int := (value (text.takeWhile isDigit) : Int).bmod (2 ^ 32)

section Actions

variable (text : Bytes)

/-- `std::string(mark, fpc - mark)`. -/
def stdString (mark : Option Nat) (p : Nat) : Except Fault Bytes :=
  match mark with
  | none => .error .nullMark
  | some m => .ok ((text.drop m).take (p - m))

def act (p : Nat) (m : Machine) : Action → Except Fault Machine
  | .marku => .ok { m with mark := some p }
  | .markh => .ok { m with mark := some p }
  | .save_scheme => do
    let s ← stdString text m.mark p
    return { mark := none, uri := { m.uri with scheme := s } }
  | .save_port =>
    if m.mark = some p then .ok { m with mark := none }
    else
      match m.mark with
      | none => .error .nullMark
      | some i => .ok { mark := none, uri := { m.uri with port := atoi (text.drop i) } }
  | .save_userinfo =>
    if m.mark.isSome then do
      let s ← stdString text m.mark p
      return { mark := none, uri := { m.uri with userinfo := s } }
    else .ok { m with mark := none }
  | .save_host =>
    if m.mark.isSome then do
      let s ← stdString text m.mark p
      return { m with uri := { m.uri with host := s } }
    else .ok m
  | .save_path => do
    let s ← stdString text m.mark p
    return { mark := none, uri := { m.uri with path := s } }
  | .save_query => do
    let s ← stdString text m.mark p
    return { mark := none, uri := { m.uri with query := s } }
  | .save_fragment => do
    let s ← stdString text m.mark p
    return { mark := none, uri := { m.uri with fragment := s } }

def Action.isSave : Action → Bool
  | .marku => false
  | .markh => false
  | _ => true

/-- As `act`, but every `save_` action asks for a mark. -/
def actMarked (p : Nat) (m : Machine) (a : Action) : Except Fault Machine :=
  if a.isSave ∧ m.mark = none then .error .nullMark else act text p m a

end Actions

section Scan

variable (act : Nat → Machine → Action → Except Fault Machine)

def atEof (cs : Nat) : List Action := (RangeTable.pick cs eofActions).getD []

/-- The generated loop over the bytes from offset `p`, with the actions run by `act`. -/
def scan : Nat → Nat → Bytes → Machine → Except Fault (Nat × Machine)
  | p, cs, [], m => do
    let m ← (atEof cs).foldlM (act p) m
    return (cs, m)
  | p, cs, b :: bs, m =>
    match next cs b with
    | none => .ok (uriParserError, m)
    | some arc => do
      let m ← arc.actions.foldlM (act p) m
      scan (p + 1) arc.target bs m

def result (cs : Nat) (uri : Uri) : Option Uri :=
  if cs = uriParserError then none
  else if uriParserFirstFinal ≤ cs then some uri
  else none

def createWith (text : Bytes) : Except Fault (Option Uri) := do
  let (cs, m) ← scan act 0 uriParserStart text { mark := none, uri := .fresh }
  return result cs m.uri

end Scan

def create (text : Bytes) : Except Fault (Option Uri) := createWith (act text) text

/-- `Uri::Create` if it asked for a mark in every `save_` action. -/
def createMarked (text : Bytes) : Except Fault (Option Uri) := createWith (actMarked text) text

end Uri

end Sylar
