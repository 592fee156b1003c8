import Mathlib.Algebra.BigOperators.Group.List.Basic
import Sylar.Lib.Run
import Sylar.Lib.Slots

/-! The pool of client connections under calls from several threads. A connection
is known by its number among all that were made, so that one made at the address of
a deleted one is another. `getConnection` holds the lock only while it looks for an
idle connection, and `ReleasePtr` only while it puts one back; deletions and the
changes of `m_total` come in between as steps of their own. Whether a connection is
up, what the clock says and whether a new connection can be made come from
outside. -/
namespace Sylar.Http

open Lib

structure HttpConnection where
  createTime : Nat
  request : Nat
deriving Repr, DecidableEq

def HttpConnection.fresh : HttpConnection := { createTime := 0, request := 0 }

namespace HttpConnectionPool

/-- Where a call stands. Of `getConnection`: before its lock; with the connections
it found invalid, those not yet deleted and how many they were; before it connects;
with a new connection that `m_total` does not count yet; before it returns one. Of
`ReleasePtr`: at its start, before `delete`, before `--m_total`, before its lock. -/
inductive Call where
  | entered (now : Nat)
  | removing (ptr : Option Nat) (invalid : List Nat) (size : Nat)
  | connecting
  | created (ptr : Nat)
  | handing (ptr : Nat)
  | releasing (ptr : Nat)
  | deleting (ptr : Nat)
  | decrementing
  | pushing (ptr : Nat)
  | returned
deriving Repr, DecidableEq

end HttpConnectionPool

open HttpConnectionPool

/-- `objects` are the connections made so far and `deleted` those that were deleted;
`lent` has an entry for each holder, and `handed` one for each time a connection was
handed out. -/
structure HttpConnectionPool where
  maxSize : Nat
  maxAliveTime : Nat
  maxRequest : Nat
  conns : List Nat
  total : Int32
  objects : List HttpConnection
  deleted : List Nat
  lent : List Nat
  handed : List Nat
  calls : List Call

namespace HttpConnectionPool

def init (maxSize maxAliveTime maxRequest : Nat) : HttpConnectionPool :=
  { maxSize, maxAliveTime, maxRequest, conns := [], total := 0, objects := [], deleted := [],
    lent := [], handed := [], calls := [] }

def connection (s : HttpConnectionPool) (ptr : Nat) : HttpConnection :=
  s.objects[ptr]?.getD .fresh

/-- The loop of `getConnection`: the connections it finds invalid, the one it takes and
those it leaves. -/
def popIdle (s : HttpConnectionPool) (connected : Nat → Bool) (now : Nat) :
    List Nat → List Nat × Option Nat × List Nat
  | [] => ([], none, [])
  | conn :: rest =>
    if connected conn = false || (s.connection conn).createTime + s.maxAliveTime > now then
      let (invalid, ptr, rest) := s.popIdle connected now rest
      (conn :: invalid, ptr, rest)
    else
      ([], some conn, rest)

def goto (s : HttpConnectionPool) (i : Nat) (c : Call) : HttpConnectionPool :=
  { s with calls := s.calls.set i c }

def pop (s : HttpConnectionPool) (i : Nat) (connected : Nat → Bool) (now : Nat) :
    HttpConnectionPool :=
  let (invalid, ptr, rest) := s.popIdle connected now s.conns
  { s with conns := rest }.goto i (.removing ptr invalid invalid.length)

/-- `new HttpConnection(sock)`, if the lookup, the socket and `connect` succeed. -/
def connect (s : HttpConnectionPool) (i : Nat) (ok : Bool) : HttpConnectionPool :=
  if ok then
    { s with objects := s.objects ++ [HttpConnection.fresh] }.goto i (.created s.objects.length)
  else
    s.goto i .returned

/-- `++ptr->m_request` and the tests of `ReleasePtr`. -/
def test (s : HttpConnectionPool) (i ptr : Nat) (connected : Bool) (now : Nat) :
    HttpConnectionPool :=
  let s := { s with objects := s.objects.modify ptr fun c => { c with request := c.request + 1 } }
  let conn := s.connection ptr
  if connected = false || conn.createTime + s.maxAliveTime ≥ now || conn.request ≥ s.maxRequest then
    s.goto i (.deleting ptr)
  else
    s.goto i (.pushing ptr)

/-- `drop ptr` is the end of the last `shared_ptr` to a lent connection. -/
inductive Act where
  | getConnection (now : Nat)
  | pop (i : Nat) (connected : Nat → Bool)
  | delete (i : Nat)
  | count (i : Nat)
  | connect (i : Nat) (ok : Bool)
  | hand (i : Nat)
  | drop (ptr : Nat)
  | test (i : Nat) (connected : Bool) (now : Nat)
  | push (i : Nat)

def exec (s : HttpConnectionPool) : Act → Option HttpConnectionPool
  | .getConnection now => some { s with calls := s.calls ++ [.entered now] }
  | .pop i connected =>
    match s.calls[i]? with
    | some (.entered now) => some (s.pop i connected now)
    | _ => none
  | .delete i =>
    match s.calls[i]? with
    | some (.removing ptr (conn :: invalid) size) =>
      some ({ s with deleted := s.deleted ++ [conn] }.goto i (.removing ptr invalid size))
    | some (.deleting ptr) =>
      some ({ s with deleted := s.deleted ++ [ptr] }.goto i .decrementing)
    | _ => none
  | .count i =>
    match s.calls[i]? with
    | some (.removing (some ptr) [] size) =>
      some ({ s with total := s.total - Int32.ofNat size }.goto i (.handing ptr))
    | some (.removing none [] size) =>
      some ({ s with total := s.total - Int32.ofNat size }.goto i .connecting)
    | some (.created ptr) => some ({ s with total := s.total + 1 }.goto i (.handing ptr))
    | some .decrementing => some ({ s with total := s.total - 1 }.goto i .returned)
    | _ => none
  | .connect i ok =>
    match s.calls[i]? with
    | some .connecting => some (s.connect i ok)
    | _ => none
  | .hand i =>
    match s.calls[i]? with
    | some (.handing ptr) =>
      some ({ s with lent := s.lent ++ [ptr], handed := s.handed ++ [ptr] }.goto i .returned)
    | _ => none
  | .drop ptr =>
    if ptr ∈ s.lent then
      some { s with lent := s.lent.erase ptr, calls := s.calls ++ [.releasing ptr] }
    else
      none
  | .test i connected now =>
    match s.calls[i]? with
    | some (.releasing ptr) => some (s.test i ptr connected now)
    | _ => none
  | .push i =>
    match s.calls[i]? with
    | some (.pushing ptr) => some ({ s with conns := s.conns ++ [ptr] }.goto i .returned)
    | _ => none

def Step (s : HttpConnectionPool) (act : Act) (s' : HttpConnectionPool) : Prop :=
  s.exec act = some s'

/-- The connections a call has in hand: to be handed out or put back, just released,
to be deleted. -/
def Call.idle : Call → List Nat
  | .removing ptr _ _ => ptr.toList
  | .created ptr | .handing ptr | .pushing ptr => [ptr]
  | _ => []

def Call.out : Call → List Nat
  | .releasing ptr => [ptr]
  | _ => []

def Call.doomed : Call → List Nat
  | .removing _ invalid _ => invalid
  | .deleting ptr => [ptr]
  | _ => []

/-- By how much `m_total` is too large because of a call. -/
def Call.owed : Call → Int
  | .removing _ invalid size => size - invalid.length
  | .created _ => -1
  | .decrementing => 1
  | _ => 0

def Call.owns (c : Call) : List Nat := c.idle ++ c.out ++ c.doomed

def inCalls (s : HttpConnectionPool) : List Nat := s.calls.flatMap Call.owns

def Live (s : HttpConnectionPool) (ptr : Nat) : Prop := ptr < s.objects.length ∧ ptr ∉ s.deleted

def live (s : HttpConnectionPool) : List Nat := (List.range s.objects.length).filter (· ∉ s.deleted)

end HttpConnectionPool

end Sylar.Http
