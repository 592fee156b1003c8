import Sylar.IOManager.Basic

/-! The manager of descriptor contexts. A context is an object of its own that
callers keep pointers to; the table holds a pointer or null for each
descriptor. -/
namespace Sylar

inductive TimeoutSo where
  | SO_RCVTIMEO
  | SO_SNDTIMEO
deriving Repr, DecidableEq

/-- A timeout of `(uint64_t)-1` is `none`. -/
structure FdCtx where
  isInit : Bool
  isSocket : Bool
  sysNonblock : Bool
  userNonblock : Bool
  isClosed : Bool
  fd : Nat
  recvTimeout : Option Nat
  sendTimeout : Option Nat
deriving Repr, DecidableEq

namespace FdCtx

/-- `fstat` fails or tells whether the descriptor is a socket. -/
def init (fd : Nat) (fstat : Option Bool) : FdCtx :=
  { isInit := fstat.isSome
    isSocket := fstat.getD false
    sysNonblock := fstat.getD false
    userNonblock := false
    isClosed := false
    fd
    recvTimeout := none
    sendTimeout := none }

def setTimeout (ctx : FdCtx) (type : TimeoutSo) (v : UInt64) : FdCtx :=
  let timeout := if v = ~~~0 then none else some v.toNat
  match type with
  | .SO_RCVTIMEO => { ctx with recvTimeout := timeout }
  | .SO_SNDTIMEO => { ctx with sendTimeout := timeout }

def getTimeout (ctx : FdCtx) : TimeoutSo → Option Nat
  | .SO_RCVTIMEO => ctx.recvTimeout
  | .SO_SNDTIMEO => ctx.sendTimeout

end FdCtx

/-- `objects` are the contexts made so far, `datas` the table of pointers to
them. -/
structure FdManager where
  objects : List FdCtx
  datas : List (Option Nat)

namespace FdManager

def init : FdManager := { objects := [], datas := [] }

/-- `get(fd)` without creation, also the part of `get(fd, true)` under the read
lock. -/
def lookup (m : FdManager) (fd : Nat) : Option Nat := (m.datas[fd]?).join

/-- A new context goes into the table, at an index that is not checked. -/
def store (datas : List (Option Nat)) (fd : Nat) (fstat : Option Bool) (m : FdManager) :
    Except IOManager.Fault (Nat × FdManager) :=
  if fd < datas.length then
    .ok (m.objects.length,
      { objects := m.objects ++ [.init fd fstat], datas := datas.set fd (some m.objects.length) })
  else
    .error .outOfRange

/-- The part of `get(fd, true)` under the write lock, which does not look
again. -/
def create (fd : Nat) (fstat : Option Bool) (m : FdManager) :
    Except IOManager.Fault (Nat × FdManager) :=
  m.store (if m.datas.length ≤ fd then
    m.datas ++ List.replicate (fd * 3 / 2 - m.datas.length) none else m.datas) fd fstat

def delFd (fd : Nat) (m : FdManager) : FdManager :=
  if m.datas.length ≤ fd then m else { m with datas := m.datas.set fd none }

def ctx (m : FdManager) (fd : Nat) : Option FdCtx := m.lookup fd >>= (m.objects[·]?)

def setTimeout (fd : Nat) (type : TimeoutSo) (v : UInt64) (m : FdManager) : FdManager :=
  match m.lookup fd with
  | none => m
  | some p => { m with objects := m.objects.modify p (·.setTimeout type v) }

end FdManager

end Sylar
