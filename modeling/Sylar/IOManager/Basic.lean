import Sylar.Scheduler.Basic

/-! The event table of the io manager. Each descriptor has a context with the
mask of its registered events and what to schedule for each of them. The
answers of `epoll_ctl` come from outside. Successful registrations are
numbered, and what becomes of each is recorded: scheduled, with the scheduler
and the task, or dropped. -/
namespace Sylar

inductive Event where
  | READ
  | WRITE
deriving Repr, DecidableEq

structure Events where
  READ : Bool
  WRITE : Bool
deriving Repr, DecidableEq

namespace Events

def none : Events := ⟨false, false⟩

def has (m : Events) : Event → Bool
  | .READ => m.READ
  | .WRITE => m.WRITE

def set (m : Events) (e : Event) (b : Bool) : Events :=
  match e with
  | .READ => { m with READ := b }
  | .WRITE => { m with WRITE := b }

def inter (m k : Events) : Events := ⟨m.READ && k.READ, m.WRITE && k.WRITE⟩

def diff (m k : Events) : Events := ⟨m.READ && !k.READ, m.WRITE && !k.WRITE⟩

end Events

inductive EpollOp where
  | ADD
  | MOD
  | DEL
deriving Repr, DecidableEq

/-- Whether `epoll_ctl(op, fd, EPOLLET | events)` succeeds. -/
abbrev EpollCtl := EpollOp → Nat → Events → Bool

namespace IOManager

open Scheduler (FiberOrCb)

variable {Cb : Type}

/-- `serial` is the number of the registration the context was filled by. -/
structure EventContext (Cb : Type) where
  scheduler : Option Nat
  fiber : Option Nat
  cb : Option Cb
  serial : Nat

def EventContext.empty : EventContext Cb :=
  { scheduler := none, fiber := none, cb := none, serial := 0 }

structure FdContext (Cb : Type) where
  read : EventContext Cb
  write : EventContext Cb
  fd : Nat
  events : Events

structure Scheduled (Cb : Type) where
  serial : Nat
  scheduler : Nat
  task : FiberOrCb Cb

inductive Fault where
  | assertion (what : String)
  | nullScheduler
  | outOfRange
deriving Repr, DecidableEq

/-- The thread that calls `addEvent`: its scheduler and the fiber that runs on
it. A fiber that runs is in state `EXEC`. -/
structure Caller where
  scheduler : Nat
  fiber : Nat
  state : FiberState
  running : state = .EXEC

namespace FdContext

def fresh (fd : Nat) : FdContext Cb := { read := .empty, write := .empty, fd, events := .none }

def getcontext (c : FdContext Cb) : Event → EventContext Cb
  | .READ => c.read
  | .WRITE => c.write

def setcontext (c : FdContext Cb) (e : Event) (ctx : EventContext Cb) : FdContext Cb :=
  match e with
  | .READ => { c with read := ctx }
  | .WRITE => { c with write := ctx }

def resetContext (ctx : EventContext Cb) : EventContext Cb :=
  { ctx with scheduler := none, fiber := none, cb := none }

/-- `schedule(&ctx.cb)` and `schedule(&ctx.fiber)` swap the task out of the
context; a null task is not queued. -/
def triggerEvent (e : Event) (c : FdContext Cb) :
    Except Fault (Option (Scheduled Cb) × FdContext Cb) :=
  if c.events.has e = false then
    .error (.assertion "events & event")
  else
    let c := { c with events := c.events.set e false }
    let ctx := c.getcontext e
    match ctx.scheduler, ctx.cb with
    | none, _ => .error .nullScheduler
    | some scheduler, some cb =>
      .ok (some { serial := ctx.serial, scheduler, task := .cb (some cb) },
        c.setcontext e { ctx with cb := none, scheduler := none })
    | some scheduler, none =>
      .ok (ctx.fiber.map fun f => { serial := ctx.serial, scheduler, task := .fiber (some f) },
        c.setcontext e { ctx with fiber := none, scheduler := none })

end FdContext

end IOManager

open IOManager

structure IOManager (Cb : Type) where
  contexts : List (FdContext Cb)
  pendingEventCount : Nat
  added : Nat
  scheduled : List (Scheduled Cb)
  dropped : List Nat

namespace IOManager

variable {Cb : Type}

/-- `ContextResize(size)`: the vector is cut or filled up to `size`, and the new
places get contexts. -/
def contextResize (size : Nat) (s : IOManager Cb) : IOManager Cb :=
  { s with contexts := s.contexts.take size ++
      (List.range' s.contexts.length (size - s.contexts.length)).map FdContext.fresh }

def init : IOManager Cb :=
  contextResize 32
    { contexts := [], pendingEventCount := 0, added := 0, scheduled := [], dropped := [] }

def deref (s : IOManager Cb) (fd : Nat) : Except Fault (FdContext Cb) :=
  match s.contexts[fd]? with
  | some c => .ok c
  | none => .error .outOfRange

def put (s : IOManager Cb) (fd : Nat) (c : FdContext Cb) : IOManager Cb :=
  { s with contexts := s.contexts.set fd c }

/-- `fd_ctx->triggerEvent(event)` and `--m_pendingEventCount`. -/
def trigger (fd : Nat) (e : Event) (s : IOManager Cb) : Except Fault (IOManager Cb) := do
  let c ← s.deref fd
  let (task, c) ← c.triggerEvent e
  return { s.put fd c with
    pendingEventCount := s.pendingEventCount - 1
    scheduled := s.scheduled ++ task.toList }

/-- The lookup at the start of `addEvent`, which grows the table to
`fd * 1.5`. -/
def reserve (fd : Nat) (s : IOManager Cb) : IOManager Cb :=
  if s.contexts.length > fd then s else s.contextResize (fd * 3 / 2)

def addEvent (fd : Nat) (e : Event) (cb : Option Cb) (caller : Caller) (ctl : EpollCtl)
    (s : IOManager Cb) : Except Fault (Int × IOManager Cb) := do
  let s := s.reserve fd
  let c ← s.deref fd
  if c.events.has e then
    throw (.assertion "!(fd_ctx->events & event)")
  else
    let op := if c.events = .none then EpollOp.ADD else .MOD
    if ctl op fd (c.events.set e true) = false then
      return (-1, s)
    else
      let ctx := c.getcontext e
      if ctx.scheduler.isSome || ctx.fiber.isSome || ctx.cb.isSome then
        throw (.assertion "!event_ctx.scheduler && !event_ctx.fiber && !event_ctx.cb")
      else if cb.isNone && caller.state ≠ .EXEC then
        throw (.assertion "event_ctx.fiber->getState() == EXEC")
      else
        let fiber := if cb.isSome then none else some caller.fiber
        let ctx := { scheduler := some caller.scheduler, fiber, cb, serial := s.added }
        let c := { c with events := c.events.set e true }.setcontext e ctx
        return (0, { s.put fd c with
          pendingEventCount := s.pendingEventCount + 1
          added := s.added + 1 })

def delEvent (fd : Nat) (e : Event) (ctl : EpollCtl) (s : IOManager Cb) :
    Except Fault (Bool × IOManager Cb) := do
  if s.contexts.length ≤ fd then
    return (false, s)
  else
    let c ← s.deref fd
    if c.events.has e = false then
      return (false, s)
    else
      let newEvents := c.events.set e false
      let op := if newEvents = .none then EpollOp.DEL else .MOD
      if ctl op fd newEvents = false then
        return (false, s)
      else
        let ctx := c.getcontext e
        let c := { c with events := newEvents }.setcontext e (FdContext.resetContext ctx)
        return (true, { s.put fd c with
          pendingEventCount := s.pendingEventCount - 1
          dropped := s.dropped ++ [ctx.serial] })

def cancelEvent (fd : Nat) (e : Event) (ctl : EpollCtl) (s : IOManager Cb) :
    Except Fault (Bool × IOManager Cb) := do
  if s.contexts.length ≤ fd then
    return (false, s)
  else
    let c ← s.deref fd
    if c.events.has e = false then
      return (false, s)
    else
      let newEvents := c.events.set e false
      let op := if newEvents = .none then EpollOp.DEL else .MOD
      if ctl op fd newEvents = false then
        return (false, s)
      else
        let s ← s.trigger fd e
        return (true, s)

/-- `if (mask & event) { triggerEvent(event); --m_pendingEventCount; }`. -/
def triggerIf (fd : Nat) (mask : Events) (e : Event) (s : IOManager Cb) :
    Except Fault (IOManager Cb) :=
  if mask.has e then s.trigger fd e else .ok s

def cancelAll (fd : Nat) (_ctl : EpollCtl) (s : IOManager Cb) :
    Except Fault (Bool × IOManager Cb) := do
  if s.contexts.length ≤ fd then
    return (false, s)
  else
    let c ← s.deref fd
    if c.events = .none then
      return (false, s)
    else
      -- a failing `epoll_ctl` is logged and otherwise ignored
      let s ← s.triggerIf fd c.events .READ
      let c ← s.deref fd
      let s ← s.triggerIf fd c.events .WRITE
      let c ← s.deref fd
      if c.events ≠ .none then
        throw (.assertion "fd_ctx->events == 0")
      else
        return (true, s)

structure Reported where
  EPOLLIN : Bool
  EPOLLOUT : Bool
  EPOLLERR : Bool
  EPOLLHUP : Bool
deriving Repr, DecidableEq

/-- `real_events`, where an error or a hangup stands for whatever is
registered. -/
def Reported.realEvents (ev : Reported) (events : Events) : Events :=
  let all := ev.EPOLLERR || ev.EPOLLHUP
  ⟨ev.EPOLLIN || (all && events.READ), ev.EPOLLOUT || (all && events.WRITE)⟩

/-- The body of the loop over the reported events in `idle()`, under the lock
of the context. -/
def dispatch (fd : Nat) (ev : Reported) (ctl : EpollCtl) (s : IOManager Cb) :
    Except Fault (IOManager Cb) := do
  let c ← s.deref fd
  let realEvents := ev.realEvents c.events
  if c.events.inter realEvents = .none then
    return s
  else
    let leftEvents := c.events.diff realEvents
    let op := if leftEvents = .none then EpollOp.DEL else .MOD
    if ctl op c.fd leftEvents = false then
      return s
    else
      let s ← s.triggerIf fd realEvents .READ
      s.triggerIf fd realEvents .WRITE

end IOManager

end Sylar
