import Mathlib.Logic.Function.Basic
import Sylar.FdManager.Basic
import Sylar.IOManager.Runs

/-! The hooked system calls. A fiber in `do_io` or `connect_with_timeout`
retries, arms its timer, registers its event and yields; the callbacks of the
timers, the closing and opening of descriptors and the events that `epoll`
reports interleave with it step by step. -/
namespace Sylar.Hook

open IOManager (EventContext Caller Op Fault)

inductive IoFun where
  | accept
  | read
  | readv
  | recv
  | recvfrom
  | recvmsg
  | write
  | writev
  | send
  | sendto
  | sendmsg
deriving Repr, DecidableEq

def IoFun.event : IoFun → Event
  | .accept | .read | .readv | .recv | .recvfrom | .recvmsg => .READ
  | .write | .writev | .send | .sendto | .sendmsg => .WRITE

def IoFun.timeoutSo : IoFun → TimeoutSo
  | .accept | .read | .readv | .recv | .recvfrom | .recvmsg => .SO_RCVTIMEO
  | .write | .writev | .send | .sendto | .sendmsg => .SO_SNDTIMEO

inductive Kind where
  | doIo (fun_ : IoFun)
  | connect (timeoutMs : Option Nat)
deriving Repr, DecidableEq

def Kind.event : Kind → Event
  | .doIo fun_ => fun_.event
  | .connect _ => .WRITE

inductive Errno where
  | EINTR
  | EAGAIN
  | EBADF
  | EINPROGRESS
  | ETIMEDOUT
  | other (code : Nat)
deriving Repr, DecidableEq

inductive Answer where
  | ok (n : Nat)
  | err (errno : Errno)
deriving Repr, DecidableEq

def Answer.value : Answer → Int
  | .ok n => n
  | .err _ => -1

inductive Pc where
  | enter
  /-- The one call of an invocation that does not wait. -/
  | direct
  /-- The label `retry`, and the call of `connect_f`. -/
  | call
  | arm
  | register
  /-- `addEvent` has failed. -/
  | refused
  | yield
  | suspended
  /-- Back from `YieldToHold`. -/
  | resumed
  | check
  /-- The call of `getsockopt` that ends a `connect`. -/
  | sockopt
  | ret (r : Int)
deriving Repr, DecidableEq

/-- One invocation of `do_io` or `connect_with_timeout`. `started` is the socket
its descriptor denoted at the start, `cancelled` is in `tinfo`. -/
structure Invocation where
  id : Nat
  kind : Kind
  fd : Nat
  started : Option Nat
  timeout : Option Nat
  cancelled : Option Errno
  timer : Option Nat
  pc : Pc
deriving Repr, DecidableEq

namespace Invocation

/-- The checks on the context, up to the first call. -/
def enter (inv : Invocation) (hookEnable : Bool) (ctx : Option FdCtx) : Invocation :=
  if hookEnable = false then
    { inv with pc := .direct }
  else match inv.kind, ctx with
    | .doIo _, none => { inv with pc := .direct }
    | .connect _, none => { inv with pc := .ret (-1) }
    | kind, some ctx =>
      if ctx.isClosed then
        { inv with pc := .ret (-1) }
      else if !ctx.isSocket || ctx.userNonblock then
        { inv with pc := .direct }
      else
        let timeout := match kind with
          | .doIo fun_ => ctx.getTimeout fun_.timeoutSo
          | .connect timeoutMs => timeoutMs
        { inv with timeout, pc := .call }

def answered (inv : Invocation) (a : Answer) : Pc :=
  match inv.kind, a with
  | .doIo _, .err .EINTR => .call
  | .doIo _, .err .EAGAIN => .arm
  | .connect _, .err .EINPROGRESS => .arm
  | _, a => .ret a.value

def gaveUp (inv : Invocation) : Pc :=
  match inv.kind with
  | .doIo _ => .ret (-1)
  | .connect _ => .sockopt

def checked (inv : Invocation) : Pc :=
  if inv.cancelled.isSome then .ret (-1)
  else match inv.kind with
    | .doIo _ => .call
    | .connect _ => .sockopt

end Invocation

/-- The callback of a condition timer: in the set of timers, handed to the
scheduler, past its test of `tinfo`, past `t->cancelled = ETIMEDOUT`, over. -/
inductive TimerState where
  | armed
  | extracted
  | tested
  | marked
  | over
deriving Repr, DecidableEq

/-- A condition timer with what its callback captured; `inv` stands for the weak
pointer to `tinfo`. -/
structure CondTimer where
  fiber : Nat
  inv : Nat
  fd : Nat
  event : Event
  state : TimerState
deriving Repr, DecidableEq

/-- `cancel()` on the timer; a callback that has been extracted stays. -/
def CondTimer.cancel (t : CondTimer) : CondTimer :=
  if t.state = .armed then { t with state := .over } else t

inductive ClosePc where
  | get
  | cancelAll
  | delFd
  | close_f
deriving Repr, DecidableEq

inductive Frame where
  | idle
  | invocation (inv : Invocation)
  /-- `socket` and `accept` between the call and `get(fd, true)`. -/
  | opened (fd : Nat)
  /-- `get(fd, true)` between its two locks. -/
  | creating (fd : Nat)
  | closing (fd : Nat) (pc : ClosePc)
deriving Repr, DecidableEq

def Frame.isInvocation : Frame → Bool
  | .invocation _ => true
  | _ => false

structure Call where
  inv : Nat
  kind : Kind
  started : Option Nat
  acted : Option Nat
  answer : Answer
deriving Repr, DecidableEq

inductive Move where
  | enter (hookEnable : Bool)
  | call (a : Answer)
  | arm
  | register (ctl : EpollCtl)
  | hold
  /-- The scheduler runs the fiber for the registration of this number. -/
  | resume (serial : Nat)
  | disarm
  | check
  /-- `getsockopt` fails, or gives the pending error. -/
  | sockopt (error : Option Nat)
  | leave

inductive TimerMove where
  | extract
  | test
  | mark
  | cancel (ctl : EpollCtl)

inductive Act (Cb : Type) where
  | start (f : Nat) (kind : Kind) (fd : Nat)
  | move (f : Nat) (m : Move)
  | timer (i : Nat) (m : TimerMove)
  | socket (f : Nat) (fd : Nat)
  | get (f : Nat) (fstat : Option Bool)
  | close (f : Nat) (fd : Nat) (hookEnable : Bool)
  | closeStep (f : Nat) (hasIom : Bool) (ctl : EpollCtl)
  | event (op : Op Cb) (ctl : EpollCtl)
  | setsockopt (fd : Nat) (type : TimeoutSo) (ms : UInt64)

end Hook

open Hook

/-- `sockets` is the descriptor table of the process; `calls` lists the system
calls made through `do_io` and `connect_with_timeout`. -/
structure Hook (Cb : Type) where
  sockets : Nat → Option Nat
  identities : Nat
  fds : FdManager
  io : IOManager Cb
  timers : List CondTimer
  frames : Nat → Frame
  ids : Nat
  resumed : List Nat
  calls : List Call

namespace Hook

variable {Cb : Type}

def init : Hook Cb :=
  { sockets := fun _ => none
    identities := 0
    fds := .init
    io := .init
    timers := []
    frames := fun _ => .idle
    ids := 0
    resumed := []
    calls := [] }

def frame (f : Nat) (x : Frame) (s : Hook Cb) : Hook Cb :=
  { s with frames := Function.update s.frames f x }

def put (f : Nat) (inv : Invocation) (s : Hook Cb) : Hook Cb := s.frame f (.invocation inv)

def assign (fd : Nat) (s : Hook Cb) : Option (Hook Cb) :=
  if s.sockets fd = none then
    some { s with
      sockets := Function.update s.sockets fd (some s.identities)
      identities := s.identities + 1 }
  else
    none

/-- The system call of an invocation. On a number that is free it fails with
`EBADF`; an `accept` that succeeds opens a descriptor. -/
def perform (inv : Invocation) (a : Answer) (s : Hook Cb) : Option (Hook Cb) :=
  if s.sockets inv.fd = none ∧ a ≠ .err .EBADF then
    none
  else
    let call := {
      inv := inv.id, kind := inv.kind, started := inv.started, acted := s.sockets inv.fd, answer := a }
    let s := { s with calls := s.calls ++ [call] }
    match inv.kind, a with
    | .doIo .accept, .ok fd => s.assign fd
    | _, _ => some s

def arm (f : Nat) (inv : Invocation) (s : Hook Cb) : Hook Cb :=
  match inv.timeout with
  | none => s.put f { inv with timer := none, pc := .register }
  | some _ =>
    let timer := { fiber := f, inv := inv.id, fd := inv.fd, event := inv.kind.event, state := .armed }
    { s with timers := s.timers ++ [timer] }.put f
      { inv with timer := some s.timers.length, pc := .register }

/-- `if (timer) timer->cancel()`. -/
def disarm (inv : Invocation) (s : Hook Cb) : Hook Cb :=
  match inv.timer with
  | none => s
  | some i => { s with timers := s.timers.modify i CondTimer.cancel }

/-- The fiber was scheduled for this registration and has not run for it yet. -/
def woken (s : Hook Cb) (f serial : Nat) : Bool :=
  !s.resumed.contains serial && s.io.scheduled.any fun x => x.serial == serial &&
    match x.task with
    | .fiber g => g == some f
    | .cb _ => false

def move (f : Nat) (inv : Invocation) (s : Hook Cb) : Move → Option (Hook Cb)
  | .enter hookEnable =>
    if inv.pc = .enter then
      some (s.put f (inv.enter hookEnable (s.fds.ctx inv.fd)))
    else
      none
  | .call a =>
    match inv.pc with
    | .direct => do
      let s ← s.perform inv a
      return s.put f { inv with pc := .ret a.value }
    | .call => do
      let s ← s.perform inv a
      return s.put f { inv with pc := inv.answered a }
    | _ => none
  | .arm => if inv.pc = .arm then some (s.arm f inv) else none
  | .register ctl =>
    if inv.pc = .register then
      match s.io.addEvent inv.fd inv.kind.event none ⟨0, f, .EXEC, rfl⟩ ctl with
      | .ok (rt, io) => some ({ s with io }.put f { inv with pc := if rt = 0 then .yield else .refused })
      | .error _ => none
    else
      none
  | .hold => if inv.pc = .yield then some (s.put f { inv with pc := .suspended }) else none
  | .resume serial =>
    if inv.pc = .suspended ∧ s.woken f serial = true then
      some ({ s with resumed := serial :: s.resumed }.put f { inv with pc := .resumed })
    else
      none
  | .disarm =>
    match inv.pc with
    | .resumed => some ((s.disarm inv).put f { inv with pc := .check })
    | .refused => some ((s.disarm inv).put f { inv with pc := inv.gaveUp })
    | _ => none
  | .check => if inv.pc = .check then some (s.put f { inv with pc := inv.checked }) else none
  | .sockopt error =>
    if inv.pc = .sockopt then
      some (s.put f { inv with pc := .ret (if error = some 0 then 0 else -1) })
    else
      none
  | .leave =>
    match inv.pc, inv.kind with
    | .ret (.ofNat fd), .doIo .accept => some (s.frame f (.opened fd))
    | .ret _, _ => some (s.frame f .idle)
    | _, _ => none

def lock (s : Hook Cb) (t : CondTimer) : Option Invocation :=
  match s.frames t.fiber with
  | .invocation inv => if inv.id = t.inv then some inv else none
  | _ => none

def setTimer (i : Nat) (t : CondTimer) (s : Hook Cb) : Hook Cb :=
  { s with timers := s.timers.set i t }

def timerMove (i : Nat) (t : CondTimer) (s : Hook Cb) : TimerMove → Option (Hook Cb)
  | .extract => if t.state = .armed then some (s.setTimer i { t with state := .extracted }) else none
  | .test =>
    if t.state = .extracted then
      match s.lock t with
      | none => some (s.setTimer i { t with state := .over })
      | some inv =>
        some (s.setTimer i { t with state := if inv.cancelled.isSome then .over else .tested })
    else
      none
  | .mark =>
    if t.state = .tested then
      let s' := s.setTimer i { t with state := .marked }
      match s.lock t with
      | none => some s'
      | some inv => some (s'.put t.fiber { inv with cancelled := some .ETIMEDOUT })
    else
      none
  | .cancel ctl =>
    if t.state = .marked then
      match s.io.cancelEvent t.fd t.event ctl with
      | .ok (_, io) => some ({ s with io }.setTimer i { t with state := .over })
      | .error _ => none
    else
      none

def closeStep (f fd : Nat) (hasIom : Bool) (ctl : EpollCtl) (s : Hook Cb) :
    ClosePc → Option (Hook Cb)
  | .get =>
    some (s.frame f (.closing fd (if (s.fds.lookup fd).isSome then .cancelAll else .close_f)))
  | .cancelAll =>
    if hasIom then
      match s.io.cancelAll fd ctl with
      | .ok (_, io) => some ({ s with io }.frame f (.closing fd .delFd))
      | .error _ => none
    else
      some (s.frame f (.closing fd .delFd))
  | .delFd => some ({ s with fds := s.fds.delFd fd }.frame f (.closing fd .close_f))
  | .close_f => some ({ s with sockets := Function.update s.sockets fd none }.frame f .idle)

def exec (s : Hook Cb) : Act Cb → Option (Hook Cb)
  | .start f kind fd =>
    match s.frames f with
    | .idle =>
      some ({ s with ids := s.ids + 1 }.put f {
        id := s.ids, kind, fd, started := s.sockets fd, timeout := none, cancelled := none,
        timer := none, pc := .enter })
    | _ => none
  | .move f m =>
    match s.frames f with
    | .invocation inv => s.move f inv m
    | _ => none
  | .timer i m =>
    match s.timers[i]? with
    | some t => s.timerMove i t m
    | none => none
  | .socket f fd =>
    match s.frames f with
    | .idle => do
      let s ← s.assign fd
      return s.frame f (.opened fd)
    | _ => none
  | .get f fstat =>
    match s.frames f with
    | .opened fd =>
      some (s.frame f (if (s.fds.lookup fd).isSome then .idle else .creating fd))
    | .creating fd =>
      match s.fds.create fd fstat with
      | .ok (_, fds) => some ({ s with fds }.frame f .idle)
      | .error _ => none
    | _ => none
  | .close f fd hookEnable =>
    match s.frames f with
    | .idle => some (s.frame f (.closing fd (if hookEnable then .get else .close_f)))
    | _ => none
  | .closeStep f hasIom ctl =>
    match s.frames f with
    | .closing fd pc => s.closeStep f fd hasIom ctl pc
    | _ => none
  | .event op ctl =>
    match op, op.exec s.io ctl with
    -- a fiber registers itself only in an invocation
    | .addEvent _ _ none _, _ => none
    | _, .ok (_, io) => some { s with io }
    | _, .error _ => none
  | .setsockopt fd type ms => some { s with fds := s.fds.setTimeout fd type ms }

end Hook

end Sylar
