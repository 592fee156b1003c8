import Mathlib.Data.List.Basic

/-! The scheduler: one queue of tasks, any number of workers in the loop of
`run()`, and the states of the fibers, which anything may change between two
steps. A step is a critical section of the queue's mutex or a piece of the
loop between two of them. Each queued task carries the number of the
`scheduleNoLock` call that queued it, so that its way can be followed. -/
namespace Sylar

inductive FiberState where
  | INIT | HOLD | EXEC | TERM | READY | EXCEPT
deriving Repr, DecidableEq

namespace Scheduler

variable {Cb : Type}

inductive FiberOrCb (Cb : Type) where
  | fiber (f : Option Nat)
  | cb (f : Option Cb)

structure FiberAndThread (Cb : Type) where
  fiber : Option Nat
  cb : Option Cb
  thread : Int

def FiberAndThread.make (fc : FiberOrCb Cb) (thread : Int) : FiberAndThread Cb :=
  match fc with
  | .fiber f => { fiber := f, cb := none, thread }
  | .cb f => { fiber := none, cb := f, thread }

/-- `ft.fiber || ft.cb`. -/
def FiberAndThread.present (ft : FiberAndThread Cb) : Bool := ft.fiber.isSome || ft.cb.isSome

structure Entry (Cb : Type) where
  serial : Nat
  ft : FiberAndThread Cb

/-- Where a worker stands in the loop of `run()`. `picked` holds a task that is
not yet swapped in, `swapped` is inside `swapIn` of the given fiber, and the
last argument tells a task's own fiber from the worker's `cb_fiber`. -/
inductive Pc (Cb : Type) where
  | top
  | picked (e : Entry Cb)
  | nothing
  | swapped (e : Entry Cb) (fiber : Nat) (byCb : Bool)
  | returned (fiber : Nat) (byCb : Bool)
  | resting (fiber : Nat) (byCb : Bool)
  | idling
  | exited

structure Worker (Cb : Type) where
  tid : Int
  cbFiber : Option Nat
  pc : Pc Cb

def Worker.hand (w : Worker Cb) : Option (Entry Cb) :=
  match w.pc with
  | .picked e | .swapped e _ _ => some e
  | _ => none

end Scheduler

open Scheduler

/-- `log` and `finished` record the run: the tasks queued so far in order, and
the numbers of those whose `swapIn` has returned. -/
structure Scheduler (Cb : Type) where
  fibers : List (Entry Cb)
  activeThreadCount : Nat
  idleThreadCount : Nat
  fiberState : Nat → FiberState
  workers : List (Worker Cb)
  log : List (FiberAndThread Cb)
  finished : List Nat

namespace Scheduler

variable {Cb : Type}

/-- Why a step does not happen: no worker stands there, or an assertion of the
source stops the process. -/
inductive Stop where
  | blocked
  | assertion (what : String)
deriving Repr, DecidableEq

def init (tids : List Int) : Scheduler Cb :=
  { fibers := [], activeThreadCount := 0, idleThreadCount := 0, fiberState := fun _ => .INIT,
    workers := tids.map fun tid => { tid, cbFiber := none, pc := .top }, log := [],
    finished := [] }

/-- The first component is `need_tickle`. -/
def scheduleNoLock (fc : FiberOrCb Cb) (thread : Int) (s : Scheduler Cb) : Bool × Scheduler Cb :=
  let ft := FiberAndThread.make fc thread
  let needTickle := s.fibers.isEmpty
  if ft.present then
    (needTickle,
      { s with fibers := s.fibers ++ [{ serial := s.log.length, ft }], log := s.log ++ [ft] })
  else
    (needTickle, s)

def schedule (fc : FiberOrCb Cb) (thread : Int) (s : Scheduler Cb) : Scheduler Cb :=
  (s.scheduleNoLock fc thread).2

/-- `schedule(begin, end)`: one critical section for the whole range. -/
def scheduleAll : List (FiberOrCb Cb) → Scheduler Cb → Scheduler Cb
  | [], s => s
  | fc :: rest, s => scheduleAll rest (s.scheduleNoLock fc (-1)).2

/-- The search of `run()` through the queue: the task taken out, what stays,
and `tickle_me`. -/
def pickLoop (tid : Int) (state : Nat → FiberState) : List (Entry Cb) →
    Except Stop (Option (Entry Cb) × List (Entry Cb) × Bool)
  | [] => .ok (none, [], false)
  | e :: rest =>
    if e.ft.thread ≠ -1 ∧ e.ft.thread ≠ tid then do
      let (found, rest, _) ← pickLoop tid state rest
      return (found, e :: rest, true)
    else if e.ft.present = false then
      .error (.assertion "it->fiber || it->cb")
    else if e.ft.fiber.any fun f => state f = .EXEC then do
      let (found, rest, tickleMe) ← pickLoop tid state rest
      return (found, e :: rest, tickleMe)
    else
      .ok (some e, rest, !rest.isEmpty)

def setWorker (s : Scheduler Cb) (i : Nat) (w : Worker Cb) : Scheduler Cb :=
  { s with workers := s.workers.set i w }

def setState (s : Scheduler Cb) (f : Nat) (st : FiberState) : Scheduler Cb :=
  { s with fiberState := Function.update s.fiberState f st }

def pick (i : Nat) (w : Worker Cb) (s : Scheduler Cb) : Except Stop (Scheduler Cb) := do
  let (found, rest, _) ← pickLoop w.tid s.fiberState s.fibers
  match found with
  | some e =>
    return { s with fibers := rest, activeThreadCount := s.activeThreadCount + 1 }.setWorker i
      { w with pc := .picked e }
  | none => return { s with fibers := rest }.setWorker i { w with pc := .nothing }

/-- `Fiber::swapIn` up to the switch. -/
def swapIn (f : Nat) (s : Scheduler Cb) : Except Stop (Scheduler Cb) :=
  if s.fiberState f = .EXEC then .error (.assertion "m_state != EXEC")
  else .ok (s.setState f .EXEC)

def resetFiber (f : Nat) (s : Scheduler Cb) : Except Stop (Scheduler Cb) :=
  match s.fiberState f with
  | .TERM | .EXCEPT | .INIT => .ok (s.setState f .INIT)
  | _ => .error (.assertion "m_state == TERM || EXCEPT || INIT")

/-- `cb_fiber->reset(ft.cb)` or `cb_fiber.reset(new Fiber(ft.cb))`. -/
def prepareCbFiber (w : Worker Cb) (f : Nat) (s : Scheduler Cb) : Except Stop (Scheduler Cb) :=
  if w.cbFiber.isSome then s.resetFiber f else .ok (s.setState f .INIT)

/-- From the picked task to the switch into its fiber; `fresh` is the fiber that a
`new Fiber` gives. The guard on the fiber's state is the source's. -/
def startTask (i : Nat) (w : Worker Cb) (e : Entry Cb) (fresh : Nat) (s : Scheduler Cb) :
    Except Stop (Scheduler Cb) :=
  let guarded := e.ft.fiber.filter fun f => s.fiberState f ≠ .TERM ∨ s.fiberState f ≠ .EXCEPT
  match guarded, e.ft.cb with
  | some f, _ => do
    let s ← s.swapIn f
    return s.setWorker i { w with pc := .swapped e f false }
  | none, some _ => do
    let f := w.cbFiber.getD fresh
    let s ← s.prepareCbFiber w f
    let s ← s.swapIn f
    return s.setWorker i { w with cbFiber := some f, pc := .swapped e f true }
  | none, none =>
    -- `is_active` with nothing to run
    return { s with
      activeThreadCount := s.activeThreadCount - 1
      finished := s.finished ++ [e.serial] }.setWorker i { w with pc := .top }

def endTask (i : Nat) (w : Worker Cb) (e : Entry Cb) (f : Nat) (byCb : Bool) (s : Scheduler Cb) :
    Scheduler Cb :=
  { s with
    activeThreadCount := s.activeThreadCount - 1
    finished := s.finished ++ [e.serial] }.setWorker i { w with pc := .returned f byCb }

/-- A fiber that yielded in state `READY` goes back into the queue. -/
def requeue (i : Nat) (w : Worker Cb) (f : Nat) (byCb : Bool) (s : Scheduler Cb) : Scheduler Cb :=
  if s.fiberState f = .READY then
    (s.schedule (.fiber (some f)) (-1)).setWorker i
      { w with cbFiber := if byCb then none else w.cbFiber, pc := .top }
  else
    s.setWorker i { w with pc := .resting f byCb }

/-- What happens to a fiber that came back in another state. -/
def rest (i : Nat) (w : Worker Cb) (f : Nat) (byCb : Bool) (s : Scheduler Cb) :
    Except Stop (Scheduler Cb) :=
  match byCb, s.fiberState f with
  | false, .TERM | false, .EXCEPT => .ok (s.setWorker i { w with pc := .top })
  | false, _ => .ok ((s.setState f .HOLD).setWorker i { w with pc := .top })
  | true, .TERM | true, .EXCEPT => do
    let s ← s.resetFiber f
    return s.setWorker i { w with pc := .top }
  | true, _ => .ok ((s.setState f .HOLD).setWorker i { w with cbFiber := none, pc := .top })

inductive Move where
  | pick
  | startTask (fresh : Nat)
  | endTask
  | requeue
  | rest
  | idleIn (idleTerm : Bool)
  | idleOut
deriving Repr, DecidableEq

def move (i : Nat) (w : Worker Cb) (mv : Move) (s : Scheduler Cb) : Except Stop (Scheduler Cb) :=
  match mv, w.pc with
  | .pick, .top => s.pick i w
  | .startTask fresh, .picked e => s.startTask i w e fresh
  | .endTask, .swapped e f byCb => .ok (s.endTask i w e f byCb)
  | .requeue, .returned f byCb => .ok (s.requeue i w f byCb)
  | .rest, .resting f byCb => s.rest i w f byCb
  | .idleIn idleTerm, .nothing =>
    if idleTerm then .ok (s.setWorker i { w with pc := .exited })
    else .ok ({ s with idleThreadCount := s.idleThreadCount + 1 }.setWorker i
      { w with pc := .idling })
  | .idleOut, .idling =>
    .ok ({ s with idleThreadCount := s.idleThreadCount - 1 }.setWorker i { w with pc := .top })
  | _, _ => .error .blocked

inductive Act (Cb : Type) where
  | schedule (fc : FiberOrCb Cb) (thread : Int)
  | scheduleAll (fcs : List (FiberOrCb Cb))
  | worker (i : Nat) (mv : Move)
  | setState (f : Nat) (st : FiberState)

def exec (s : Scheduler Cb) : Act Cb → Except Stop (Scheduler Cb)
  | .schedule fc thread => .ok (s.schedule fc thread)
  | .scheduleAll fcs => .ok (s.scheduleAll fcs)
  | .worker i mv =>
    match s.workers[i]? with
    | some w => s.move i w mv
    | none => .error .blocked
  | .setState f st => .ok (s.setState f st)

def Step (s : Scheduler Cb) (act : Act Cb) (s' : Scheduler Cb) : Prop := s.exec act = .ok s'

end Scheduler

end Sylar
