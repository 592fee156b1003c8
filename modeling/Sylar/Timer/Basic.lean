import Sylar.Lib.OrderedSet

/-! The timer manager. Timer objects stand in one table in the order of their
creation and a `Timer::ptr` is an index into it; `timers` is the ordered set
of such pointers, compared through the fields the objects have at that
moment. Clock readings, addresses and callbacks come from outside. -/
namespace Sylar

open Lib.OrderedSet

structure Timer (Cb : Type) where
  addr : Nat
  recurring : Bool
  ms : UInt64
  next : UInt64
  cb : Option Cb
deriving Repr, DecidableEq

def Timer.Comparator {Cb : Type} (lhs rhs : Option (Timer Cb)) : Bool :=
  match lhs, rhs with
  | none, none => false
  | none, some _ => true
  | some _, none => false
  | some lhs, some rhs =>
    if lhs.next < rhs.next then true
    else if rhs.next < lhs.next then false
    else lhs.addr < rhs.addr

/-- `Timer(uint64_t next)`, the object that only carries a time to compare. -/
def Timer.at {Cb : Type} (addr : Nat) (next : UInt64) : Timer Cb :=
  { addr, recurring := false, ms := 0, next, cb := none }

/-- What the C++ leaves undefined: erasing or reading at `end()`, calling a
method through a pointer to no object. -/
inductive TimerFault where
  | eraseEnd
  | derefEnd
  | nullTimer
deriving Repr, DecidableEq

/-- `held` are the pointers that callers keep; a timer lives as long as it is
held or stands in the set, and only then is its address taken. -/
structure TimerManager (Cb : Type) where
  objs : List (Timer Cb)
  held : List Nat
  timers : List Nat
  tickled : Bool
  previouseTime : UInt64
deriving Repr, DecidableEq

namespace TimerManager

variable {Cb : Type}

def init (now : UInt64) : TimerManager Cb :=
  { objs := [], held := [], timers := [], tickled := false, previouseTime := now }

def deref (m : TimerManager Cb) (id : Nat) : Except TimerFault (Timer Cb) :=
  match m.objs[id]? with
  | some t => .ok t
  | none => .error .nullTimer

def put (m : TimerManager Cb) (id : Nat) (t : Timer Cb) : TimerManager Cb :=
  { m with objs := m.objs.set id t }

@[simp] theorem timers_put (m : TimerManager Cb) (id : Nat) (t : Timer Cb) :
    (m.put id t).timers = m.timers := rfl

def less (m : TimerManager Cb) (a b : Nat) : Bool :=
  Timer.Comparator m.objs[a]? m.objs[b]?

def insertTimer (m : TimerManager Cb) (id : Nat) : TimerManager Cb :=
  { m with timers := (insert m.less id m.timers).1 }

def erase (m : TimerManager Cb) (it : Nat) : Except TimerFault (TimerManager Cb) :=
  if it < m.timers.length then .ok { m with timers := m.timers.eraseIdx it }
  else .error .eraseEnd

def begin (m : TimerManager Cb) : Except TimerFault (Timer Cb) :=
  match m.timers with
  | [] => .error .derefEnd
  | id :: _ => m.deref id

/-- `addTimer(val, lock)`; the first component says whether
`onTimerInsertedtAtFront` is called after the lock is released. -/
def addTimerLocked (m : TimerManager Cb) (id : Nat) : Bool × TimerManager Cb :=
  let inserted := insert m.less id m.timers
  let atFront := inserted.2 == 0 && !m.tickled
  (atFront, { m with timers := inserted.1, tickled := m.tickled || atFront })

def addTimer (now ms : UInt64) (cb : Option Cb) (recurring : Bool) (addr : Nat)
    (m : TimerManager Cb) : (Nat × Bool) × TimerManager Cb :=
  let id := m.objs.length
  let timer : Timer Cb := { addr, recurring, ms, next := now + ms, cb }
  let m := { m with objs := m.objs ++ [timer], held := id :: m.held }
  let added := m.addTimerLocked id
  ((id, added.1), added.2)

def cancel (id : Nat) (m : TimerManager Cb) : Except TimerFault (Bool × TimerManager Cb) := do
  let t ← m.deref id
  if t.cb.isSome then
    let m := m.put id { t with cb := none }
    let m ← m.erase (find m.less id m.timers)
    return (true, m)
  else
    return (false, m)

def refresh (id : Nat) (now : UInt64) (m : TimerManager Cb) :
    Except TimerFault (Bool × TimerManager Cb) := do
  let t ← m.deref id
  if t.cb.isNone then
    return (false, m)
  else
    let it := find m.less id m.timers
    if it = m.timers.length then
      return (false, m)
    else
      let m ← m.erase it
      let m := m.put id { t with next := now + t.ms }
      return (true, m.insertTimer id)

/-- The second answer is the call of `onTimerInsertedtAtFront`. -/
def reset (id : Nat) (ms : UInt64) (fromNow : Bool) (now : UInt64) (m : TimerManager Cb) :
    Except TimerFault ((Bool × Bool) × TimerManager Cb) := do
  let t ← m.deref id
  if ms = t.ms ∧ fromNow = false then
    return ((true, false), m)
  else if t.cb.isNone then
    return ((false, false), m)
  else
    let it := find m.less id m.timers
    if it = m.timers.length then
      return ((false, false), m)
    else
      let m ← m.erase it
      let start := if fromNow then now else t.next - t.ms
      let m := m.put id { t with ms := ms, next := start + ms }
      let added := m.addTimerLocked id
      return ((true, added.1), added.2)

def getNextTimer (now : UInt64) (m : TimerManager Cb) :
    Except TimerFault (UInt64 × TimerManager Cb) := do
  let m := { m with tickled := false }
  if m.timers.isEmpty then
    return (~~~0, m)
  else
    let next ← m.begin
    if now ≥ next.next then
      return (0, m)
    else
      return (next.next - now, m)

def hasTimer (m : TimerManager Cb) : Bool := !m.timers.isEmpty

def detectClockRollover (now : UInt64) (m : TimerManager Cb) : Bool × TimerManager Cb :=
  let rollover := now < m.previouseTime && now < m.previouseTime - 60 * 60 * 1000
  (rollover, { m with previouseTime := now })

/-- `while (it != end() && (*it)->m_next == now_ms) ++it`. -/
def skipEqual (now : UInt64) (m : TimerManager Cb) (it : Nat) : Nat :=
  it + lowerBound (fun id => m.objs[id]?.any (·.next == now)) (m.timers.drop it)

def expiredEnd (now : UInt64) (rollover : Bool) (sentinel : Nat) (m : TimerManager Cb) : Nat :=
  let it :=
    if rollover then m.timers.length
    else lowerBound (fun id => Timer.Comparator m.objs[id]? (some (.at sentinel now))) m.timers
  m.skipEqual now it

/-- An expired timer that recurs goes back into the set, another loses its
callback. -/
def settle (now : UInt64) (id : Nat) (t : Timer Cb) (m : TimerManager Cb) : TimerManager Cb :=
  if t.recurring then (m.put id { t with next := now + t.ms }).insertTimer id
  else m.put id { t with cb := none }

/-- The loop over `expried`: each timer's callback is taken, here with the
object it belongs to as it is then. -/
def deliver (now : UInt64) : List Nat → TimerManager Cb →
    Except TimerFault (List (Nat × Timer Cb) × TimerManager Cb)
  | [], m => .ok ([], m)
  | id :: expried, m => do
    let t ← m.deref id
    let (rest, m) ← deliver now expried (m.settle now id t)
    return ((id, t) :: rest, m)

/-- `!rollover && (*m_timers.begin())->m_next > now_ms`: the set is only read
when no rollover was seen. -/
def nothingDue (now : UInt64) (rollover : Bool) (m : TimerManager Cb) :
    Except TimerFault Bool := do
  if rollover then
    return false
  else
    let first ← m.begin
    return first.next > now

def collectExpired (now : UInt64) (sentinel : Nat) (m : TimerManager Cb) :
    Except TimerFault (List (Nat × Timer Cb) × TimerManager Cb) := do
  let (rollover, m) := m.detectClockRollover now
  if ← m.nothingDue now rollover then
    return ([], m)
  else
    let it := m.expiredEnd now rollover sentinel
    deliver now (m.timers.take it) { m with timers := m.timers.drop it }

def listExpiredCb (now : UInt64) (sentinel : Nat) (m : TimerManager Cb) :
    Except TimerFault (List (Nat × Timer Cb) × TimerManager Cb) :=
  if m.timers.isEmpty then .ok ([], m) else m.collectExpired now sentinel

def release (id : Nat) (m : TimerManager Cb) : TimerManager Cb :=
  { m with held := m.held.filter (· ≠ id) }

inductive Op (Cb : Type) where
  | addTimer (now ms : UInt64) (cb : Cb) (recurring : Bool) (addr : Nat)
  | cancel (id : Nat)
  | refresh (id : Nat) (now : UInt64)
  | reset (id : Nat) (ms : UInt64) (fromNow : Bool) (now : UInt64)
  | getNextTimer (now : UInt64)
  | listExpiredCb (now : UInt64) (sentinel : Nat)
  | release (id : Nat)

inductive Out (Cb : Type) where
  | added (id : Nat) (front : Bool)
  | answered (result : Bool)
  | rearmed (result front : Bool)
  | timeout (ms : UInt64)
  | expired (cbs : List (Nat × Timer Cb))
  | released

def Op.exec (m : TimerManager Cb) : Op Cb → Except TimerFault (Out Cb × TimerManager Cb)
  | .addTimer now ms cb recurring addr =>
    let added := m.addTimer now ms (some cb) recurring addr
    .ok (.added added.1.1 added.1.2, added.2)
  | .cancel id => do
    let (result, m) ← m.cancel id
    return (.answered result, m)
  | .refresh id now => do
    let (result, m) ← m.refresh id now
    return (.answered result, m)
  | .reset id ms fromNow now => do
    let ((result, front), m) ← m.reset id ms fromNow now
    return (.rearmed result front, m)
  | .getNextTimer now => do
    let (ms, m) ← m.getNextTimer now
    return (.timeout ms, m)
  | .listExpiredCb now sentinel => do
    let (cbs, m) ← m.listExpiredCb now sentinel
    return (.expired cbs, m)
  | .release id => .ok (.released, m.release id)

/-- What makes an operation possible: a method needs a pointer to call it
through, and a new object gets an address that no living object has. -/
def Op.Enabled (m : TimerManager Cb) : Op Cb → Prop
  | .addTimer _ _ _ _ addr => ∀ id ∈ m.timers ++ m.held, (m.objs[id]?).map (·.addr) ≠ some addr
  | .cancel id | .refresh id _ | .reset id _ _ _ | .release id => id ∈ m.held
  | .getNextTimer _ | .listExpiredCb _ _ => True

instance (m : TimerManager Cb) (op : Op Cb) : Decidable (op.Enabled m) := by
  cases op <;> unfold Op.Enabled <;> infer_instance

def Step (m : TimerManager Cb) (e : Op Cb × Out Cb) (m' : TimerManager Cb) : Prop :=
  e.1.Enabled m ∧ e.1.exec m = .ok (e.2, m')

end TimerManager

end Sylar
