import Mathlib.Algebra.Group.Nat.Defs
import Mathlib.Algebra.Ring.Int.Defs
import Sylar.Timer.Runs

/-! How long `idle` waits in `epoll_wait`. The loop computes a timeout from the time to the first
timer, and then passes `MAX_TIMEOUT`. -/
namespace Sylar.IOManager

open Lib TimerManager

def MAX_TIMEOUT : Int32 := 3000

/-- `IOManager::stopping(uint64_t&)`; the answer of `Scheduler::stopping` comes from outside. -/
def stopping (timeout : UInt64) (pendingEventCount : Nat) (schedulerStopping : Bool) : Bool :=
  timeout == ~~~0 && pendingEventCount == 0 && schedulerStopping

def clampTimeout (nextTimeout : UInt64) : UInt64 :=
  if nextTimeout ≠ ~~~0 then
    if nextTimeout.toUInt32.toInt32 > MAX_TIMEOUT then 3000 else nextTimeout
  else 3000

/-- The inner loop with the number of times that a signal interrupts it: for each round
`next_timeout` and the timeout passed to `epoll_wait`. -/
def waitLoop : Nat → UInt64 → List (UInt64 × Int32)
  | 0, nextTimeout => [(clampTimeout nextTimeout, MAX_TIMEOUT)]
  | interrupts + 1, nextTimeout =>
    (clampTimeout nextTimeout, MAX_TIMEOUT) :: waitLoop interrupts (clampTimeout nextTimeout)

variable {Cb : Type}

def idleWait (now : UInt64) (pendingEventCount : Nat) (schedulerStopping : Bool) (interrupts : Nat)
    (m : TimerManager Cb) : Except TimerFault (List (UInt64 × Int32) × TimerManager Cb) := do
  let (nextTimeout, m) ← m.getNextTimer now
  if stopping nextTimeout pendingEventCount schedulerStopping then return ([], m)
  else return (waitLoop interrupts nextTimeout, m)

/-- What is asked of a timeout that is passed when `remaining` is left to the first timer. -/
def InTime (remaining : UInt64) (timeout : Int32) : Prop :=
  0 ≤ timeout.toInt ∧ timeout.toInt ≤ 3000 ∧ timeout.toInt ≤ remaining.toNat

def NoneSoon (now : UInt64) (m : TimerManager Cb) : Prop :=
  ∀ id ∈ m.timers, ∀ t ∈ m.objs[id]?, now.toNat + 3000 ≤ t.next.toNat

theorem mem_waitLoop {interrupts : Nat} {nextTimeout : UInt64} :
    ∀ w ∈ waitLoop interrupts nextTimeout, w.2 = MAX_TIMEOUT := by
  induction interrupts generalizing nextTimeout with
  | zero => simp [waitLoop]
  | succ interrupts ih =>
    unfold waitLoop
    intro w hw
    rcases List.mem_cons.mp hw with rfl | hw
    · rfl
    · exact ih w hw

theorem exists_mem_waitLoop (interrupts : Nat) (nextTimeout : UInt64) :
    ∃ w, w ∈ waitLoop interrupts nextTimeout := by
  cases interrupts <;> exact ⟨_, List.mem_cons_self⟩

theorem inTime_maxTimeout (remaining : UInt64) :
    InTime remaining MAX_TIMEOUT ↔ 3000 ≤ remaining.toNat := by
  have hmax : MAX_TIMEOUT.toInt = 3000 := by decide
  unfold InTime
  rw [hmax]
  omega

section Timers

variable {m : TimerManager Cb} {now : UInt64}

theorem noneSoon_iff_first (h : Good [] m) {id : Nat} {rest : List Nat} {t : Timer Cb}
    (htimers : m.timers = id :: rest) (ht : m.objs[id]? = some t) :
    NoneSoon now m ↔ now.toNat + 3000 ≤ t.next.toNat := by
  have hsorted := h.sorted
  rw [htimers] at hsorted
  unfold NoneSoon
  constructor
  · intro hnone
    exact hnone id (by rw [htimers]; exact List.mem_cons_self) t ht
  · intro hfirst j hj u hu
    rw [htimers] at hj
    rcases List.mem_cons.mp hj with rfl | hj
    · obtain rfl := Option.some.inj (ht.symm.trans hu)
      exact hfirst
    · have hlt := (key_lt_key ht hu).mp ((List.pairwise_cons.mp hsorted).1 j hj)
      have hle : t.next.toNat ≤ u.next.toNat := by
        rcases hlt with hlt | ⟨heq, -⟩
        · exact Nat.le_of_lt hlt
        · rw [heq]
      omega

theorem getNextTimer_noneSoon (h : Good [] m) {remaining : UInt64} {m' : TimerManager Cb}
    (hnext : m.getNextTimer now = .ok (remaining, m')) :
    3000 ≤ remaining.toNat ↔ NoneSoon now m := by
  unfold getNextTimer at hnext
  cases htimers : m.timers with
  | nil =>
    rw [htimers] at hnext
    obtain ⟨rfl, -⟩ := Prod.mk.inj (Except.ok.inj hnext)
    simp [NoneSoon, htimers]
  | cons id rest =>
    obtain ⟨t, ht, -⟩ := (h.armed id).mp (by simp [htimers])
    rw [noneSoon_iff_first h htimers ht]
    simp only [htimers, List.isEmpty_cons, begin, TimerManager.deref, ht, bind, Except.bind,
      Bool.false_eq_true, if_false] at hnext
    split at hnext
    case isTrue hdue =>
      obtain ⟨rfl, -⟩ := Prod.mk.inj (Except.ok.inj hnext)
      have hle : t.next.toNat ≤ now.toNat := hdue
      simp only [UInt64.toNat_zero]
      omega
    case isFalse hlate =>
      obtain ⟨rfl, -⟩ := Prod.mk.inj (Except.ok.inj hnext)
      have hlt : now.toNat < t.next.toNat := Nat.lt_of_not_le hlate
      rw [UInt64.toNat_sub_of_le _ _ (Nat.le_of_lt hlt)]
      omega

end Timers

/-- For every reachable set of timers and reading of the clock: the timeouts passed are in time
exactly when no timer is due within 3000 ms. -/
theorem idle_inTime_iff (start : UInt64) {es : List (TimerManager.Event Cb)}
    {m : TimerManager Cb} (run : Run TimerManager.Step (TimerManager.init start) es m) (now : UInt64)
    (pendingEventCount : Nat) (schedulerStopping : Bool) (interrupts : Nat) :
    ∃ remaining m' waits, m.getNextTimer now = .ok (remaining, m') ∧
      idleWait now pendingEventCount schedulerStopping interrupts m = .ok (waits, m') ∧
      ((∀ w ∈ waits, InTime remaining w.2) ↔ NoneSoon now m) := by
  have hgood := run_good run
  obtain ⟨remaining, hnext⟩ := hgood.getNextTimer now
  have hsoon := getNextTimer_noneSoon hgood hnext
  by_cases hstop : stopping remaining pendingEventCount schedulerStopping = true
  · refine ⟨remaining, _, [], hnext, ?_, ?_⟩
    · unfold idleWait
      rw [hnext]
      exact if_pos hstop
    · -- nothing is passed, and the sentinel stands for no timer at all
      have hall : remaining = ~~~0 := by
        simp only [stopping, Bool.and_eq_true, beq_iff_eq] at hstop
        exact hstop.1.1
      rw [← hsoon, hall]
      simp
  · refine ⟨remaining, _, waitLoop interrupts remaining, hnext, ?_, ?_⟩
    · unfold idleWait
      rw [hnext]
      exact if_neg hstop
    · rw [← hsoon, ← inTime_maxTimeout]
      constructor
      · intro hin
        obtain ⟨w, hw⟩ := exists_mem_waitLoop interrupts remaining
        rw [← mem_waitLoop w hw]
        exact hin w hw
      · intro hmax w hw
        rw [mem_waitLoop w hw]
        exact hmax

/-- A timer that is due in 10 ms is waited for with the timeout 3000. -/
theorem idle_waits_past_timer :
    ∃ es m, Run TimerManager.Step (TimerManager.init 0 : TimerManager Nat) es m ∧
      (m.getNextTimer 0).map Prod.fst = .ok 10 ∧
      (idleWait 0 0 false 0 m).map Prod.fst = .ok [(10, 3000)] ∧ ¬ InTime 10 3000 := by
  refine ⟨[(.addTimer 0 10 7 false 4, _)], _, .cons ⟨by decide, rfl⟩ .start, by decide,
    by decide, ?_⟩
  exact fun h => absurd h.2.2 (by decide)

/-- With no timer before 5000 the timeout is in time. -/
theorem idle_inTime_iff_later :
    ∃ es m, Run TimerManager.Step (TimerManager.init 0 : TimerManager Nat) es m ∧ NoneSoon 7 m ∧
      ∃ remaining m' waits, m.getNextTimer 7 = .ok (remaining, m') ∧
        idleWait 7 0 false 1 m = .ok (waits, m') ∧
        ((∀ w ∈ waits, InTime remaining w.2) ↔ NoneSoon 7 m) := by
  obtain ⟨es, m, run, htimers, hobjs⟩ : ∃ es m,
      Run TimerManager.Step (TimerManager.init 0 : TimerManager Nat) es m ∧ m.timers = [0] ∧
        m.objs[0]?.map (·.next) = some 5000 :=
    ⟨[(.addTimer 0 5000 7 false 4, _)], _, .cons ⟨by decide, rfl⟩ .start, by decide, by decide⟩
  have hnone : NoneSoon 7 m := by
    intro id hid t ht
    rw [htimers, List.mem_singleton] at hid
    subst hid
    obtain ⟨u, hu, hnext⟩ := Option.map_eq_some_iff.mp hobjs
    obtain rfl := Option.some.inj (hu.symm.trans ht)
    rw [hnext]
    decide
  exact ⟨es, m, run, hnone, idle_inTime_iff 0 run 7 0 false 1⟩

end Sylar.IOManager
