import Mathlib.Algebra.Ring.Int.Defs
import Sylar.Timer.Unheld

/-! The hooked `sleep`, `usleep` and `nanosleep`. Each adds a timer that wakes the fiber and does
not keep its pointer. The period passes through the types of C: a product of 32 bits, divisions
that round down, an `int`, and the sum with the clock. -/
namespace Sylar

open Lib TimerManager

structure Timespec where
  tvSec : Int64
  tvNsec : Int64
  sec_nonneg : 0 ≤ tvSec.toInt
  nsec_nonneg : 0 ≤ tvNsec.toInt
  nsec_lt : tvNsec.toInt < 10 ^ 9

namespace Timespec

def sec (req : Timespec) : Nat := req.tvSec.toInt.toNat

def nsec (req : Timespec) : Nat := req.tvNsec.toInt.toNat

end Timespec

inductive Sleep where
  | sleep (seconds : UInt32)
  | usleep (usec : UInt32)
  | nanosleep (req : Timespec)

namespace Sleep

/-- `timeout_ms` of `nanosleep`; nothing where a product or a sum of `long` overflows. -/
def timeoutMs (req : Timespec) : Option Int32 :=
  let product := req.tvSec.toInt * 1000
  let sum := product + req.tvNsec.toInt / 1000 / 1000
  if product < 2 ^ 63 ∧ sum < 2 ^ 63 then some (Int32.ofInt sum) else none

def ms : Sleep → Option UInt64
  | .sleep seconds => some (seconds * 1000).toUInt64
  | .usleep usec => some (usec / 1000).toUInt64
  | .nanosleep req => (timeoutMs req).map fun timeout => timeout.toInt64.toUInt64

def requested : Sleep → Nat
  | .sleep seconds => seconds.toNat * 1000
  | .usleep usec => (usec.toNat + 999) / 1000
  | .nanosleep req => (req.sec * 10 ^ 9 + req.nsec + 999999) / 10 ^ 6

variable {Cb : Type}

/-- The manager when the fiber is asleep: the timer is in and its pointer is gone. -/
def asleep (w : Timed Cb) (now ms : UInt64) (cb : Cb) (addr : Nat) : Timed Cb :=
  let added := w.manager.addTimer now ms (some cb) false addr
  { manager := added.2.release added.1.1, clock := now }

/-- The timer of the call is delivered only when the requested duration is over. -/
def Waits (call : Sleep) (w : Timed Cb) (now : UInt64) (cb : Cb) (addr : Nat) : Prop :=
  ∃ ms, call.ms = some ms ∧ ∀ es w', Run Timed.Step (asleep w now ms cb addr) es w' →
    ∀ now' sentinel cbs, (Op.listExpiredCb now' sentinel, Out.expired cbs) ∈ es →
      w.manager.objs.length ∈ cbs.map Prod.fst → now.toNat + call.requested ≤ now'.toNat

/-- The calls that wait long enough at a reading of the clock. A `nanosleep` whose `int` is negative
waits for almost `2 ^ 64` ms, if that does not wrap. -/
def Fits (now : UInt64) : Sleep → Prop
  | .sleep seconds => seconds.toNat * 1000 < 2 ^ 32 ∧ now.toNat + seconds.toNat * 1000 < 2 ^ 64
  | .usleep usec => usec.toNat % 1000 = 0 ∧ now.toNat + usec.toNat / 1000 < 2 ^ 64
  | .nanosleep req =>
    let timeout := req.sec * 1000 + req.nsec / 10 ^ 6
    timeout < 2 ^ 63 ∧
      (req.nsec % 10 ^ 6 = 0 ∧ timeout < 2 ^ 31 ∧ now.toNat + timeout < 2 ^ 64 ∨
        2 ^ 31 ≤ timeout % 2 ^ 32 ∧ now.toNat + timeout % 2 ^ 32 < 2 ^ 32)

instance (now : UInt64) (call : Sleep) : Decidable (call.Fits now) := by
  cases call <;> unfold Fits <;> infer_instance

section Periods

theorem toNat_toUInt64 (timeout : Nat) :
    (Int32.ofInt timeout).toInt64.toUInt64.toNat =
      if timeout % 2 ^ 32 < 2 ^ 31 then timeout % 2 ^ 32
      else 2 ^ 64 - 2 ^ 32 + timeout % 2 ^ 32 := by
  have hbits : (Int32.ofInt timeout).toInt64.toUInt64.toNat =
      ((BitVec.ofNat 32 timeout).signExtend 64).toNat := rfl
  rw [hbits, BitVec.toNat_signExtend, BitVec.msb_eq_decide]
  simp only [BitVec.toNat_setWidth, BitVec.toNat_ofNat, decide_eq_true_eq]
  split <;> split <;> omega

theorem timeoutMs_eq (req : Timespec) :
    timeoutMs req = if req.sec * 1000 + req.nsec / 10 ^ 6 < 2 ^ 63 then
      some (Int32.ofInt (req.sec * 1000 + req.nsec / 10 ^ 6 : Nat)) else none := by
  have hsec : req.tvSec.toInt = req.sec := (Int.toNat_of_nonneg req.sec_nonneg).symm
  have hnsec : req.tvNsec.toInt = req.nsec := (Int.toNat_of_nonneg req.nsec_nonneg).symm
  have hsum : req.tvSec.toInt * 1000 + req.tvNsec.toInt / 1000 / 1000 =
      (req.sec * 1000 + req.nsec / 10 ^ 6 : Nat) := by
    rw [hsec, hnsec]
    omega
  unfold timeoutMs
  dsimp only
  rw [hsum, hsec]
  congr 1
  rw [eq_iff_iff]
  omega

/-- A period is long enough when it is not less than the request and its sum with the clock does
not wrap. -/
theorem fits_iff (call : Sleep) (now : UInt64) :
    call.Fits now ↔ ∃ ms, call.ms = some ms ∧ call.requested ≤ ms.toNat ∧
      now.toNat + ms.toNat < 2 ^ 64 := by
  cases call with
  | sleep seconds =>
    have hms : (seconds * 1000).toUInt64.toNat = seconds.toNat * 1000 % 2 ^ 32 := by
      rw [UInt32.toNat_toUInt64, UInt32.toNat_mul]
      rfl
    simp only [Fits, ms, requested, Option.some.injEq, exists_eq_left', hms]
    omega
  | usleep usec =>
    have hms : (usec / 1000).toUInt64.toNat = usec.toNat / 1000 := by
      rw [UInt32.toNat_toUInt64, UInt32.toNat_div]
      rfl
    simp only [Fits, ms, requested, Option.some.injEq, exists_eq_left', hms]
    omega
  | nanosleep req =>
    simp only [Fits, ms, requested, timeoutMs_eq]
    by_cases hlong : req.sec * 1000 + req.nsec / 10 ^ 6 < 2 ^ 63
    · have hms := toNat_toUInt64 (req.sec * 1000 + req.nsec / 10 ^ 6)
      rw [if_pos hlong, and_iff_right hlong]
      simp only [Option.map_some, Option.some.injEq, exists_eq_left', hms]
      split <;> omega
    · rw [if_neg hlong]
      constructor
      · rintro ⟨hlong', -⟩
        exact absurd hlong' hlong
      · rintro ⟨ms, hnone, -⟩
        cases hnone

theorem ms_of_requested_eq_zero {call : Sleep} {ms : UInt64} (hms : call.ms = some ms)
    (hzero : call.requested = 0) : ms.toNat = 0 := by
  cases call with
  | sleep seconds =>
    obtain rfl := Option.some.inj hms
    have hseconds : seconds.toNat = 0 := by
      simp only [requested] at hzero
      omega
    rw [UInt32.toNat_toUInt64, UInt32.toNat_mul, hseconds]
    rfl
  | usleep usec =>
    obtain rfl := Option.some.inj hms
    simp only [requested] at hzero
    rw [UInt32.toNat_toUInt64, UInt32.toNat_div]
    change usec.toNat / 1000 = 0
    omega
  | nanosleep req =>
    simp only [requested] at hzero
    have htimeout : req.sec * 1000 + req.nsec / 10 ^ 6 = 0 := by omega
    rw [Sleep.ms, timeoutMs_eq, htimeout] at hms
    obtain rfl := Option.some.inj hms
    decide

end Periods

section Calls

variable {w : Timed Cb} {now : UInt64} {cb : Cb} {addr : Nat}

def timer (now ms : UInt64) (cb : Cb) (addr : Nat) : Timer Cb :=
  { addr, recurring := false, ms, next := now + ms, cb := some cb }

theorem unheld_asleep (h : Steady w) (hnow : w.clock ≤ now) (cb : Cb)
    (haddr : ∀ id ∈ w.manager.timers ++ w.manager.held,
      (w.manager.objs[id]?).map (·.addr) ≠ some addr) (ms : UInt64) :
    Unheld w.manager.objs.length (timer now ms cb addr) (asleep w now ms cb addr) where
  good := (h.good.addTimer now ms cb false haddr).1.release _
  time := UInt64.le_trans h.time hnow
  free := fun hmem => absurd rfl (of_decide_eq_true (List.mem_filter.mp hmem).2)
  once := rfl
  state := .inl (by simp [asleep, addTimer, addTimerLocked, release, timer])

theorem exists_run_delivers {ms : UInt64}
    (h : Unheld w.manager.objs.length (timer now ms cb addr) (asleep w now ms cb addr))
    {now' : UInt64} (hclock : now ≤ now') (hdue : now + ms ≤ now') :
    ∃ es w' cbs, Run Timed.Step (asleep w now ms cb addr) es w' ∧
      (Op.listExpiredCb now' 0, Out.expired cbs) ∈ es ∧
      w.manager.objs.length ∈ cbs.map Prod.fst := by
  have hget : (asleep w now ms cb addr).manager.objs[w.manager.objs.length]? =
      some (timer now ms cb addr) := by
    simp [asleep, addTimer, addTimerLocked, release, timer]
  have hin : w.manager.objs.length ∈ (asleep w now ms cb addr).manager.timers := by
    have harmed := (h.good.armed _).mpr ⟨_, hget, rfl⟩
    rwa [List.append_nil] at harmed
  obtain ⟨cbs, m', hrun, hlisted⟩ := h.good.listed (List.ne_nil_of_mem hin) now' 0
  have hstep : Timed.Step (asleep w now ms cb addr)
      (.listExpiredCb now' 0, .expired cbs) ⟨m', now'⟩ := by
    refine ⟨⟨trivial, ?_⟩, ?_, rfl⟩
    · exact bind_eq_ok.mpr ⟨_, hrun, rfl⟩
    · intro reading hreading
      obtain rfl := Option.some.inj hreading
      exact hclock
  refine ⟨_, _, cbs, .cons hstep .start, List.mem_singleton_self _, ?_⟩
  apply (hlisted.ids _).mpr
  exact ⟨hin, (h.toSteady.expired_iff hclock _).mpr ⟨_, hget, hdue⟩⟩

theorem le_next_iff {ms : UInt64} {d : Nat} (hd : d ≠ 0) :
    now.toNat + d ≤ max now.toNat (now + ms).toNat ↔
      d ≤ ms.toNat ∧ now.toNat + ms.toNat < 2 ^ 64 := by
  have hsum : (now + ms).toNat = (now.toNat + ms.toNat) % 2 ^ 64 := UInt64.toNat_add _ _
  have hnow := now.toNat_lt
  have hms := ms.toNat_lt
  rw [hsum]
  rcases Nat.lt_or_ge (now.toNat + ms.toNat) (2 ^ 64) with hlt | hge
  · rw [Nat.mod_eq_of_lt hlt]
    omega
  · have hwrap : (now.toNat + ms.toNat) % 2 ^ 64 = now.toNat + ms.toNat - 2 ^ 64 := by
      omega
    omega

end Calls

/-- In every reachable state and for every argument: the timer of the call is delivered only after
the requested duration exactly when the call fits. -/
theorem waits_iff (start : UInt64) {es : List (TimerManager.Event Cb)} {w : Timed Cb}
    (run : Run Timed.Step (Timed.init start) es w) (call : Sleep) (now : UInt64)
    (hnow : w.clock ≤ now) (cb : Cb) (addr : Nat)
    (haddr : ∀ id ∈ w.manager.timers ++ w.manager.held,
      (w.manager.objs[id]?).map (·.addr) ≠ some addr) :
    call.Waits w now cb addr ↔ call.Fits now := by
  have hunheld := unheld_asleep (run_steady run) hnow cb haddr
  rw [fits_iff]
  constructor
  · rintro ⟨ms, hms, hwaits⟩
    refine ⟨ms, hms, ?_⟩
    by_cases hzero : call.requested = 0
    · have := now.toNat_lt
      rw [hzero, ms_of_requested_eq_zero hms hzero]
      omega
    · -- the timer is delivered as soon as its deadline and the clock allow
      rw [← le_next_iff hzero]
      obtain ⟨now', hclock, hdue, hmax⟩ : ∃ now' : UInt64, now ≤ now' ∧ now + ms ≤ now' ∧
          now'.toNat = max now.toNat (now + ms).toNat := by
        rcases Nat.le_total now.toNat (now + ms).toNat with hle | hle
        · exact ⟨now + ms, hle, UInt64.le_refl _, (Nat.max_eq_right hle).symm⟩
        · exact ⟨now, UInt64.le_refl _, hle, (Nat.max_eq_left hle).symm⟩
      obtain ⟨es', w', cbs, run', he, hid⟩ := exists_run_delivers (hunheld ms) hclock hdue
      rw [← hmax]
      exact hwaits es' w' run' now' 0 cbs he hid
  · rintro ⟨ms, hms, hlong, hfits⟩
    refine ⟨ms, hms, fun es' w' run' now' sentinel cbs he hid => ?_⟩
    have hdue : now + ms ≤ now' := run_delivers_unheld (hunheld ms) run' he hid
    have hsum : (now + ms).toNat = now.toNat + ms.toNat := by
      rw [UInt64.toNat_add, Nat.mod_eq_of_lt hfits]
    have hle : (now + ms).toNat ≤ now'.toNat := hdue
    omega

/-- A second asked for at the reading 5 of a new manager. -/
theorem waits_iff_second :
    Fits 5 (.sleep 1) ∧ (Waits (.sleep 1) (Timed.init 0 : Timed Nat) 5 7 4 ↔ Fits 5 (.sleep 1)) :=
  ⟨by decide, waits_iff 0 .start (.sleep 1) 5 (by decide) 7 4 (by decide)⟩

/-- Half a millisecond becomes no time at all: the timer is delivered at the reading it was added
at. Of 4294968 seconds 704 ms are left. -/
theorem usleep_wakes_at_once :
    ms (.usleep 500) = some 0 ∧ requested (.usleep 500) = 1 ∧
      ms (.sleep 4294968) = some 704 ∧ requested (.sleep 4294968) = 4294968000 ∧
      ¬ Waits (.usleep 500) (Timed.init 0 : Timed Nat) 0 7 4 := by
  refine ⟨rfl, rfl, rfl, rfl, ?_⟩
  rintro ⟨ms, hms, hwaits⟩
  obtain rfl := Option.some.inj hms
  have hread : ∀ now ∈ (Op.listExpiredCb 0 9 : Op Nat).reading, (0 : UInt64) ≤ now := by
    intro now hnow
    obtain rfl := Option.some.inj hnow
    exact UInt64.le_refl _
  have hstep : Timed.Step (asleep (Timed.init 0) 0 0 7 4)
      (.listExpiredCb 0 9, .expired [(0, timer 0 0 7 4)]) ⟨_, 0⟩ := ⟨⟨trivial, rfl⟩, hread, rfl⟩
  exact absurd (hwaits _ _ (.cons hstep .start) 0 9 _ List.mem_cons_self (by decide)) (by decide)

end Sleep

end Sylar
