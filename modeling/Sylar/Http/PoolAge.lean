import Mathlib.Data.List.TakeWhile
import Sylar.Http.PoolRuns

/-! The ages of the connections in a pool. The pool runs against a clock that does not go
back, and the time at which each connection was made is kept beside it: `m_createTime` is
not set by the code. -/
namespace Sylar.Http.HttpConnectionPool

open Lib

def Act.reading : Act → Option Nat
  | .getConnection now => some now
  | .test _ _ now => some now
  | _ => none

structure Aged where
  pool : HttpConnectionPool
  clock : Nat
  born : Nat → Nat

namespace Aged

abbrev Event := Act × Nat

def init (maxSize maxAliveTime maxRequest clock : Nat) : Aged :=
  ⟨HttpConnectionPool.init maxSize maxAliveTime maxRequest, clock, fun _ => 0⟩

def exec (s : Aged) (e : Event) : Option Aged :=
  if s.clock ≤ e.2 ∧ e.1.reading.all (· = e.2) = true then
    (s.pool.exec e.1).map fun pool =>
      { pool, clock := e.2,
        born := if pool.objects.length = s.pool.objects.length then s.born
          else Function.update s.born s.pool.objects.length e.2 }
  else none

def Step (s : Aged) (e : Event) (s' : Aged) : Prop := s.exec e = some s'

/-- A connection of the list is handed out only if it is at most as old as the maximum; one
that is connected, younger and within the limit of uses is not deleted, neither by
`getConnection` nor when it is released. -/
def Respects (s : Aged) (e : Event) (s' : Aged) : Prop :=
  match e.1 with
  | .pop i connected => ∀ now taken invalid size,
    s.pool.calls[i]? = some (.entered now) →
    s'.pool.calls[i]? = some (.removing taken invalid size) →
      (∀ ptr ∈ taken, now ≤ s.born ptr + s.pool.maxAliveTime) ∧
      ∀ ptr ∈ invalid, connected ptr = true →
        (s.pool.connection ptr).request < s.pool.maxRequest →
        s.born ptr + s.pool.maxAliveTime ≤ now
  | .test i connected now => ∀ ptr, s.pool.calls[i]? = some (.releasing ptr) →
    connected = true → (s'.pool.connection ptr).request < s.pool.maxRequest →
    now < s.born ptr + s.pool.maxAliveTime → s'.pool.calls[i]? = some (.pushing ptr)
  | _ => True

/-- The clock has passed the maximum alive time and the first connected one of the list is not
older than it, or none of the list is connected; and no connection that is kept otherwise is
released before the clock has passed the maximum alive time. -/
def Timely (s : Aged) (e : Event) : Prop :=
  match e.1 with
  | .pop i connected => ∀ now, s.pool.calls[i]? = some (.entered now) →
    (s.pool.maxAliveTime ≤ now → ∀ ptr ∈ s.pool.conns.find? connected,
      now ≤ s.born ptr + s.pool.maxAliveTime) ∧
    (now < s.pool.maxAliveTime → ∀ ptr ∈ s.pool.conns, connected ptr = true →
      s.pool.maxRequest ≤ (s.pool.connection ptr).request)
  | .test i connected now => ∀ ptr, s.pool.calls[i]? = some (.releasing ptr) →
    connected = true → (s.pool.connection ptr).request + 1 < s.pool.maxRequest →
    now < s.born ptr + s.pool.maxAliveTime → s.pool.maxAliveTime < now
  | _ => True

end Aged

variable {s s' : HttpConnectionPool} {i ptr now : Nat} {act : Act} {connected : Nat → Bool}

def Unstamped (s : HttpConnectionPool) : Prop := ∀ c ∈ s.objects, c.createTime = 0

theorem Unstamped.createTime (h : Unstamped s) (ptr : Nat) : (s.connection ptr).createTime = 0 := by
  unfold connection
  cases hptr : s.objects[ptr]? with
  | none => rfl
  | some c => exact h c (List.mem_of_getElem? hptr)

theorem Unstamped.modify (h : Unstamped s) (ptr : Nat) :
    ∀ c ∈ s.objects.modify ptr (fun c => { c with request := c.request + 1 }), c.createTime = 0 := by
  intro c hc
  obtain ⟨j, hj⟩ := List.mem_iff_getElem?.mp hc
  rw [List.getElem?_modify] at hj
  obtain ⟨c', hc', rfl⟩ := Option.map_eq_some_iff.mp hj
  have hzero := h c' (List.mem_of_getElem? hc')
  split
  · exact hzero
  · exact hzero

theorem Unstamped.step (h : Unstamped s) (hstep : s.Step act s') : Unstamped s' := by
  cases step_effect hstep with
  | connect ok call =>
    unfold connect
    split
    · intro c hc
      rcases List.mem_append.mp hc with hc | hc
      · exact h c hc
      · rw [List.mem_singleton.mp hc]
        rfl
    · exact h
  | test connected now call =>
    simp only [test]
    split
    · exact h.modify _
    · exact h.modify _
  | _ => exact h

/-- Before the clock reaches the maximum alive time, nothing in the list is good enough. -/
theorem Unstamped.popIdle_early (h : Unstamped s) (hnow : now < s.maxAliveTime) (conns : List Nat) :
    s.popIdle connected now conns = (conns, none, []) := by
  induction conns with
  | nil => rfl
  | cons conn rest ih =>
    have hyoung : (s.connection conn).createTime + s.maxAliveTime > now := by
      rw [h.createTime]
      omega
    simp [popIdle, hyoung, ih]

/-- From then on, everything that is connected is. -/
theorem Unstamped.popIdle_late (h : Unstamped s) (hnow : s.maxAliveTime ≤ now)
    (connected : Nat → Bool) (conns : List Nat) :
    (s.popIdle connected now conns).1 = conns.takeWhile (!connected ·) ∧
      (s.popIdle connected now conns).2.1 = conns.find? connected := by
  induction conns with
  | nil => exact ⟨rfl, rfl⟩
  | cons conn rest ih =>
    have hold : ¬ (s.connection conn).createTime + s.maxAliveTime > now := by
      rw [h.createTime]
      omega
    cases hconn : connected conn with
    | false => simp [popIdle, hconn, ih.1, ih.2]
    | true => simp [popIdle, hconn, hold]

theorem calls_goto {c c' : Call} (hcall : s.calls[i]? = some c) :
    (s.goto i c').calls[i]? = some c' := by
  obtain ⟨hi, -⟩ := List.getElem?_eq_some_iff.mp hcall
  exact List.getElem?_set_self hi

theorem calls_pop (hcall : s.calls[i]? = some (.entered now)) :
    (s.pop i connected now).calls[i]? =
      some (.removing (s.popIdle connected now s.conns).2.1 (s.popIdle connected now s.conns).1
        (s.popIdle connected now s.conns).1.length) :=
  calls_goto (s := { s with conns := (s.popIdle connected now s.conns).2.2 }) hcall

theorem request_test (hptr : ptr < s.objects.length) (connected : Bool) :
    ((s.test i ptr connected now).connection ptr).request = (s.connection ptr).request + 1 := by
  have hrequest := s.request_modify hptr ptr
  rw [List.count_singleton_self] at hrequest
  rw [← hrequest]
  simp only [test]
  split <;> rfl

theorem Unstamped.calls_test (h : Unstamped s) (hptr : ptr < s.objects.length)
    (hcall : s.calls[i]? = some (.releasing ptr)) (connected : Bool) :
    (s.test i ptr connected now).calls[i]? = some (.pushing ptr) ↔
      connected = true ∧ s.maxAliveTime < now ∧ (s.connection ptr).request + 1 < s.maxRequest := by
  have hrequest := s.request_modify hptr ptr
  rw [List.count_singleton_self] at hrequest
  let t : HttpConnectionPool :=
    { s with objects := s.objects.modify ptr fun c => { c with request := c.request + 1 } }
  have htime : (t.connection ptr).createTime = 0 := Unstamped.createTime (s := t) (h.modify ptr) ptr
  simp only [test]
  split
  case isTrue htest =>
    rw [calls_goto (s := t) hcall]
    simp only [Bool.or_eq_true, decide_eq_true_eq, hrequest] at htest
    refine iff_of_false (by simp) ?_
    rintro ⟨hconnected, hnow, hless⟩
    rcases htest with (htest | htest) | htest
    · rw [hconnected] at htest
      cases htest
    · have : (t.connection ptr).createTime + s.maxAliveTime ≥ now := htest
      omega
    · omega
  case isFalse htest =>
    rw [calls_goto (s := t) hcall]
    simp only [Bool.or_eq_true, decide_eq_true_eq, not_or, hrequest] at htest
    obtain ⟨⟨hconnected, hnow⟩, hless⟩ := htest
    have hlate : ¬ (t.connection ptr).createTime + s.maxAliveTime ≥ now := hnow
    refine iff_of_true rfl ⟨by simpa using hconnected, ?_, ?_⟩
    · omega
    · omega

namespace Aged

variable {s s' : Aged} {e : Event}

theorem step_pool (hstep : s.Step e s') : s.pool.Step e.1 s'.pool := by
  obtain ⟨-, hstep⟩ := Option.ite_none_right_eq_some.mp hstep
  obtain ⟨pool, hpool, rfl⟩ := Option.map_eq_some_iff.mp hstep
  exact hpool

theorem run_pool {maxSize maxAliveTime maxRequest clock : Nat} {es : List Event}
    (run : Run Step (init maxSize maxAliveTime maxRequest clock) es s) :
    Run HttpConnectionPool.Step (HttpConnectionPool.init maxSize maxAliveTime maxRequest)
      (es.map Prod.fst) s.pool := by
  refine run.history (I := fun es s => Run HttpConnectionPool.Step
    (HttpConnectionPool.init maxSize maxAliveTime maxRequest) (es.map Prod.fst) s.pool) .start ?_
  intro es s e s' run hstep
  rw [List.map_append]
  exact run.snoc (step_pool hstep)

structure Known (s : Aged) : Prop where
  unstamped : Unstamped s.pool
  sound : 1 ≤ s.pool.maxRequest → Sound s.pool

theorem run_known {maxSize maxAliveTime maxRequest clock : Nat} {es : List Event}
    (run : Run Step (init maxSize maxAliveTime maxRequest clock) es s) : Known s := by
  constructor
  · refine run.invariant (I := fun s => Unstamped s.pool)
      (fun _ hc => absurd hc List.not_mem_nil) ?_
    intro s e s' h hstep
    exact h.step (step_pool hstep)
  · intro hmax
    have hlimit : s.pool.maxRequest = maxRequest :=
      (run_pool run).invariant (I := fun s => s.maxRequest = maxRequest) rfl
        fun _ _ _ h hstep => (limits_step hstep).1.trans h
    rw [hlimit] at hmax
    exact (run_sound hmax (run_pool run)).1

theorem respects_pop_iff {i time now : Nat} {connected : Nat → Bool}
    (hcall : s.pool.calls[i]? = some (.entered now)) (hpool : s'.pool = s.pool.pop i connected now) :
    s.Respects (.pop i connected, time) s' ↔
      (∀ ptr ∈ (s.pool.popIdle connected now s.pool.conns).2.1,
        now ≤ s.born ptr + s.pool.maxAliveTime) ∧
      ∀ ptr ∈ (s.pool.popIdle connected now s.pool.conns).1, connected ptr = true →
        (s.pool.connection ptr).request < s.pool.maxRequest →
        s.born ptr + s.pool.maxAliveTime ≤ now := by
  simp only [Respects, hpool, calls_pop hcall, hcall, Option.some_inj, Call.entered.injEq,
    Call.removing.injEq, and_imp]
  constructor
  · intro h
    exact h now _ _ _ rfl rfl rfl rfl
  · rintro h _ _ _ _ rfl rfl rfl rfl
    exact h

theorem Known.respects_pop (h : Known s) {i time now : Nat} {connected : Nat → Bool}
    (hcall : s.pool.calls[i]? = some (.entered now)) (hpool : s'.pool = s.pool.pop i connected now) :
    s.Respects (.pop i connected, time) s' ↔ s.Timely (.pop i connected, time) := by
  rw [respects_pop_iff hcall hpool]
  simp only [Timely, hcall, Option.some_inj, Call.entered.injEq, forall_eq']
  rcases Nat.lt_or_ge now s.pool.maxAliveTime with hearly | hlate
  · -- everything in the list is thrown away, and everything is too young for that
    rw [h.unstamped.popIdle_early hearly]
    constructor
    · rintro ⟨-, hinvalid⟩
      refine ⟨fun hlate => absurd hearly (Nat.not_lt.mpr hlate), fun _ ptr hptr hup => ?_⟩
      by_contra hless
      have := hinvalid ptr hptr hup (Nat.lt_of_not_le hless)
      omega
    · rintro ⟨-, hnone⟩
      refine ⟨nofun, fun ptr hptr hup hless => ?_⟩
      exact absurd hless (Nat.not_lt.mpr (hnone hearly ptr hptr hup))
  · obtain ⟨hinvalid, htaken⟩ := h.unstamped.popIdle_late hlate connected s.pool.conns
    rw [hinvalid, htaken]
    constructor
    · rintro ⟨htime, -⟩
      exact ⟨fun _ => htime, fun hearly => absurd hearly (Nat.not_lt.mpr hlate)⟩
    · rintro ⟨htime, -⟩
      refine ⟨htime hlate, fun ptr hptr hup => ?_⟩
      have hdown := List.mem_takeWhile_imp hptr
      rw [hup] at hdown
      cases hdown

theorem Known.respects_test (h : Known s) {i time now ptr : Nat} {connected : Bool}
    (hcall : s.pool.calls[i]? = some (.releasing ptr))
    (hpool : s'.pool = s.pool.test i ptr connected now) :
    s.Respects (.test i connected now, time) s' ↔ s.Timely (.test i connected now, time) := by
  simp only [Respects, Timely, hpool, hcall, Option.some_inj, Call.releasing.injEq, forall_eq']
  rcases Nat.eq_zero_or_pos s.pool.maxRequest with hzero | hpos
  · simp [hzero]
  · have hptr := (h.sound hpos).lt_of_releasing hcall
    rw [request_test hptr, h.unstamped.calls_test hptr hcall]
    constructor
    · intro hkept hup hless hyoung
      exact (hkept hup hless hyoung).2.1
    · intro hlate hup hless hyoung
      exact ⟨hup, hlate hup hless hyoung, hless⟩

theorem Known.respects_iff (h : Known s) (hstep : s.Step e s') : s.Respects e s' ↔ s.Timely e := by
  obtain ⟨act, time⟩ := e
  have hpool := step_pool hstep
  generalize hs' : s'.pool = pool' at hpool
  cases step_effect hpool with
  | pop connected call => exact h.respects_pop call hs'
  | test connected now call => exact h.respects_test call hs'
  | _ => exact Iff.rfl

/-- `m_createTime` stays zero, so the tests compare the clock with the maximum alive time
itself: a connection is never too old, and all are too young until the clock has passed it. -/
theorem run_ages_respected {maxSize maxAliveTime maxRequest clock : Nat} {es : List Event}
    (run : Run Step (init maxSize maxAliveTime maxRequest clock) es s) :
    (∀ upto e t t', upto ++ [e] <+: es →
      Run Step (init maxSize maxAliveTime maxRequest clock) upto t → t.Step e t' →
      t.Respects e t') ↔
    Run (fun s e s' => s.Timely e ∧ s.Step e s') (init maxSize maxAliveTime maxRequest clock)
      es s := by
  constructor
  · intro hrespects
    refine run.guarded fun upto e t t' hupto run hstep => ?_
    exact ((run_known run).respects_iff hstep).mp (hrespects upto e t t' hupto run hstep)
  · intro htimely upto e t t' hupto run hstep
    have det : ∀ (s : Aged) e t t', s.Step e t → s.Step e t' → t = t' :=
      fun s e t t' h h' => Option.some.inj (h.symm.trans h')
    exact ((run_known run).respects_iff hstep).mpr (htimely.guard_of_upto det hupto run)

def madeAndReleased : List Event :=
  [(.getConnection 20, 20), (.pop 0 fun _ => true, 20), (.count 0, 20), (.connect 0 true, 20),
    (.count 0, 20), (.hand 0, 20), (.drop 0, 22), (.test 1 true 22, 22), (.push 1, 22)]

/-- It is handed out again at 25. -/
theorem run_ages_respected_reused :
    ∃ s, Run Step (init 1 10 3 20)
        (madeAndReleased ++ [(.getConnection 25, 25), (.pop 2 fun _ => true, 25)]) s ∧
      s.pool.calls[2]? = some (.removing (some 0) [] 0) ∧
      ∀ upto e t t',
        upto ++ [e] <+: madeAndReleased ++ [(.getConnection 25, 25), (.pop 2 fun _ => true, 25)] →
        Run Step (init 1 10 3 20) upto t → t.Step e t' → t.Respects e t' := by
  have htimely : ∃ s, Run (fun s e s' => s.Timely e ∧ s.Step e s') (init 1 10 3 20)
        (madeAndReleased ++ [(.getConnection 25, 25), (.pop 2 fun _ => true, 25)]) s ∧
      s.pool.calls[2]? = some (.removing (some 0) [] 0) := by
    refine ⟨_, .cons ⟨trivial, rfl⟩ (.cons ⟨?_, rfl⟩ (.cons ⟨trivial, rfl⟩ (.cons ⟨trivial, rfl⟩
      (.cons ⟨trivial, rfl⟩ (.cons ⟨trivial, rfl⟩ (.cons ⟨trivial, rfl⟩ (.cons ⟨?_, rfl⟩
      (.cons ⟨trivial, rfl⟩ (.cons ⟨trivial, rfl⟩ (.cons ⟨?_, rfl⟩ .start)))))))))), ?_⟩
    · intro now hnow
      cases hnow
      exact ⟨by decide, by decide⟩
    · intro ptr hptr
      cases hptr
      decide
    · intro now hnow
      cases hnow
      exact ⟨by decide, by decide⟩
    · decide
  obtain ⟨s, htimely, hcall⟩ := htimely
  exact ⟨s, htimely.unguarded, hcall, (run_ages_respected htimely.unguarded).mpr htimely⟩

/-- It is still handed out at 100, with a maximum of 10. -/
theorem old_connection_handed_out :
    ∃ t t', Run Step (init 1 10 3 20) (madeAndReleased ++ [(.getConnection 100, 100)]) t ∧
      t.Step (.pop 2 fun _ => true, 100) t' ∧ ¬ t.Respects (.pop 2 fun _ => true, 100) t' := by
  have hexec : ((runAll exec (init 1 10 3 20) (madeAndReleased ++ [(.getConnection 100, 100)])).bind
      fun t => (t.exec (.pop 2 fun _ => true, 100)).map fun t' =>
        (t.born 0, t.pool.maxAliveTime, t.pool.calls[2]?, t'.pool.calls[2]?)) =
      some (20, 10, some (.entered 100), some (.removing (some 0) [] 0)) := by
    decide
  obtain ⟨t, ht, hpop⟩ := Option.bind_eq_some_iff.mp hexec
  obtain ⟨t', ht', hfacts⟩ := Option.map_eq_some_iff.mp hpop
  obtain ⟨hborn, hmax, hcall, hcall'⟩ : t.born 0 = 20 ∧ t.pool.maxAliveTime = 10 ∧
      t.pool.calls[2]? = some (.entered 100) ∧ t'.pool.calls[2]? = some (.removing (some 0) [] 0) := by
    simpa using hfacts
  refine ⟨t, t', Run.of_runAll ht, ht', fun hrespects => ?_⟩
  have hage := (hrespects 100 _ _ _ hcall hcall').1 0 rfl
  rw [hborn, hmax] at hage
  exact absurd hage (by decide)

end Aged

end Sylar.Http.HttpConnectionPool
