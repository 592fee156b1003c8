import Sylar.Scheduler.Fibers

/-! The two flags of `Start()` and `Stop()` and the answer of `stopping()`, on which the
idle workers leave. A worker that comes back from a fiber counts itself out first and
puts a fiber that yielded in state `READY` back into the queue after that. -/
namespace Sylar.Scheduler

open Lib

structure Stoppable (Cb : Type) where
  scheduler : Scheduler Cb
  autoStop : Bool
  mStopping : Bool

namespace Stoppable

variable {Cb : Type} {s s' : Stoppable Cb}

def init (tids : List Int) : Stoppable Cb :=
  { scheduler := .init tids, autoStop := false, mStopping := true }

/-- `start` is the change that `Start()` makes, `setAutoStop` and `setStopping` are those
of `Stop()`. -/
inductive Act (Cb : Type) where
  | act (a : Scheduler.Act Cb)
  | start
  | setAutoStop
  | setStopping

def exec (s : Stoppable Cb) : Act Cb → Except Stop (Stoppable Cb)
  | .act a => do
    let scheduler ← s.scheduler.exec a
    return { s with scheduler }
  | .start => .ok { s with mStopping := false }
  | .setAutoStop => .ok { s with autoStop := true }
  | .setStopping => .ok { s with mStopping := true }

def Step (s : Stoppable Cb) (act : Act Cb) (s' : Stoppable Cb) : Prop := s.exec act = .ok s'

def stopping (s : Stoppable Cb) : Bool :=
  s.autoStop && s.mStopping && s.scheduler.fibers.isEmpty && s.scheduler.activeThreadCount == 0

def NoneYielded (s : Scheduler Cb) : Prop :=
  ∀ (i : Nat) w f byCb, s.workers[i]? = some w → w.pc = .returned f byCb →
    s.fiberState f ≠ .READY

structure NoWork (s : Scheduler Cb) : Prop where
  queue : s.fibers = []
  hands : ∀ (i : Nat) w, s.workers[i]? = some w → w.hand = none
  yielded : NoneYielded s

/-- Both flags are set, the queue is empty and `n` workers have tasks. -/
structure LastTasks (s : Stoppable Cb) (n : Nat) : Prop where
  autoStop : s.autoStop = true
  mStopping : s.mStopping = true
  queue : s.scheduler.fibers = []
  active : s.scheduler.activeThreadCount = n

/-- When the last task ends after `Stop()`, and when `Stop()` finds no tasks, no fiber is
on its way back to the queue. -/
def Drains (s : Stoppable Cb) : Act Cb → Prop
  | .act (.worker i .endTask) => s.LastTasks 1 → NoneYielded s.scheduler ∧
      ∀ w e f byCb, s.scheduler.workers[i]? = some w → w.pc = .swapped e f byCb →
        s.scheduler.fiberState f ≠ .READY
  | .act (.setState f .READY) => s.LastTasks 0 →
      ∀ (i : Nat) w byCb, s.scheduler.workers[i]? = some w → w.pc ≠ .returned f byCb
  | .setAutoStop => { s with autoStop := true }.LastTasks 0 → NoneYielded s.scheduler
  | .setStopping => { s with mStopping := true }.LastTasks 0 → NoneYielded s.scheduler
  | _ => True

@[simp] theorem stopping_iff : s.stopping = true ↔ s.LastTasks 0 := by
  simp only [stopping, Bool.and_eq_true, List.isEmpty_iff, beq_iff_eq]
  exact ⟨fun ⟨⟨⟨h₁, h₂⟩, h₃⟩, h₄⟩ => ⟨h₁, h₂, h₃, h₄⟩, fun ⟨h₁, h₂, h₃, h₄⟩ => ⟨⟨⟨h₁, h₂⟩, h₃⟩, h₄⟩⟩

theorem NoneYielded.congr {s s' : Scheduler Cb} (h : NoneYielded s)
    (hworkers : s'.workers = s.workers) (hstate : s'.fiberState = s.fiberState) :
    NoneYielded s' := by
  intro i w f byCb hw hpc
  rw [hworkers] at hw
  rw [hstate]
  exact h i w f byCb hw hpc

theorem active_pos {s : Scheduler Cb} (hbal : s.ledger.Balanced) {i : Nat} {w : Worker Cb}
    {e : Entry Cb} (hw : s.workers[i]? = some w) (hhand : w.hand = some e) :
    0 < s.activeThreadCount := by
  rw [show s.activeThreadCount = s.hands.length from hbal.active]
  exact List.length_pos_of_mem (List.mem_filterMap.mpr ⟨w, List.mem_of_getElem? hw, hhand⟩)

theorem hands_of_last (hbal : s.scheduler.ledger.Balanced) (hlast : s.LastTasks 0) (i : Nat)
    (w : Worker Cb) (hw : s.scheduler.workers[i]? = some w) : w.hand = none := by
  cases hhand : w.hand with
  | none => rfl
  | some e => exact absurd hlast.active (active_pos hbal hw hhand).ne'

theorem step_endTask {s s' : Scheduler Cb} {i : Nat} (hstep : s.Step (.worker i .endTask) s') :
    ∃ w e f byCb, s.workers[i]? = some w ∧ w.pc = .swapped e f byCb ∧
      s' = s.endTask i w e f byCb := by
  simp only [Scheduler.Step, Scheduler.exec] at hstep
  split at hstep
  · rename_i w hw
    cases hpc : w.pc with
    | swapped e f byCb =>
      simp only [move, hpc, Except.ok.injEq] at hstep
      exact ⟨w, e, f, byCb, hw, hpc, hstep.symm⟩
    | _ =>
      simp only [move, hpc] at hstep
      cases hstep
  · cases hstep

theorem drains_act (hbal : s.scheduler.ledger.Balanced)
    (h : s.LastTasks 0 → NoneYielded s.scheduler) {a : Scheduler.Act Cb}
    (hdrains : s.Drains (.act a)) {scheduler : Scheduler Cb} (hstep : s.scheduler.Step a scheduler)
    (hlast : { s with scheduler }.LastTasks 0) : NoneYielded scheduler := by
  obtain ⟨hauto, hstop, hqueue, hactive⟩ := hlast
  cases a with
  | schedule fc thread =>
    cases hstep
    have hnil : s.scheduler.fibers = [] :=
      List.prefix_nil.mp (hqueue ▸ fibers_schedule_grows s.scheduler fc thread)
    rw [activeThreadCount_schedule] at hactive
    exact (h ⟨hauto, hstop, hnil, hactive⟩).congr (workers_schedule ..) (fiberState_schedule ..)
  | scheduleAll fcs =>
    cases hstep
    have hnil : s.scheduler.fibers = [] :=
      List.prefix_nil.mp (hqueue ▸ fibers_scheduleAll_grows s.scheduler fcs)
    rw [activeThreadCount_scheduleAll] at hactive
    exact (h ⟨hauto, hstop, hnil, hactive⟩).congr (workers_scheduleAll ..)
      (fiberState_scheduleAll ..)
  | setState f st =>
    cases hstep
    intro i w f' byCb hw hpc
    by_cases hf : f' = f
    · subst hf
      rw [show (s.scheduler.setState f' st).fiberState f' = st from Function.update_self ..]
      rintro rfl
      exact hdrains ⟨hauto, hstop, hqueue, hactive⟩ i w byCb hw hpc
    · rw [show (s.scheduler.setState f st).fiberState f' = s.scheduler.fiberState f' from
        Function.update_of_ne hf ..]
      exact h ⟨hauto, hstop, hqueue, hactive⟩ i w f' byCb hw hpc
  | worker k mv =>
    by_cases hmv : mv = .endTask
    · -- the worker is the last one with a task
      subst hmv
      obtain ⟨w₀, e, f, byCb, hw₀, hpc₀, rfl⟩ := step_endTask hstep
      have hpos := active_pos hbal hw₀ (e := e) (by simp [Worker.hand, hpc₀])
      have hone : s.scheduler.activeThreadCount = 1 := by
        have : s.scheduler.activeThreadCount - 1 = 0 := hactive
        omega
      obtain ⟨hnone, hown⟩ := hdrains ⟨hauto, hstop, hqueue, hone⟩
      intro i w f' byCb' hw hpc
      rcases get_set_worker hw with ⟨rfl, rfl⟩ | ⟨-, hw⟩
      · cases hpc
        exact hown w₀ e f byCb hw₀ hpc₀
      · exact hnone i w f' byCb' hw hpc
    · obtain ⟨w₀, w₁, hw₀, -, hworkers, hmoved⟩ := step_worker hbal hstep
      obtain ⟨hnil, hzero⟩ := hmoved.drained hmv hqueue hactive
      have hnone := h ⟨hauto, hstop, hnil, hzero⟩
      intro i w f byCb hw hpc hready
      rw [hworkers] at hw
      rcases get_set_worker hw with ⟨rfl, rfl⟩ | ⟨-, hw⟩
      · exact hmv (hmoved.returned f byCb hpc).1
      · rcases hmoved.states f with hsame | hnew | hnew | hnew
        · exact hnone i w f byCb hw hpc (hsame.symm.trans hready)
        all_goals
          rw [hnew] at hready
          cases hready

theorem drains_step (hbal : s.scheduler.ledger.Balanced)
    (h : s.LastTasks 0 → NoneYielded s.scheduler) {act : Act Cb} (hdrains : s.Drains act)
    (hstep : s.Step act s') :
    s'.scheduler.ledger.Balanced ∧ (s'.LastTasks 0 → NoneYielded s'.scheduler) := by
  cases act with
  | act a =>
    obtain ⟨scheduler, hexec, hstep⟩ := bind_eq_ok.mp hstep
    cases hstep
    exact ⟨balanced_step hbal hexec, drains_act hbal h hdrains hexec⟩
  | start =>
    cases hstep
    exact ⟨hbal, fun hlast => absurd hlast.mStopping Bool.false_ne_true⟩
  | setAutoStop =>
    cases hstep
    exact ⟨hbal, hdrains⟩
  | setStopping =>
    cases hstep
    exact ⟨hbal, hdrains⟩

/-- The condition is no stronger than what it is for. -/
theorem drains_of_noneYielded {act : Act Cb} (hstep : s.Step act s')
    (h : s'.LastTasks 0 → NoneYielded s'.scheduler) : s.Drains act := by
  cases act with
  | start => trivial
  | setAutoStop =>
    cases hstep
    exact h
  | setStopping =>
    cases hstep
    exact h
  | act a =>
    obtain ⟨scheduler, hexec, hstep⟩ := bind_eq_ok.mp hstep
    cases hstep
    cases a with
    | schedule fc thread => trivial
    | scheduleAll fcs => trivial
    | setState f st =>
      cases st with
      | READY =>
        intro hlast i w byCb hw hpc
        cases hexec
        exact h ⟨hlast.autoStop, hlast.mStopping, hlast.queue, hlast.active⟩ i w f byCb hw hpc
          (Function.update_self ..)
      | _ => trivial
    | worker i mv =>
      cases mv with
      | endTask =>
        intro hlast
        obtain ⟨w₀, e, f, byCb, hw₀, hpc₀, rfl⟩ := step_endTask hexec
        have hnone := h ⟨hlast.autoStop, hlast.mStopping, hlast.queue,
          show s.scheduler.activeThreadCount - 1 = 0 by rw [hlast.active]⟩
        have hlt := (List.getElem?_eq_some_iff.mp hw₀).1
        constructor
        · intro j w f' byCb' hw hpc
          have hji : j ≠ i := by
            rintro rfl
            rw [hw₀] at hw
            cases hw
            rw [hpc₀] at hpc
            cases hpc
          exact hnone j w f' byCb' ((List.getElem?_set_ne (Ne.symm hji)).trans hw) hpc
        · intro w e' f' byCb' hw hpc
          rw [hw₀] at hw
          cases hw
          rw [hpc₀] at hpc
          cases hpc
          exact hnone i _ f byCb (List.getElem?_set_self hlt) rfl
      | _ => trivial

theorem run_step_balanced {tids : List Int} {acts : List (Act Cb)}
    (run : Run Step (init tids) acts s) : s.scheduler.ledger.Balanced := by
  refine run.invariant (I := fun s => s.scheduler.ledger.Balanced) (balanced_init tids) ?_
  intro s act s' hbal hstep
  cases act with
  | act a =>
    obtain ⟨scheduler, hexec, hstep⟩ := bind_eq_ok.mp hstep
    cases hstep
    exact balanced_step hbal hexec
  | _ =>
    cases hstep
    exact hbal

/-- When `stopping()` answers yes the queue is empty and no worker has a task; and no
fiber is on its way back to the queue exactly in the runs in which none is when the last
task ends after `Stop()`, or when `Stop()` finds no tasks. -/
theorem run_stopping_noWork {tids : List Int} {acts : List (Act Cb)}
    (run : Run Step (init tids) acts s) :
    (s.stopping = true → s.scheduler.fibers = [] ∧
      ∀ (i : Nat) w, s.scheduler.workers[i]? = some w → w.hand = none) ∧
    ((∀ upto s₁, upto <+: acts → Run Step (init tids) upto s₁ → s₁.stopping = true →
      NoWork s₁.scheduler) ↔
    Run (fun s act s' => s.Drains act ∧ s.Step act s') (init tids) acts s) := by
  refine ⟨fun hstopping => ?_, ?_, ?_⟩
  · have hlast := stopping_iff.mp hstopping
    exact ⟨hlast.queue, hands_of_last (run_step_balanced run) hlast⟩
  · intro hnoWork
    refine run.guarded fun upto act t t' hupto run hstep =>
      drains_of_noneYielded hstep fun hlast => ?_
    exact (hnoWork _ t' hupto (run.snoc hstep) (stopping_iff.mpr hlast)).yielded
  · rintro hdrains upto s₁ ⟨after, rfl⟩ run₁ hstopping
    have det : ∀ (s : Stoppable Cb) act t t', s.Step act t → s.Step act t' → t = t' :=
      fun s act t t' h h' => Except.ok.inj (h.symm.trans h')
    obtain ⟨hdrains₁, -⟩ := hdrains.guarded_upto det run₁
    have hinv : s₁.scheduler.ledger.Balanced ∧ (s₁.LastTasks 0 → NoneYielded s₁.scheduler) := by
      refine hdrains₁.invariant (I := fun s => s.scheduler.ledger.Balanced ∧
        (s.LastTasks 0 → NoneYielded s.scheduler)) ⟨balanced_init tids, ?_⟩
        fun _ _ _ h hstep => drains_step h.1 h.2 hstep.1 hstep.2
      exact fun hlast => absurd hlast.autoStop Bool.false_ne_true
    have hlast := stopping_iff.mp hstopping
    exact ⟨hlast.queue, hands_of_last hinv.1 hlast, hinv.2 hlast⟩

/-- A fiber yields before `Stop()` and ends after it. -/
theorem run_stopping_noWork_ended :
    ∃ s, Run Step (init [11] : Stoppable Nat)
      [.start, .act (.schedule (.fiber (some 7)) (-1)), .act (.worker 0 .pick),
        .act (.worker 0 (.startTask 0)), .act (.setState 7 .READY), .act (.worker 0 .endTask),
        .act (.worker 0 .requeue), .setAutoStop, .setStopping, .act (.worker 0 .pick),
        .act (.worker 0 (.startTask 0)), .act (.setState 7 .TERM), .act (.worker 0 .endTask)] s ∧
      s.stopping = true ∧ NoWork s.scheduler := by
  obtain ⟨s, run, hdrains, hstopping⟩ : ∃ s, Run Step (init [11] : Stoppable Nat)
      [.start, .act (.schedule (.fiber (some 7)) (-1)), .act (.worker 0 .pick),
        .act (.worker 0 (.startTask 0)), .act (.setState 7 .READY), .act (.worker 0 .endTask),
        .act (.worker 0 .requeue), .setAutoStop, .setStopping, .act (.worker 0 .pick),
        .act (.worker 0 (.startTask 0)), .act (.setState 7 .TERM), .act (.worker 0 .endTask)] s ∧
      Run (fun s act s' => s.Drains act ∧ s.Step act s') (init [11] : Stoppable Nat)
      [.start, .act (.schedule (.fiber (some 7)) (-1)), .act (.worker 0 .pick),
        .act (.worker 0 (.startTask 0)), .act (.setState 7 .READY), .act (.worker 0 .endTask),
        .act (.worker 0 .requeue), .setAutoStop, .setStopping, .act (.worker 0 .pick),
        .act (.worker 0 (.startTask 0)), .act (.setState 7 .TERM), .act (.worker 0 .endTask)] s ∧
      s.stopping = true := by
    refine ⟨_, .cons rfl (.cons rfl (.cons rfl (.cons rfl (.cons rfl (.cons rfl (.cons rfl (.cons rfl
      (.cons rfl (.cons rfl (.cons rfl (.cons rfl (.cons rfl .start)))))))))))),
      .cons ⟨trivial, rfl⟩ (.cons ⟨trivial, rfl⟩ (.cons ⟨trivial, rfl⟩ (.cons ⟨trivial, rfl⟩
      (.cons ⟨fun h => absurd h.autoStop Bool.false_ne_true, rfl⟩
      (.cons ⟨fun h => absurd h.autoStop Bool.false_ne_true, rfl⟩ (.cons ⟨trivial, rfl⟩
      (.cons ⟨fun h => absurd h.mStopping Bool.false_ne_true, rfl⟩ (.cons ⟨?_, rfl⟩
      (.cons ⟨trivial, rfl⟩ (.cons ⟨trivial, rfl⟩ (.cons ⟨trivial, rfl⟩ (.cons ⟨?_, rfl⟩
      .start)))))))))))), rfl⟩
    · rintro ⟨-, -, ⟨⟩, -⟩
    · refine fun _ => ⟨?_, ?_⟩
      · rintro (_ | i) w f byCb ⟨⟩ ⟨⟩
      · rintro w e f byCb ⟨⟩ ⟨⟩
        intro hready
        cases hready
  exact ⟨s, run, hstopping, ((run_stopping_noWork run).2.mpr hdrains) _ s List.prefix_rfl run
    hstopping⟩

/-- A fiber yields after `Stop()`; before it is back in the queue `stopping()` says yes. -/
theorem yielded_fiber_not_seen :
    ∃ s : Stoppable Nat, Run Step (init [11])
      [.start, .act (.schedule (.fiber (some 7)) (-1)), .act (.worker 0 .pick),
        .act (.worker 0 (.startTask 0)), .setAutoStop, .setStopping, .act (.setState 7 .READY),
        .act (.worker 0 .endTask)] s ∧
      s.stopping = true ∧ s.scheduler.fiberState 7 = .READY ∧
      ∃ w, s.scheduler.workers[0]? = some w ∧ w.pc = .returned 7 false :=
  ⟨_, .cons rfl (.cons rfl (.cons rfl (.cons rfl (.cons rfl (.cons rfl (.cons rfl
    (.cons rfl .start))))))), rfl, rfl, _, rfl, rfl⟩

end Stoppable

end Sylar.Scheduler
