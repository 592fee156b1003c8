import Sylar.Lib.Run
import Sylar.Lib.Slots
import Sylar.Scheduler.Basic

/-! Where the scheduled tasks are. A ledger keeps what matters for that: the
tasks in the queue, those in the workers' hands, the numbers of the finished
ones, and the counter of active workers. Every step of the scheduler queues
tasks, takes one into a hand, finishes one, or leaves the ledger as it is. -/
namespace Sylar.Scheduler

open Lib

variable {Cb : Type} {s s' : Scheduler Cb}

structure Ledger (Cb : Type) where
  queue : List (Entry Cb)
  hands : List (Entry Cb)
  finished : List Nat
  log : List (FiberAndThread Cb)
  active : Nat

/-- Every number given out is in exactly one place, and names its task. -/
structure Ledger.Balanced (l : Ledger Cb) : Prop where
  serials : ((l.queue ++ l.hands).map Entry.serial ++ l.finished).Perm (List.range l.log.length)
  named : ∀ e ∈ l.queue ++ l.hands, l.log[e.serial]? = some e.ft
  present : ∀ ft ∈ l.log, ft.present = true
  active : l.active = l.hands.length

namespace Ledger

variable {l : Ledger Cb}

theorem Balanced.push (h : l.Balanced) {ft : FiberAndThread Cb} (hft : ft.present = true) :
    Balanced { l with queue := l.queue ++ [{ serial := l.log.length, ft }], log := l.log ++ [ft] } := by
  constructor
  · have hperm := h.serials.append_right [l.log.length]
    simp only [List.length_append, List.length_singleton, List.range_succ]
    refine List.Perm.trans ?_ hperm
    simp only [List.map_append, List.map_cons, List.map_nil, List.append_assoc]
    apply List.Perm.append_left
    rw [← List.append_assoc (l.hands.map Entry.serial)]
    exact List.perm_append_comm
  · intro e he
    simp only [List.mem_append, List.mem_singleton] at he
    rcases he with (he | rfl) | he
    · have hold := h.named e (by simp [he])
      rw [List.getElem?_append_left (List.getElem?_eq_some_iff.mp hold).1]
      exact hold
    · simp
    · have hold := h.named e (by simp [he])
      rw [List.getElem?_append_left (List.getElem?_eq_some_iff.mp hold).1]
      exact hold
  · intro x hx
    rcases List.mem_append.mp hx with hx | hx
    · exact h.present x hx
    · rw [List.mem_singleton.mp hx]
      exact hft
  · exact h.active

theorem Balanced.hands_perm (h : l.Balanced) {hands : List (Entry Cb)}
    (hperm : hands.Perm l.hands) : Balanced { l with hands } := by
  constructor
  · refine List.Perm.trans ?_ h.serials
    apply List.Perm.append_right
    exact (hperm.append_left l.queue).map Entry.serial
  · intro e he
    exact h.named e ((hperm.append_left l.queue).mem_iff.mp he)
  · exact h.present
  · exact h.active.trans hperm.length_eq.symm

theorem Balanced.take (h : l.Balanced) {before after : List (Entry Cb)} {e : Entry Cb}
    (hqueue : l.queue = before ++ e :: after) {hands : List (Entry Cb)}
    (hhands : hands.Perm (l.hands ++ [e])) :
    Balanced { l with queue := before ++ after, hands, active := l.active + 1 } := by
  have hall : ((before ++ after) ++ hands).Perm (l.queue ++ l.hands) := by
    rw [hqueue, ← Multiset.coe_eq_coe]
    have hcoe := Multiset.coe_eq_coe.mpr hhands
    simp only [← Multiset.coe_add, hcoe, ← Multiset.cons_coe, ← Multiset.singleton_add]
    abel
  constructor
  · exact ((hall.map _).append_right _).trans h.serials
  · intro x hx
    exact h.named x (hall.mem_iff.mp hx)
  · exact h.present
  · rw [hhands.length_eq, h.active]
    simp

theorem Balanced.finish (h : l.Balanced) {e : Entry Cb} {hands : List (Entry Cb)}
    (hhands : (hands ++ [e]).Perm l.hands) :
    Balanced { l with hands, finished := l.finished ++ [e.serial], active := l.active - 1 } := by
  constructor
  · refine List.Perm.trans ?_ h.serials
    have hcoe := Multiset.coe_eq_coe.mpr (hhands.map Entry.serial)
    rw [← Multiset.coe_eq_coe]
    simp only [List.map_append, ← Multiset.coe_add] at hcoe ⊢
    rw [← hcoe]
    simp only [List.map_cons, List.map_nil]
    abel
  · intro x hx
    apply h.named x
    simp only [List.mem_append] at hx ⊢
    refine hx.imp_right fun hx => ?_
    exact hhands.mem_iff.mp (by simp [hx])
  · exact h.present
  · have hlen := hhands.length_eq
    simp only [List.length_append, List.length_singleton] at hlen
    simp only [h.active]
    omega

end Ledger

def hands (s : Scheduler Cb) : List (Entry Cb) := s.workers.filterMap Worker.hand

def ledger (s : Scheduler Cb) : Ledger Cb :=
  { queue := s.fibers, hands := s.hands, finished := s.finished, log := s.log,
    active := s.activeThreadCount }

theorem balanced_init (tids : List Int) : (init tids : Scheduler Cb).ledger.Balanced := by
  have hhands : (init tids : Scheduler Cb).hands = [] := by
    simp only [hands, init, List.filterMap_map, List.filterMap_eq_nil_iff]
    intro tid _
    rfl
  simp only [ledger, hhands]
  constructor <;> simp [init]

section Worker

variable {i : Nat} {w w' : Worker Cb} {e : Entry Cb}

theorem hands_setWorker (hw : s.workers[i]? = some w) (w' : Worker Cb) :
    ((s.setWorker i w').hands ++ w.hand.toList).Perm (s.hands ++ w'.hand.toList) :=
  Slots.filterMap_set_perm hw w' Worker.hand

theorem balanced_same_hand (h : s.ledger.Balanced) (hw : s.workers[i]? = some w)
    (hhand : w'.hand = w.hand) : (s.setWorker i w').ledger.Balanced := by
  apply h.hands_perm
  have hperm := hands_setWorker hw w'
  rw [hhand] at hperm
  exact (List.perm_append_right_iff _).mp hperm

theorem balanced_take (h : s.ledger.Balanced) (hw : s.workers[i]? = some w)
    {before after : List (Entry Cb)} (hqueue : s.fibers = before ++ e :: after)
    (hhand : w.hand = none) (hhand' : w'.hand = some e) :
    ({ s with fibers := before ++ after,
              activeThreadCount := s.activeThreadCount + 1 }.setWorker i w').ledger.Balanced := by
  have hperm : (s.setWorker i w').hands.Perm (s.hands ++ [e]) := by
    simpa [hhand, hhand'] using hands_setWorker hw w'
  exact h.take hqueue hperm

theorem balanced_finish (h : s.ledger.Balanced) (hw : s.workers[i]? = some w)
    (hhand : w.hand = some e) (hhand' : w'.hand = none) :
    ({ s with activeThreadCount := s.activeThreadCount - 1,
              finished := s.finished ++ [e.serial] }.setWorker i w').ledger.Balanced := by
  have hperm : ((s.setWorker i w').hands ++ [e]).Perm s.hands := by
    simpa [hhand, hhand'] using hands_setWorker hw w'
  exact h.finish hperm

end Worker

theorem balanced_schedule (h : s.ledger.Balanced) (fc : FiberOrCb Cb) (thread : Int) :
    (s.schedule fc thread).ledger.Balanced := by
  simp only [schedule, scheduleNoLock]
  split
  · exact h.push ‹_›
  · exact h

theorem balanced_scheduleAll (h : s.ledger.Balanced) (fcs : List (FiberOrCb Cb)) :
    (s.scheduleAll fcs).ledger.Balanced := by
  induction fcs generalizing s with
  | nil => exact h
  | cons fc fcs ih => exact ih (balanced_schedule h fc (-1))

@[simp] theorem log_schedule (s : Scheduler Cb) (fc : FiberOrCb Cb) (thread : Int) :
    (s.schedule fc thread).log = s.log ++ [FiberAndThread.make fc thread].filter (·.present) := by
  simp only [schedule, scheduleNoLock]
  split
  · simp [*]
  · simp [*]

theorem log_schedule_grows (s : Scheduler Cb) (fc : FiberOrCb Cb) (thread : Int) :
    s.log <+: (s.schedule fc thread).log := by
  rw [log_schedule]
  exact List.prefix_append _ _

theorem log_scheduleAll (s : Scheduler Cb) (fcs : List (FiberOrCb Cb)) :
    (s.scheduleAll fcs).log =
      s.log ++ (fcs.map (FiberAndThread.make · (-1))).filter (·.present) := by
  induction fcs generalizing s with
  | nil => simp [scheduleAll]
  | cons fc fcs ih =>
    rw [scheduleAll, ih, show (s.scheduleNoLock fc (-1)).2.log = (s.schedule fc (-1)).log from rfl,
      log_schedule, List.append_assoc, ← List.filter_append]
    rfl

@[simp] theorem workers_schedule (s : Scheduler Cb) (fc : FiberOrCb Cb) (thread : Int) :
    (s.schedule fc thread).workers = s.workers := by
  simp only [schedule, scheduleNoLock]
  split <;> rfl

/-- What the search looks for: a task for this thread or for any, whose fiber
is not running. -/
def Eligible (tid : Int) (state : Nat → FiberState) (e : Entry Cb) : Prop :=
  (e.ft.thread = -1 ∨ e.ft.thread = tid) ∧ ∀ f, e.ft.fiber = some f → state f ≠ .EXEC

/-- The first eligible task of the queue leaves it and the others keep their
order; without one the queue stays. -/
def PicksFirst (tid : Int) (state : Nat → FiberState) (queue : List (Entry Cb)) :
    Option (Entry Cb) → List (Entry Cb) → Prop
  | some e, rest => ∃ before after, queue = before ++ e :: after ∧ rest = before ++ after ∧
      Eligible tid state e ∧ ∀ x ∈ before, ¬ Eligible tid state x
  | none, rest => rest = queue ∧ ∀ x ∈ queue, ¬ Eligible tid state x

theorem PicksFirst.skip {tid : Int} {state : Nat → FiberState} {queue rest : List (Entry Cb)}
    {found : Option (Entry Cb)} (h : PicksFirst tid state queue found rest) {e : Entry Cb}
    (hnot : ¬ Eligible tid state e) : PicksFirst tid state (e :: queue) found (e :: rest) := by
  cases found with
  | some x =>
    obtain ⟨before, after, hqueue, hrest, helig, hbefore⟩ := h
    refine ⟨e :: before, after, by simp [hqueue], by simp [hrest], helig, ?_⟩
    intro y hy
    rcases List.mem_cons.mp hy with rfl | hy
    · exact hnot
    · exact hbefore y hy
  | none =>
    refine ⟨by rw [h.1], ?_⟩
    intro y hy
    rcases List.mem_cons.mp hy with rfl | hy
    · exact hnot
    · exact h.2 y hy

theorem pickLoop_picksFirst (tid : Int) (state : Nat → FiberState) {queue : List (Entry Cb)}
    (hpresent : ∀ e ∈ queue, e.ft.present = true) :
    ∃ found rest tickleMe, pickLoop tid state queue = .ok (found, rest, tickleMe) ∧
      PicksFirst tid state queue found rest := by
  induction queue with
  | nil => exact ⟨none, [], false, rfl, rfl, by simp⟩
  | cons e queue ih =>
    obtain ⟨found, rest, tickleMe, heq, hfound⟩ := ih fun x hx => hpresent x (by simp [hx])
    have hpres : ¬ e.ft.present = false := by simp [hpresent e (by simp)]
    simp only [pickLoop, heq, bind, Except.bind, if_neg hpres]
    by_cases hthread : e.ft.thread ≠ -1 ∧ e.ft.thread ≠ tid
    · refine ⟨found, e :: rest, true, if_pos hthread, hfound.skip ?_⟩
      rintro ⟨hmine, -⟩
      exact hmine.elim hthread.1 hthread.2
    rw [if_neg hthread]
    by_cases hexec : (e.ft.fiber.any fun f => state f = .EXEC) = true
    · refine ⟨found, e :: rest, tickleMe, if_pos hexec, hfound.skip ?_⟩
      rintro ⟨-, hidle⟩
      cases hfiber : e.ft.fiber with
      | none => simp [hfiber] at hexec
      | some f => exact hidle f hfiber (by simpa [hfiber] using hexec)
    · refine ⟨some e, queue, !queue.isEmpty, if_neg hexec, [], queue, rfl, rfl, ⟨?_, ?_⟩, by simp⟩
      · by_contra hother
        exact hthread (not_or.mp hother)
      · intro f hf hrun
        apply hexec
        simp [hf, hrun]

theorem balanced_present (h : s.ledger.Balanced) {e : Entry Cb} (he : e ∈ s.fibers ++ s.hands) :
    e.ft.present = true := by
  apply h.present
  exact List.mem_of_getElem? (h.named e he)

theorem swapIn_ok {f : Nat} (h : s.swapIn f = .ok s') : s' = s.setState f .EXEC := by
  simp only [swapIn] at h
  split at h
  · cases h
  · cases h
    rfl

theorem resetFiber_ok {f : Nat} (h : s.resetFiber f = .ok s') : s' = s.setState f .INIT := by
  simp only [resetFiber] at h
  split at h <;> cases h <;> rfl

theorem prepareCbFiber_ok {w : Worker Cb} {f : Nat} (h : s.prepareCbFiber w f = .ok s') :
    s' = s.setState f .INIT := by
  simp only [prepareCbFiber] at h
  split at h
  · exact resetFiber_ok h
  · cases h
    rfl

inductive Effect (s : Scheduler Cb) (i : Nat) (w : Worker Cb) : Scheduler Cb → Prop where
  | keep {w' : Worker Cb} (state : Nat → FiberState) (idle : Nat) (hand : w'.hand = w.hand) :
      Effect s i w ({ s with fiberState := state, idleThreadCount := idle }.setWorker i w')
  | take {w' : Worker Cb} {e : Entry Cb} {before after : List (Entry Cb)}
      (queue : s.fibers = before ++ e :: after) (hand : w.hand = none) (hand' : w'.hand = some e) :
      Effect s i w ({ s with fibers := before ++ after,
                             activeThreadCount := s.activeThreadCount + 1 }.setWorker i w')
  | finish {w' : Worker Cb} {e : Entry Cb} (hand : w.hand = some e) (hand' : w'.hand = none) :
      Effect s i w ({ s with activeThreadCount := s.activeThreadCount - 1,
                             finished := s.finished ++ [e.serial] }.setWorker i w')
  | requeue {w' : Worker Cb} (f : Nat) (hand : w.hand = none) (hand' : w'.hand = none) :
      Effect s i w ((s.schedule (.fiber (some f)) (-1)).setWorker i w')

section Moves

variable {i f : Nat} {w : Worker Cb} {e : Entry Cb} {byCb : Bool}

theorem pick_spec (hpresent : ∀ e ∈ s.fibers, e.ft.present = true) (i : Nat) (hpc : w.pc = .top) :
    ∃ found rest s', s.pick i w = .ok s' ∧ PicksFirst w.tid s.fiberState s.fibers found rest ∧
      s'.fibers = rest ∧ s'.workers = s.workers.set i { w with pc := found.elim .nothing .picked } ∧
      Effect s i w s' := by
  obtain ⟨found, rest, tickleMe, heq, hpicks⟩ := pickLoop_picksFirst w.tid s.fiberState hpresent
  have hhand : w.hand = none := by simp [Worker.hand, hpc]
  simp only [pick, heq, bind, Except.bind]
  cases found with
  | none =>
    obtain rfl := hpicks.1
    exact ⟨none, s.fibers, _, rfl, hpicks, rfl, rfl, .keep s.fiberState s.idleThreadCount hhand.symm⟩
  | some e =>
    have hsplit := hpicks
    obtain ⟨before, after, hqueue, rfl, -⟩ := hsplit
    exact ⟨some e, before ++ after, _, rfl, hpicks, rfl, rfl, .take hqueue hhand rfl⟩

theorem startTask_effect (hpc : w.pc = .picked e) {fresh : Nat}
    (heq : s.startTask i w e fresh = .ok s') : Effect s i w s' := by
  have hhand : w.hand = some e := by simp [Worker.hand, hpc]
  simp only [startTask] at heq
  split at heq
  · obtain ⟨n, hswap, hset⟩ := bind_eq_ok.mp heq
    obtain rfl := swapIn_ok hswap
    cases hset
    exact .keep _ s.idleThreadCount hhand.symm
  · obtain ⟨m, hfiber, hnext⟩ := bind_eq_ok.mp heq
    obtain ⟨n, hswap, hset⟩ := bind_eq_ok.mp hnext
    obtain rfl := prepareCbFiber_ok hfiber
    obtain rfl := swapIn_ok hswap
    cases hset
    exact .keep _ s.idleThreadCount hhand.symm
  · cases heq
    exact .finish hhand rfl

theorem requeue_effect (hpc : w.pc = .returned f byCb) : Effect s i w (s.requeue i w f byCb) := by
  have hhand : w.hand = none := by simp [Worker.hand, hpc]
  simp only [requeue]
  split
  · exact .requeue f hhand rfl
  · exact .keep s.fiberState s.idleThreadCount hhand.symm

theorem rest_effect (hpc : w.pc = .resting f byCb) (heq : s.rest i w f byCb = .ok s') :
    Effect s i w s' := by
  have hhand : w.hand = none := by simp [Worker.hand, hpc]
  have hreset : (do
      let s ← s.resetFiber f
      return s.setWorker i { w with pc := .top }) = Except.ok s' → Effect s i w s' := by
    intro heq
    obtain ⟨n, hfiber, hset⟩ := bind_eq_ok.mp heq
    obtain rfl := resetFiber_ok hfiber
    cases hset
    exact .keep _ s.idleThreadCount hhand.symm
  simp only [rest] at heq
  split at heq
  · cases heq
    exact .keep s.fiberState s.idleThreadCount hhand.symm
  · cases heq
    exact .keep s.fiberState s.idleThreadCount hhand.symm
  · cases heq
    exact .keep _ s.idleThreadCount hhand.symm
  · exact hreset heq
  · exact hreset heq
  · cases heq
    exact .keep _ s.idleThreadCount hhand.symm

theorem move_effect (hpresent : ∀ e ∈ s.fibers, e.ft.present = true) {mv : Move}
    (heq : s.move i w mv = .ok s') : Effect s i w s' := by
  simp only [move] at heq
  split at heq
  · obtain ⟨found, rest, n, hpick, -, -, -, heffect⟩ := pick_spec hpresent i ‹w.pc = .top›
    rw [hpick] at heq
    cases heq
    exact heffect
  · exact startTask_effect ‹_› heq
  · cases heq
    exact .finish (by simp [Worker.hand, *]) rfl
  · cases heq
    exact requeue_effect ‹_›
  · exact rest_effect ‹_› heq
  · have hhand : w.hand = none := by simp [Worker.hand, *]
    split at heq
    · cases heq
      exact .keep s.fiberState s.idleThreadCount hhand.symm
    · cases heq
      exact .keep s.fiberState _ hhand.symm
  · have hhand : w.hand = none := by simp [Worker.hand, *]
    cases heq
    exact .keep s.fiberState _ hhand.symm
  · cases heq

theorem Effect.balanced (heffect : Effect s i w s') (h : s.ledger.Balanced)
    (hw : s.workers[i]? = some w) : s'.ledger.Balanced := by
  cases heffect with
  | keep state idle hand => exact balanced_same_hand (s := { s with .. }) h hw hand
  | take queue hand hand' => exact balanced_take h hw queue hand hand'
  | finish hand hand' => exact balanced_finish h hw hand hand'
  | requeue f hand hand' =>
    apply balanced_same_hand (balanced_schedule h _ _) (w := w)
    · rw [workers_schedule]
      exact hw
    · rw [hand, hand']

theorem Effect.log_grows (heffect : Effect s i w s') : s.log <+: s'.log := by
  cases heffect with
  | requeue f _ _ => exact log_schedule_grows s _ _
  | _ => exact List.prefix_refl _

end Moves

theorem balanced_step (h : s.ledger.Balanced) {act : Act Cb} (hstep : s.Step act s') :
    s'.ledger.Balanced := by
  cases act with
  | schedule fc thread =>
    cases hstep
    exact balanced_schedule h fc thread
  | scheduleAll fcs =>
    cases hstep
    exact balanced_scheduleAll h fcs
  | worker i mv =>
    simp only [Step, exec] at hstep
    split at hstep
    · exact (move_effect (fun e he => balanced_present h (by simp [he])) hstep).balanced h ‹_›
    · cases hstep
  | setState f st =>
    cases hstep
    exact h

/-- The tasks that a call from outside the loop puts into the queue. -/
def scheduledBy : Act Cb → List (FiberAndThread Cb)
  | .schedule fc thread => [FiberAndThread.make fc thread].filter (·.present)
  | .scheduleAll fcs => (fcs.map (FiberAndThread.make · (-1))).filter (·.present)
  | _ => []

theorem step_logs (h : s.ledger.Balanced) {act : Act Cb} (hstep : s.Step act s') :
    ∃ new, s'.log = s.log ++ new ∧ (scheduledBy act).Sublist new := by
  cases act with
  | schedule fc thread =>
    cases hstep
    exact ⟨_, log_schedule s fc thread, List.Sublist.refl _⟩
  | scheduleAll fcs =>
    cases hstep
    exact ⟨_, log_scheduleAll s fcs, List.Sublist.refl _⟩
  | worker i mv =>
    simp only [Step, exec] at hstep
    split at hstep
    · obtain ⟨new, hnew⟩ :=
        (move_effect (fun e he => balanced_present h (by simp [he])) hstep).log_grows
      exact ⟨new, hnew.symm, List.nil_sublist _⟩
    · cases hstep
  | setState f st =>
    cases hstep
    exact ⟨[], by simp [setState], List.nil_sublist _⟩

/-- In every reachable state each task ever queued is in exactly one of the
queue, the hands of the workers and the finished ones, the counter is the
number of workers with a task in hand, and a worker at the top of the loop
picks the first task it may run and changes nothing else in the queue. -/
theorem run_tasks_tracked (tids : List Int) {acts : List (Act Cb)} {s : Scheduler Cb}
    (run : Run Step (init tids) acts s) :
    (acts.flatMap scheduledBy).Sublist s.log ∧
    ((s.fibers ++ s.workers.filterMap Worker.hand).map Entry.serial ++ s.finished).Perm
      (List.range s.log.length) ∧
    (∀ e ∈ s.fibers ++ s.workers.filterMap Worker.hand, s.log[e.serial]? = some e.ft) ∧
    s.activeThreadCount = s.workers.countP (·.hand.isSome) ∧
    ∀ i w, s.workers[i]? = some w → w.pc = .top →
      ∃ found rest s', s.exec (.worker i .pick) = .ok s' ∧
        PicksFirst w.tid s.fiberState s.fibers found rest ∧ s'.fibers = rest ∧
        s'.workers = s.workers.set i { w with pc := found.elim .nothing .picked } := by
  have h : s.ledger.Balanced :=
    run.invariant (I := fun s => s.ledger.Balanced) (balanced_init tids) fun _ _ _ h =>
      balanced_step h
  refine ⟨?_, h.serials, h.named, ?_, ?_⟩
  · have hhistory := run.history
      (I := fun acts s => s.ledger.Balanced ∧ (acts.flatMap scheduledBy).Sublist s.log)
      ⟨balanced_init tids, by simp⟩ (by
        rintro acts s act s' ⟨hbal, hsub⟩ hstep
        obtain ⟨new, hlog, hnew⟩ := step_logs hbal hstep
        refine ⟨balanced_step hbal hstep, ?_⟩
        rw [List.flatMap_append, hlog]
        simpa using hsub.append hnew)
    exact hhistory.2
  · rw [show s.activeThreadCount = s.hands.length from h.active, hands,
      List.length_filterMap_eq_countP]
  · intro i w hw hpc
    obtain ⟨found, rest, s', heq, hpicks, hrest, hworkers, -⟩ :=
      pick_spec (s := s) (fun e he => balanced_present h (by simp [he])) i hpc
    refine ⟨found, rest, s', ?_, hpicks, hrest, hworkers⟩
    simp only [exec, hw, move, hpc]
    exact heq

/-- Two workers; the second passes over a task pinned to the first one's thread
and a fiber that is running, and requeues a fiber that yielded. -/
theorem run_tasks_tracked_twoWorkers :
    ∃ acts s, Run Step (init [11, 12] : Scheduler Nat) acts s ∧ s.finished = [2] ∧
      (acts.flatMap scheduledBy).Sublist s.log ∧
      ((s.fibers ++ s.workers.filterMap Worker.hand).map Entry.serial ++ s.finished).Perm
        (List.range s.log.length) ∧
      (∀ e ∈ s.fibers ++ s.workers.filterMap Worker.hand, s.log[e.serial]? = some e.ft) ∧
      s.activeThreadCount = s.workers.countP (·.hand.isSome) ∧
      ∀ i w, s.workers[i]? = some w → w.pc = .top →
        ∃ found rest s', s.exec (.worker i .pick) = .ok s' ∧
          PicksFirst w.tid s.fiberState s.fibers found rest ∧ s'.fibers = rest ∧
          s'.workers = s.workers.set i { w with pc := found.elim .nothing .picked } := by
  obtain ⟨s, run, hfinished⟩ : ∃ s, Run Step (init [11, 12] : Scheduler Nat)
      [.schedule (.cb (some 3)) 11, .scheduleAll [.fiber (some 4), .fiber none, .fiber (some 5)],
        .setState 4 .EXEC, .worker 1 .pick, .worker 1 (.startTask 0), .worker 0 .pick,
        .setState 5 .READY, .worker 1 .endTask, .worker 1 .requeue] s ∧ s.finished = [2] :=
    ⟨_, .cons rfl (.cons rfl (.cons rfl (.cons rfl (.cons rfl (.cons rfl (.cons rfl
      (.cons rfl (.cons rfl .start)))))))), rfl⟩
  exact ⟨_, s, run, hfinished, run_tasks_tracked [11, 12] run⟩

end Sylar.Scheduler
