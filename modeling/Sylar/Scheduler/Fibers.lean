import Sylar.Scheduler.Tasks

/-! Which worker runs which fiber. A worker that takes a task decides under the
queue's mutex, by the state of the fiber, but that state changes only later, in
`swapIn`, and again before the worker comes back. -/
namespace Sylar.Scheduler

open Lib

variable {Cb : Type} {s s' : Scheduler Cb} {i : Nat} {w : Worker Cb} {e : Entry Cb}

def Worker.target (w : Worker Cb) (e : Entry Cb) : Option Nat := e.ft.fiber.or w.cbFiber

/-- The worker has picked a task for the fiber or is inside its `swapIn`. -/
def Worker.Holds (w : Worker Cb) (f : Nat) : Prop :=
  match w.pc with
  | .picked e => w.target e = some f
  | .swapped _ f' _ => f' = f
  | _ => False

def Exclusive (s : Scheduler Cb) : Prop :=
  ∀ (i j : Nat) (w w' : Worker Cb) (f : Nat), i ≠ j → s.workers[i]? = some w →
    s.workers[j]? = some w' → w.Holds f → ¬ w'.Holds f

def Finds (s : Scheduler Cb) (w : Worker Cb) (e : Entry Cb) : Prop :=
  ∃ rest tickleMe, pickLoop w.tid s.fiberState s.fibers = .ok (some e, rest, tickleMe)

/-- The task that a worker takes is not for a fiber that another worker holds. -/
def Unshared (s : Scheduler Cb) : Act Cb → Prop
  | .worker i .pick => ∀ w e f, s.workers[i]? = some w → s.Finds w e → w.target e = some f →
      ∀ j w', j ≠ i → s.workers[j]? = some w' → ¬ w'.Holds f
  | _ => True

/-- A fiber that `new` gives is nobody's. -/
def NewFiber (s : Scheduler Cb) : Act Cb → Prop
  | .worker _ (.startTask fresh) =>
      ∀ (j : Nat) (w' : Worker Cb), s.workers[j]? = some w' → ¬ w'.Holds fresh
  | _ => True

/-- A worker with task `e` calls `swapIn` of a fiber, and the state it does so in. -/
inductive SwapInCall (s : Scheduler Cb) (w : Worker Cb) (e : Entry Cb) (fresh : Nat) :
    Nat → Scheduler Cb → Prop where
  | fiber (f : Nat) (own : e.ft.fiber = some f) : SwapInCall s w e fresh f s
  | cb (s₁ : Scheduler Cb) (own : e.ft.fiber = none)
      (prepared : s.prepareCbFiber w (w.cbFiber.getD fresh) = .ok s₁) :
      SwapInCall s w e fresh (w.cbFiber.getD fresh) s₁

/-- The test of `run()` before `swapIn` excludes no state. -/
theorem guard_passes (state : FiberState) : state ≠ .TERM ∨ state ≠ .EXCEPT := by
  cases state <;> simp

theorem guarded_eq (s : Scheduler Cb) (e : Entry Cb) :
    (e.ft.fiber.filter fun f => s.fiberState f ≠ .TERM ∨ s.fiberState f ≠ .EXCEPT) =
      e.ft.fiber := by
  cases e.ft.fiber with
  | none => rfl
  | some f => exact Option.filter_some_pos (by simpa using guard_passes (s.fiberState f))

theorem startTask_calls {fresh : Nat} (hpresent : e.ft.present = true)
    (heq : s.startTask i w e fresh = .ok s') :
    ∃ f s₁ byCb w₁, SwapInCall s w e fresh f s₁ ∧ s' = (s₁.setState f .EXEC).setWorker i w₁ ∧
      w₁.pc = .swapped e f byCb := by
  simp only [startTask, guarded_eq] at heq
  split at heq
  · rename_i f hf
    obtain ⟨n, hswap, hset⟩ := bind_eq_ok.mp heq
    obtain rfl := swapIn_ok hswap
    cases hset
    exact ⟨f, s, false, _, .fiber f hf, rfl, rfl⟩
  · rename_i hf _
    obtain ⟨s₁, hprepare, hnext⟩ := bind_eq_ok.mp heq
    obtain ⟨n, hswap, hset⟩ := bind_eq_ok.mp hnext
    obtain rfl := swapIn_ok hswap
    cases hset
    exact ⟨_, s₁, true, _, .cb s₁ hf hprepare, rfl, rfl⟩
  · rename_i hf hcb
    simp [FiberAndThread.present, hf, hcb] at hpresent

theorem startTask_fiber {f : Nat} (hf : e.ft.fiber = some f) (hidle : s.fiberState f ≠ .EXEC)
    (i : Nat) (w : Worker Cb) (fresh : Nat) :
    s.startTask i w e fresh =
      .ok ((s.setState f .EXEC).setWorker i { w with pc := .swapped e f false }) := by
  simp only [startTask, guarded_eq]
  rw [hf]
  simp only [swapIn, if_neg hidle]
  rfl

theorem workers_prepareCbFiber {f : Nat} {s₁ : Scheduler Cb} (h : s.prepareCbFiber w f = .ok s₁) :
    s₁.workers = s.workers := by
  rw [prepareCbFiber_ok h]
  rfl

theorem SwapInCall.workers {fresh f : Nat} {s₁ : Scheduler Cb} (h : SwapInCall s w e fresh f s₁) :
    s₁.workers = s.workers := by
  cases h with
  | fiber => rfl
  | cb _ _ prepared => exact workers_prepareCbFiber prepared

/-- What a piece of `run()` does to a worker, the fibers and the queue: the worker holds
what it held before, the fiber of the task it took or a new one; it finishes no fiber
and makes none ready; it queues ready fibers only; and nothing but the end of a task
leaves the scheduler without tasks. -/
structure Moved (s : Scheduler Cb) (w : Worker Cb) (mv : Move) (s' : Scheduler Cb)
    (w₁ : Worker Cb) : Prop where
  holds : ∀ f, w₁.Holds f → w.Holds f ∨
    (mv = .pick ∧ ∃ e, s.Finds w e ∧ w.target e = some f) ∨ mv = .startTask f
  states : ∀ f, s'.fiberState f = s.fiberState f ∨ s'.fiberState f = .EXEC ∨
    s'.fiberState f = .INIT ∨ s'.fiberState f = .HOLD
  queue : ∀ e ∈ s'.fibers, e ∈ s.fibers ∨
    ∃ f, e.ft.fiber = some f ∧ s.fiberState f = .READY ∧ s'.fiberState f = .READY
  picked : ∀ e, w₁.pc = .picked e → e ∈ s.fibers
  returned : ∀ f byCb, w₁.pc = .returned f byCb → mv = .endTask ∧ ∃ e, w.pc = .swapped e f byCb
  drained : mv ≠ .endTask → s'.fibers = [] → s'.activeThreadCount = 0 →
    s.fibers = [] ∧ s.activeThreadCount = 0

theorem Moved.idle {mv : Move} {w₁ : Worker Cb} (hfibers : s'.fibers = s.fibers)
    (hactive : s'.activeThreadCount = s.activeThreadCount)
    (hstates : ∀ f, s'.fiberState f = s.fiberState f ∨ s'.fiberState f = .EXEC ∨
      s'.fiberState f = .INIT ∨ s'.fiberState f = .HOLD)
    (hpc : w₁.pc = .top ∨ w₁.pc = .nothing ∨ w₁.pc = .idling ∨ w₁.pc = .exited ∨
      ∃ f byCb, w₁.pc = .resting f byCb) : Moved s w mv s' w₁ := by
  refine ⟨fun f hholds => ?_, hstates, fun e he => .inl (hfibers ▸ he), fun e he => ?_,
    fun f byCb hreturned => ?_, fun _ hqueue hcount => ⟨hfibers ▸ hqueue, hactive ▸ hcount⟩⟩
  · obtain hpc | hpc | hpc | hpc | ⟨f', byCb, hpc⟩ := hpc <;> simp [Worker.Holds, hpc] at hholds
  · obtain hpc | hpc | hpc | hpc | ⟨f', byCb, hpc⟩ := hpc <;> simp [hpc] at he
  · obtain hpc | hpc | hpc | hpc | ⟨f', byCb, hpc⟩ := hpc <;> simp [hpc] at hreturned

theorem setState_eq_or (s : Scheduler Cb) (f f' : Nat) (st : FiberState) :
    (s.setState f st).fiberState f' = s.fiberState f' ∨ (s.setState f st).fiberState f' = st := by
  by_cases hf : f' = f
  · subst hf
    exact .inr (Function.update_self ..)
  · exact .inl (Function.update_of_ne hf ..)

theorem rest_moved {f : Nat} {byCb : Bool} (heq : s.rest i w f byCb = .ok s') :
    ∃ w₁, s'.workers = s.workers.set i w₁ ∧ Moved s w .rest s' w₁ := by
  have hset : ∀ st cbFiber, st = .INIT ∨ st = .HOLD →
      s' = (s.setState f st).setWorker i { w with cbFiber, pc := .top } →
      ∃ w₁, s'.workers = s.workers.set i w₁ ∧ Moved s w .rest s' w₁ := by
    rintro st cbFiber hst rfl
    refine ⟨_, rfl, .idle rfl rfl (fun f' => ?_) (.inl rfl)⟩
    rcases setState_eq_or s f f' st with hsame | hnew
    · exact .inl hsame
    · exact .inr (.inr (hst.imp (hnew.trans ·) (hnew.trans ·)))
  have hreset : (do
      let s ← s.resetFiber f
      return s.setWorker i { w with pc := .top }) = Except.ok s' →
      ∃ w₁, s'.workers = s.workers.set i w₁ ∧ Moved s w .rest s' w₁ := by
    intro heq
    obtain ⟨n, hfiber, hnext⟩ := bind_eq_ok.mp heq
    obtain rfl := resetFiber_ok hfiber
    cases hnext
    exact hset .INIT w.cbFiber (.inl rfl) rfl
  simp only [rest] at heq
  split at heq
  · cases heq
    exact ⟨_, rfl, .idle rfl rfl (fun f' => .inl rfl) (.inl rfl)⟩
  · cases heq
    exact ⟨_, rfl, .idle rfl rfl (fun f' => .inl rfl) (.inl rfl)⟩
  · cases heq
    exact hset .HOLD w.cbFiber (.inr rfl) rfl
  · exact hreset heq
  · exact hreset heq
  · cases heq
    exact hset .HOLD none (.inr rfl) rfl

theorem startTask_moved {fresh : Nat} (hpresent : e.ft.present = true) (hpc : w.pc = .picked e)
    (heq : s.startTask i w e fresh = .ok s') :
    ∃ w₁, s'.workers = s.workers.set i w₁ ∧ Moved s w (.startTask fresh) s' w₁ := by
  obtain ⟨f, s₁, byCb, w₁, hcall, rfl, hpc₁⟩ := startTask_calls hpresent heq
  refine ⟨w₁, by rw [← hcall.workers]; rfl, ⟨fun f' hholds => ?_, fun f' => ?_, fun e' he => ?_,
    fun e' he => ?_, fun f' byCb' hreturned => ?_, fun _ hqueue hcount => ?_⟩⟩
  · obtain rfl : f = f' := by simpa [Worker.Holds, hpc₁] using hholds
    simp only [Worker.Holds, hpc, Worker.target]
    cases hcall with
    | fiber f own => exact .inl (by rw [own]; rfl)
    | cb _ own _ =>
      rw [own]
      cases hcb : w.cbFiber with
      | none => exact .inr (.inr rfl)
      | some f => exact .inl rfl
  · rcases setState_eq_or s₁ f f' .EXEC with hsame | hexec
    · cases hcall with
      | fiber => exact .inl hsame
      | cb _ _ prepared =>
        obtain rfl := prepareCbFiber_ok prepared
        rcases setState_eq_or s (w.cbFiber.getD fresh) f' .INIT with hold | hinit
        · exact .inl (hsame.trans hold)
        · exact .inr (.inr (.inl (hsame.trans hinit)))
    · exact .inr (.inl hexec)
  · cases hcall with
    | fiber => exact .inl he
    | cb _ _ prepared =>
      obtain rfl := prepareCbFiber_ok prepared
      exact .inl he
  · rw [hpc₁] at he
    cases he
  · rw [hpc₁] at hreturned
    cases hreturned
  · cases hcall with
    | fiber => exact ⟨hqueue, hcount⟩
    | cb _ _ prepared =>
      obtain rfl := prepareCbFiber_ok prepared
      exact ⟨hqueue, hcount⟩

theorem requeue_moved {f : Nat} {byCb : Bool} :
    ∃ w₁, (s.requeue i w f byCb).workers = s.workers.set i w₁ ∧
      Moved s w .requeue (s.requeue i w f byCb) w₁ := by
  simp only [requeue]
  split
  · rename_i hready
    refine ⟨{ w with cbFiber := if byCb then none else w.cbFiber, pc := .top }, rfl,
      ⟨fun f' hholds => hholds.elim, fun f' => .inl rfl, fun e he => ?_, fun e he => ?_,
      fun f' byCb' hreturned => ?_, fun _ hqueue _ => ?_⟩⟩
    · rcases List.mem_append.mp he with he | he
      · exact .inl he
      · obtain rfl := List.mem_singleton.mp he
        exact .inr ⟨f, rfl, hready, hready⟩
    · cases he
    · cases hreturned
    · exact absurd hqueue (List.concat_ne_nil _ _)
  · exact ⟨_, rfl, .idle rfl rfl (fun f' => .inl rfl) (.inr (.inr (.inr (.inr ⟨f, byCb, rfl⟩))))⟩

theorem Finds.pick (hpresent : ∀ e ∈ s.fibers, e.ft.present = true) (h : s.Finds w e) (i : Nat) :
    ∃ s₁, s.pick i w = .ok s₁ ∧ s₁.workers = s.workers.set i { w with pc := .picked e } ∧
      s₁.fiberState = s.fiberState ∧ ∀ f, e.ft.fiber = some f → s.fiberState f ≠ .EXEC := by
  obtain ⟨rest, tickleMe, hsearch⟩ := h
  obtain ⟨found, rest', tickleMe', hsearch', hpicks⟩ :=
    pickLoop_picksFirst w.tid s.fiberState hpresent
  rw [hsearch] at hsearch'
  cases hsearch'
  obtain ⟨-, -, -, -, ⟨-, hidle⟩, -⟩ := hpicks
  refine ⟨{ s with fibers := rest, activeThreadCount := s.activeThreadCount + 1 }.setWorker i
    { w with pc := .picked e }, ?_, rfl, rfl, hidle⟩
  simp only [Scheduler.pick, hsearch]
  rfl

theorem take_then_start (hpresent : ∀ e ∈ s.fibers, e.ft.present = true)
    (hw : s.workers[i]? = some w) (hpc : w.pc = .top) (hfinds : s.Finds w e) {f : Nat}
    (hf : e.ft.fiber = some f) :
    ∃ s₁ s₂, s.Step (.worker i .pick) s₁ ∧ s₁.Step (.worker i (.startTask 0)) s₂ ∧
      s₁.workers = s.workers.set i { w with pc := .picked e } ∧ s₁.fiberState = s.fiberState ∧
      s₂.workers[i]? = some { w with pc := .swapped e f false } := by
  obtain ⟨s₁, hpick, hworkers, hstate, hidle⟩ := hfinds.pick hpresent i
  have hlt := (List.getElem?_eq_some_iff.mp hw).1
  have hw₁ : s₁.workers[i]? = some { w with pc := .picked e } := by
    rw [hworkers]
    exact List.getElem?_set_self hlt
  refine ⟨s₁, (s₁.setState f .EXEC).setWorker i { w with pc := .swapped e f false }, ?_, ?_,
    hworkers, hstate, ?_⟩
  · simp only [Step, exec, hw, move, hpc]
    exact hpick
  · simp only [Step, exec, hw₁, move]
    exact startTask_fiber hf (hstate ▸ hidle f hf) i _ 0
  · exact List.getElem?_set_self (List.getElem?_eq_some_iff.mp hw₁).1

theorem pick_moved (hpresent : ∀ e ∈ s.fibers, e.ft.present = true)
    (heq : s.pick i w = .ok s') :
    ∃ w₁, s'.workers = s.workers.set i w₁ ∧ Moved s w .pick s' w₁ := by
  obtain ⟨found, rest, tickleMe, hsearch, hpicks⟩ :=
    pickLoop_picksFirst w.tid s.fiberState hpresent
  simp only [pick, hsearch, bind, Except.bind] at heq
  cases found with
  | none =>
    obtain rfl := hpicks.1
    cases heq
    exact ⟨_, rfl, .idle rfl rfl (fun f => .inl rfl) (.inr (.inl rfl))⟩
  | some e =>
    cases heq
    refine ⟨_, rfl, ⟨fun f hholds => .inr (.inl ⟨rfl, e, ⟨rest, tickleMe, hsearch⟩, hholds⟩),
      fun f => .inl rfl, fun e' he => .inl ?_, fun e' he => ?_, fun f byCb hreturned => ?_,
      fun _ _ hcount => absurd hcount (Nat.succ_ne_zero _)⟩⟩
    · obtain ⟨before, after, hqueue, rfl, -⟩ := hpicks
      rw [hqueue]
      simp only [setWorker, List.mem_append, List.mem_cons] at he ⊢
      exact he.imp_right .inr
    · obtain ⟨before, after, hqueue, -⟩ := hpicks
      cases he
      rw [hqueue]
      simp
    · cases hreturned

theorem move_moved (hpresent : ∀ e ∈ s.fibers ++ s.hands, e.ft.present = true) {mv : Move}
    (hw : s.workers[i]? = some w) (heq : s.move i w mv = .ok s') :
    ∃ w₁, s'.workers = s.workers.set i w₁ ∧ Moved s w mv s' w₁ := by
  simp only [move] at heq
  split at heq
  · exact pick_moved (fun e he => hpresent e (by simp [he])) heq
  · rename_i fresh e hpc
    have he : e ∈ s.hands :=
      List.mem_filterMap.mpr ⟨w, List.mem_of_getElem? hw, by simp [Worker.hand, hpc]⟩
    exact startTask_moved (hpresent e (by simp [he])) hpc heq
  · rename_i e f byCb hpc
    cases heq
    refine ⟨_, rfl, ⟨fun f hholds => hholds.elim, fun f => .inl rfl, fun e he => .inl he,
      fun e he => ?_, fun f' byCb' hreturned => ?_, fun hmv => absurd rfl hmv⟩⟩
    · cases he
    · cases hreturned
      exact ⟨rfl, e, hpc⟩
  · cases heq
    exact requeue_moved
  · exact rest_moved heq
  · split at heq
    · cases heq
      exact ⟨_, rfl, .idle rfl rfl (fun f => .inl rfl) (.inr (.inr (.inr (.inl rfl))))⟩
    · cases heq
      exact ⟨_, rfl, .idle rfl rfl (fun f => .inl rfl) (.inr (.inr (.inl rfl)))⟩
  · cases heq
    exact ⟨_, rfl, .idle rfl rfl (fun f => .inl rfl) (.inl rfl)⟩
  · cases heq

theorem step_worker (h : s.ledger.Balanced) {mv : Move} (hstep : s.Step (.worker i mv) s') :
    ∃ w w₁, s.workers[i]? = some w ∧ s.move i w mv = .ok s' ∧
      s'.workers = s.workers.set i w₁ ∧ Moved s w mv s' w₁ := by
  simp only [Step, exec] at hstep
  split at hstep
  · rename_i w hw
    obtain ⟨w₁, hworkers, hmoved⟩ := move_moved (fun e he => balanced_present h he) hw hstep
    exact ⟨w, w₁, hw, hstep, hworkers, hmoved⟩
  · cases hstep

theorem get_set_worker {l : List (Worker Cb)} {i j : Nat} {w w₁ : Worker Cb}
    (h : (l.set i w₁)[j]? = some w) : (j = i ∧ w = w₁) ∨ (j ≠ i ∧ l[j]? = some w) := by
  by_cases hj : j = i
  · subst hj
    have hlt := (List.getElem?_eq_some_iff.mp h).1
    rw [List.length_set] at hlt
    rw [List.getElem?_set_self hlt] at h
    exact .inl ⟨rfl, (Option.some.inj h).symm⟩
  · rw [List.getElem?_set_ne (Ne.symm hj)] at h
    exact .inr ⟨hj, h⟩

theorem exclusive_of_workers (h : Exclusive s) (hworkers : s'.workers = s.workers) :
    Exclusive s' := by
  intro i j w w' f hij hw hw'
  rw [hworkers] at hw hw'
  exact h i j w w' f hij hw hw'

@[simp] theorem workers_scheduleAll (s : Scheduler Cb) (fcs : List (FiberOrCb Cb)) :
    (s.scheduleAll fcs).workers = s.workers := by
  induction fcs generalizing s with
  | nil => rfl
  | cons fc fcs ih => exact (ih _).trans (workers_schedule s fc (-1))

@[simp] theorem fiberState_schedule (s : Scheduler Cb) (fc : FiberOrCb Cb) (thread : Int) :
    (s.schedule fc thread).fiberState = s.fiberState := by
  simp only [schedule, scheduleNoLock]
  split <;> rfl

@[simp] theorem fiberState_scheduleAll (s : Scheduler Cb) (fcs : List (FiberOrCb Cb)) :
    (s.scheduleAll fcs).fiberState = s.fiberState := by
  induction fcs generalizing s with
  | nil => rfl
  | cons fc fcs ih => exact (ih _).trans (fiberState_schedule s fc (-1))

theorem fibers_schedule_grows (s : Scheduler Cb) (fc : FiberOrCb Cb) (thread : Int) :
    s.fibers <+: (s.schedule fc thread).fibers := by
  simp only [schedule, scheduleNoLock]
  split
  · exact List.prefix_append _ _
  · exact List.prefix_rfl

theorem fibers_scheduleAll_grows (s : Scheduler Cb) (fcs : List (FiberOrCb Cb)) :
    s.fibers <+: (s.scheduleAll fcs).fibers := by
  induction fcs generalizing s with
  | nil => exact List.prefix_rfl
  | cons fc fcs ih => exact (fibers_schedule_grows s fc (-1)).trans (ih _)

@[simp] theorem activeThreadCount_schedule (s : Scheduler Cb) (fc : FiberOrCb Cb) (thread : Int) :
    (s.schedule fc thread).activeThreadCount = s.activeThreadCount := by
  simp only [schedule, scheduleNoLock]
  split <;> rfl

@[simp] theorem activeThreadCount_scheduleAll (s : Scheduler Cb) (fcs : List (FiberOrCb Cb)) :
    (s.scheduleAll fcs).activeThreadCount = s.activeThreadCount := by
  induction fcs generalizing s with
  | nil => rfl
  | cons fc fcs ih => exact (ih _).trans (activeThreadCount_schedule s fc (-1))

/-- A fiber the worker comes to hold is held by nobody else. -/
theorem exclusive_step (h : Exclusive s) (hbal : s.ledger.Balanced) {act : Act Cb}
    (hunshared : s.Unshared act) (hnew : s.NewFiber act) (hstep : s.Step act s') :
    Exclusive s' := by
  cases act with
  | schedule fc thread =>
    cases hstep
    exact exclusive_of_workers h (workers_schedule s fc thread)
  | scheduleAll fcs =>
    cases hstep
    exact exclusive_of_workers h (workers_scheduleAll s fcs)
  | setState f st =>
    cases hstep
    exact exclusive_of_workers h rfl
  | worker k mv =>
    obtain ⟨w₀, w₁, hw₀, -, hworkers, hmoved⟩ := step_worker hbal hstep
    have halone : ∀ f j w, w₁.Holds f → j ≠ k → s.workers[j]? = some w → ¬ w.Holds f := by
      intro f j w hholds hjk hw
      rcases hmoved.holds f hholds with hold | ⟨rfl, e, hfinds, htarget⟩ | rfl
      · exact h k j w₀ w f (Ne.symm hjk) hw₀ hw hold
      · exact hunshared w₀ e f hw₀ hfinds htarget j w hjk hw
      · exact hnew j w hw
    intro i j w w' f hij hw hw' hholds hholds'
    rw [hworkers] at hw hw'
    rcases get_set_worker hw with ⟨rfl, rfl⟩ | ⟨hik, hold⟩
    · rcases get_set_worker hw' with ⟨rfl, -⟩ | ⟨hjk, hold'⟩
      · exact hij rfl
      · exact halone f j w' hholds hjk hold' hholds'
    · rcases get_set_worker hw' with ⟨rfl, rfl⟩ | ⟨hjk, hold'⟩
      · exact halone f i w hholds' hik hold hholds
      · exact h i j w w' f hij hold hold' hholds hholds'

theorem exclusive_init (tids : List Int) : Exclusive (init tids : Scheduler Cb) := by
  intro i j w w' f _ hw _ hholds
  simp only [init, List.getElem?_map, Option.map_eq_some_iff] at hw
  obtain ⟨tid, -, rfl⟩ := hw
  exact hholds.elim

theorem run_balanced {P : Scheduler Cb → Act Cb → Prop} {tids : List Int} {acts : List (Act Cb)}
    (run : Run (fun s act s' => P s act ∧ s.Step act s') (init tids) acts s) :
    s.ledger.Balanced :=
  run.invariant (I := fun s => s.ledger.Balanced) (balanced_init tids) fun _ _ _ h hstep =>
    balanced_step h hstep.2

/-- In runs in which nobody takes a task for a fiber that another worker holds, no worker
calls `swapIn` of such a fiber; and a worker that does take one calls `swapIn` of the
fiber in its next step, whatever the other one does meanwhile. -/
theorem run_swapIn_alone {tids : List Int} {acts : List (Act Cb)}
    (run : Run (fun s act s' => (s.Unshared act ∧ s.NewFiber act) ∧ s.Step act s') (init tids)
      acts s) :
    (∀ i w e fresh f s₁, s.workers[i]? = some w → w.pc = .picked e →
      s.NewFiber (.worker i (.startTask fresh)) → SwapInCall s w e fresh f s₁ →
      ∀ j w', j ≠ i → s.workers[j]? = some w' → ¬ w'.Holds f) ∧
    (∀ i w e f j w', s.workers[i]? = some w → w.pc = .top → s.Finds w e →
      e.ft.fiber = some f → j ≠ i → s.workers[j]? = some w' → w'.Holds f →
      ∃ s₁ s₂ w₂, s.Step (.worker i .pick) s₁ ∧ s₁.Step (.worker i (.startTask 0)) s₂ ∧
        s₂.workers[i]? = some w₂ ∧ w₂.pc = .swapped e f false ∧ s₁.workers[j]? = some w') := by
  have hbal := run_balanced run
  have hexcl : Exclusive s := by
    have hinv := run.invariant (I := fun s => Exclusive s ∧ s.ledger.Balanced)
      ⟨exclusive_init tids, balanced_init tids⟩ fun _ _ _ h hstep =>
        ⟨exclusive_step h.1 h.2 hstep.1.1 hstep.1.2 hstep.2, balanced_step h.2 hstep.2⟩
    exact hinv.1
  constructor
  · intro i w e fresh f s₁ hw hpc hnew hcall j w' hji hw' hholds
    cases hcall with
    | fiber f own =>
      refine hexcl i j w w' f (Ne.symm hji) hw hw' ?_ hholds
      simp [Worker.Holds, hpc, Worker.target, own]
    | cb s₁ own prepared =>
      cases hcb : w.cbFiber with
      | none =>
        rw [hcb] at hholds
        exact hnew j w' hw' hholds
      | some f =>
        rw [hcb] at hholds
        refine hexcl i j w w' f (Ne.symm hji) hw hw' ?_ hholds
        simp [Worker.Holds, hpc, Worker.target, own, hcb]
  · intro i w e f j w' hw hpc hfinds hf hji hw' hholds
    obtain ⟨s₁, s₂, hpick, hstart, hworkers, -, hw₂⟩ :=
      take_then_start (fun e he => balanced_present hbal (by simp [he])) hw hpc hfinds hf
    refine ⟨s₁, s₂, _, hpick, hstart, hw₂, rfl, ?_⟩
    rw [hworkers]
    exact (List.getElem?_set_ne (Ne.symm hji)).trans hw'

/-- Each of two workers runs a fiber of its own, one of them with a callback. -/
theorem run_swapIn_alone_twoWorkers :
    ∃ s, Run (fun s act s' => (s.Unshared act ∧ s.NewFiber act) ∧ s.Step act s')
      (init [11, 12] : Scheduler Nat)
      [.schedule (.fiber (some 7)) (-1), .schedule (.cb (some 0)) (-1), .worker 0 .pick,
        .worker 1 .pick, .worker 0 (.startTask 9)] s ∧
      s.fiberState 7 = .EXEC ∧
      ∀ w e f s₁, s.workers[1]? = some w → w.pc = .picked e → SwapInCall s w e 9 f s₁ →
        ∀ w', s.workers[0]? = some w' → ¬ w'.Holds f := by
  obtain ⟨s, run, hstate, hnew⟩ : ∃ s,
      Run (fun s act s' => (s.Unshared act ∧ s.NewFiber act) ∧ s.Step act s')
      (init [11, 12] : Scheduler Nat)
      [.schedule (.fiber (some 7)) (-1), .schedule (.cb (some 0)) (-1), .worker 0 .pick,
        .worker 1 .pick, .worker 0 (.startTask 9)] s ∧
      s.fiberState 7 = .EXEC ∧ s.NewFiber (.worker 1 (.startTask 9)) := by
    refine ⟨_, .cons ⟨⟨trivial, trivial⟩, rfl⟩ (.cons ⟨⟨trivial, trivial⟩, rfl⟩
      (.cons ⟨⟨?_, trivial⟩, rfl⟩ (.cons ⟨⟨?_, trivial⟩, rfl⟩ (.cons ⟨⟨trivial, ?_⟩, rfl⟩
      .start)))), rfl, ?_⟩
    · rintro w e f - - - (_ | _ | j) w' - ⟨⟩ ⟨⟩
    · rintro w e f ⟨⟩ ⟨_, _, ⟨⟩⟩ ⟨⟩
    · rintro (_ | _ | j) w' ⟨⟩ ⟨⟩
    · rintro (_ | _ | j) w' ⟨⟩ ⟨⟩
  refine ⟨s, run, hstate, fun w e f s₁ hw hpc hcall w' hw' => ?_⟩
  exact (run_swapIn_alone run).1 1 w e 9 f s₁ hw hpc hnew hcall 0 w' (by decide) hw'

/-- A fiber is scheduled twice; both workers pick it, and one runs it while the other
is about to. -/
theorem fiber_scheduled_twice_shared :
    ∃ s s' : Scheduler Nat, Run Step (init [11, 12])
      [.schedule (.fiber (some 7)) (-1), .schedule (.fiber (some 7)) (-1), .worker 0 .pick,
        .worker 1 .pick] s ∧
      s.Step (.worker 0 (.startTask 0)) s' ∧
      (∃ w, s'.workers[0]? = some w ∧ ∃ e, w.pc = .swapped e 7 false) ∧
      ∃ w, s.workers[1]? = some w ∧ s'.workers[1]? = some w ∧ w.Holds 7 :=
  ⟨_, _, .cons rfl (.cons rfl (.cons rfl (.cons rfl .start))), rfl, ⟨_, rfl, _, rfl⟩,
    ⟨_, rfl, rfl, rfl⟩⟩

end Sylar.Scheduler
