import Sylar.Scheduler.Fibers

/-! Finished fibers. The test of `run()` before it swaps a task's fiber in lets every
state pass, so that it must not be given a task of a finished one. A worker that finds
no task swaps in the fiber it runs `idle()` in, unless that one has ended; here the test
asks for `TERM` only. -/
namespace Sylar.Scheduler

open Lib

section Tasks

variable {Cb : Type} {s s' : Scheduler Cb} {e : Entry Cb}

def Finished (state : FiberState) : Prop := state = .TERM ∨ state = .EXCEPT

instance (state : FiberState) : Decidable (Finished state) :=
  inferInstanceAs (Decidable (state = .TERM ∨ state = .EXCEPT))

def Worker.waiting (w : Worker Cb) : Option (Entry Cb) :=
  match w.pc with
  | .picked e => some e
  | _ => none

def waiting (s : Scheduler Cb) : List (Entry Cb) := s.fibers ++ s.workers.filterMap Worker.waiting

/-- No finished fiber is scheduled, and no fiber finishes while a task of it waits. -/
def Unfinished (s : Scheduler Cb) : Act Cb → Prop
  | .schedule (.fiber (some f)) _ => ¬ Finished (s.fiberState f)
  | .scheduleAll fcs => ∀ f, .fiber (some f) ∈ fcs → ¬ Finished (s.fiberState f)
  | .setState f st => Finished st → ∀ e ∈ s.waiting, e.ft.fiber ≠ some f
  | _ => True

def Clean (s : Scheduler Cb) : Prop :=
  ∀ e ∈ s.waiting, ∀ f, e.ft.fiber = some f → ¬ Finished (s.fiberState f)

@[simp] theorem mem_waiting : e ∈ s.waiting ↔
    e ∈ s.fibers ∨ ∃ (i : Nat) (w : Worker Cb), s.workers[i]? = some w ∧ w.pc = .picked e := by
  simp only [waiting, List.mem_append, List.mem_filterMap]
  refine or_congr_right ⟨?_, ?_⟩
  · rintro ⟨w, hw, hwaiting⟩
    obtain ⟨i, hi⟩ := List.mem_iff_getElem?.mp hw
    refine ⟨i, w, hi, ?_⟩
    simp only [Worker.waiting] at hwaiting
    split at hwaiting
    · rw [← Option.some.inj hwaiting]
      assumption
    · cases hwaiting
  · rintro ⟨i, w, hw, hpc⟩
    exact ⟨w, List.mem_of_getElem? hw, by simp [Worker.waiting, hpc]⟩

theorem mem_fibers_schedule {fc : FiberOrCb Cb} {thread : Int} :
    e ∈ (s.schedule fc thread).fibers →
      e ∈ s.fibers ∨ e.ft = FiberAndThread.make fc thread := by
  simp only [schedule, scheduleNoLock]
  split
  · intro he
    rcases List.mem_append.mp he with he | he
    · exact .inl he
    · rw [List.mem_singleton.mp he]
      exact .inr rfl
  · exact .inl

theorem mem_fibers_scheduleAll {fcs : List (FiberOrCb Cb)} (he : e ∈ (s.scheduleAll fcs).fibers) :
    e ∈ s.fibers ∨ ∃ fc ∈ fcs, e.ft = FiberAndThread.make fc (-1) := by
  induction fcs generalizing s with
  | nil => exact .inl he
  | cons fc fcs ih =>
    rcases ih he with he | ⟨fc', hfc', hft⟩
    · rcases mem_fibers_schedule he with he | hft
      · exact .inl he
      · exact .inr ⟨fc, List.mem_cons_self, hft⟩
    · exact .inr ⟨fc', List.mem_cons_of_mem _ hfc', hft⟩

theorem make_fiber {fc : FiberOrCb Cb} {thread : Int} {f : Nat}
    (h : (FiberAndThread.make fc thread).fiber = some f) : fc = .fiber (some f) := by
  cases fc with
  | fiber f' => exact congrArg _ h
  | cb => cases h

theorem clean_step (h : Clean s) (hbal : s.ledger.Balanced) {act : Act Cb}
    (hunfinished : s.Unfinished act) (hstep : s.Step act s') : Clean s' := by
  intro e he f hf
  rw [mem_waiting] at he
  have hold : e ∈ s.fibers ∨ (∃ (i : Nat) (w : Worker Cb), s.workers[i]? = some w ∧
      w.pc = .picked e) → ¬ Finished (s.fiberState f) := fun he => h e (mem_waiting.mpr he) f hf
  cases act with
  | schedule fc thread =>
    cases hstep
    rw [workers_schedule] at he
    rw [fiberState_schedule]
    rcases he with he | he
    · rcases mem_fibers_schedule he with he | hft
      · exact hold (.inl he)
      · obtain rfl := make_fiber (hft ▸ hf)
        exact hunfinished
    · exact hold (.inr he)
  | scheduleAll fcs =>
    cases hstep
    rw [workers_scheduleAll] at he
    rw [fiberState_scheduleAll]
    rcases he with he | he
    · rcases mem_fibers_scheduleAll he with he | ⟨fc, hfc, hft⟩
      · exact hold (.inl he)
      · obtain rfl := make_fiber (hft ▸ hf)
        exact hunfinished f hfc
    · exact hold (.inr he)
  | setState f' st =>
    cases hstep
    by_cases hff : f = f'
    · subst hff
      intro hfinished
      rw [show (s.setState f st).fiberState f = st from Function.update_self ..] at hfinished
      exact hunfinished hfinished e (mem_waiting.mpr he) hf
    · rw [show (s.setState f' st).fiberState f = s.fiberState f from Function.update_of_ne hff ..]
      exact hold he
  | worker i mv =>
    obtain ⟨w, w₁, hw, -, hworkers, hmoved⟩ := step_worker hbal hstep
    have hback : Finished (s'.fiberState f) → Finished (s.fiberState f) := by
      rcases hmoved.states f with hsame | hnew | hnew | hnew
      · rw [hsame]
        exact id
      all_goals
        rw [hnew]
        exact fun hfinished => absurd hfinished (by decide)
    refine fun hfinished => ?_
    rcases he with he | ⟨j, w', hw', hpc⟩
    · rcases hmoved.queue e he with he | ⟨f', hf', -, hready⟩
      · exact hold (.inl he) (hback hfinished)
      · obtain rfl : f = f' := Option.some.inj (hf.symm.trans hf')
        rw [hready] at hfinished
        exact absurd hfinished (by decide)
    · rw [hworkers] at hw'
      rcases get_set_worker hw' with ⟨rfl, rfl⟩ | ⟨-, hw'⟩
      · exact hold (.inl (hmoved.picked e hpc)) (hback hfinished)
      · exact hold (.inr ⟨j, w', hw', hpc⟩) (hback hfinished)

theorem clean_init (tids : List Int) : Clean (init tids : Scheduler Cb) := by
  intro e he
  rcases mem_waiting.mp he with he | ⟨i, w, hw, hpc⟩
  · cases he
  · simp only [init, List.getElem?_map, Option.map_eq_some_iff] at hw
    obtain ⟨tid, -, rfl⟩ := hw
    cases hpc

theorem exists_mem_schedule (s : Scheduler Cb) (f : Nat) (thread : Int) :
    ∃ e ∈ (s.schedule (.fiber (some f)) thread).fibers, e.ft.fiber = some f :=
  ⟨_, List.mem_append_right _ (List.mem_singleton_self _), rfl⟩

theorem exists_mem_scheduleAll {fcs : List (FiberOrCb Cb)} {f : Nat}
    (hf : .fiber (some f) ∈ fcs) : ∃ e ∈ (s.scheduleAll fcs).fibers, e.ft.fiber = some f := by
  induction fcs generalizing s with
  | nil => cases hf
  | cons fc fcs ih =>
    rcases List.mem_cons.mp hf with rfl | hf
    · obtain ⟨e, he, hfiber⟩ := exists_mem_schedule s f (-1)
      exact ⟨e, (fibers_scheduleAll_grows _ fcs).subset he, hfiber⟩
    · exact ih hf

/-- A step that breaks the condition leaves a task of a finished fiber waiting. -/
theorem waiting_of_not_unfinished {act : Act Cb} (hstep : s.Step act s')
    (hbroken : ¬ s.Unfinished act) :
    ∃ e ∈ s'.waiting, ∃ f, e.ft.fiber = some f ∧ Finished (s'.fiberState f) := by
  cases act with
  | worker i mv => exact absurd trivial hbroken
  | schedule fc thread =>
    cases hstep
    match fc, hbroken with
    | .cb _, hbroken => exact absurd trivial hbroken
    | .fiber none, hbroken => exact absurd trivial hbroken
    | .fiber (some f), hbroken =>
      obtain ⟨e, he, hf⟩ := exists_mem_schedule s f thread
      refine ⟨e, mem_waiting.mpr (.inl he), f, hf, ?_⟩
      rw [fiberState_schedule]
      exact not_not.mp hbroken
  | scheduleAll fcs =>
    cases hstep
    obtain ⟨f, hfcs, hfinished⟩ : ∃ f, .fiber (some f) ∈ fcs ∧ Finished (s.fiberState f) := by
      simpa [Unfinished] using hbroken
    obtain ⟨e, he, hf⟩ := exists_mem_scheduleAll (s := s) hfcs
    refine ⟨e, mem_waiting.mpr (.inl he), f, hf, ?_⟩
    rw [fiberState_scheduleAll]
    exact hfinished
  | setState f st =>
    cases hstep
    obtain ⟨hfinished, e, he, hf⟩ : Finished st ∧ ∃ e ∈ s.waiting, e.ft.fiber = some f := by
      simpa [Unfinished] using hbroken
    refine ⟨e, he, f, hf, ?_⟩
    rw [show (s.setState f st).fiberState f = st from Function.update_self ..]
    exact hfinished

end Tasks

structure Loops (Cb : Type) where
  scheduler : Scheduler Cb
  idleFibers : List FiberState

namespace Loops

variable {Cb : Type} {s s' : Loops Cb}

def init (tids : List Int) : Loops Cb :=
  { scheduler := .init tids, idleFibers := tids.map fun _ => .INIT }

/-- `idleOut i state` is the return of `swapIn` of the idle fiber of worker `i`, which
has then the given state. -/
inductive Act (Cb : Type) where
  | act (a : Scheduler.Act Cb)
  | idleIn (i : Nat)
  | idleOut (i : Nat) (state : FiberState)

def isIdle : Scheduler.Act Cb → Bool
  | .worker _ (.idleIn _) | .worker _ .idleOut => true
  | _ => false

def idleIn (i : Nat) (s : Loops Cb) : Except Stop (Loops Cb) :=
  match s.idleFibers[i]? with
  | none => .error .blocked
  | some .TERM => do
    let scheduler ← s.scheduler.exec (.worker i (.idleIn true))
    return { s with scheduler }
  | some .EXEC => .error (.assertion "m_state != EXEC")
  | some _ => do
    let scheduler ← s.scheduler.exec (.worker i (.idleIn false))
    return { scheduler, idleFibers := s.idleFibers.set i .EXEC }

def idleOut (i : Nat) (state : FiberState) (s : Loops Cb) : Except Stop (Loops Cb) := do
  let scheduler ← s.scheduler.exec (.worker i .idleOut)
  let state := if state ≠ .EXCEPT ∧ state ≠ .TERM then .HOLD else state
  return { scheduler, idleFibers := s.idleFibers.set i state }

def exec (s : Loops Cb) : Act Cb → Except Stop (Loops Cb)
  | .act a =>
    if isIdle a then .error .blocked
    else do
      let scheduler ← s.scheduler.exec a
      return { s with scheduler }
  | .idleIn i => s.idleIn i
  | .idleOut i state => s.idleOut i state

def Step (s : Loops Cb) (act : Act Cb) (s' : Loops Cb) : Prop := s.exec act = .ok s'

def IdleCall (s : Loops Cb) (i : Nat) (state : FiberState) : Prop :=
  (∃ w, s.scheduler.workers[i]? = some w ∧ w.pc = .nothing) ∧ s.idleFibers[i]? = some state ∧
    state ≠ .TERM

/-- No finished fiber is scheduled, none finishes while a task of it waits, and `idle()`
throws nothing. -/
def Unfinished (s : Loops Cb) : Act Cb → Prop
  | .act a => s.scheduler.Unfinished a
  | .idleIn _ => True
  | .idleOut _ state => state ≠ .EXCEPT

structure Clean (s : Loops Cb) : Prop where
  balanced : s.scheduler.ledger.Balanced
  workers : s.idleFibers.length = s.scheduler.workers.length
  tasks : s.scheduler.Clean
  idle : .EXCEPT ∉ s.idleFibers

theorem clean_init (tids : List Int) : Clean (init tids : Loops Cb) :=
  ⟨balanced_init tids, by simp [init, Scheduler.init], Scheduler.clean_init tids, by simp [init]⟩

theorem length_workers_step {s s' : Scheduler Cb} (h : s.ledger.Balanced)
    {act : Scheduler.Act Cb} (hstep : s.Step act s') : s'.workers.length = s.workers.length := by
  cases act with
  | schedule fc thread =>
    cases hstep
    rw [workers_schedule]
  | scheduleAll fcs =>
    cases hstep
    rw [workers_scheduleAll]
  | setState f st =>
    cases hstep
    rfl
  | worker i mv =>
    obtain ⟨w, w₁, -, -, hworkers, -⟩ := step_worker h hstep
    rw [hworkers, List.length_set]

theorem clean_step (h : Clean s) {act : Act Cb} (hunfinished : s.Unfinished act)
    (hstep : s.Step act s') : Clean s' := by
  have hmove : ∀ {a scheduler}, s.scheduler.Step a scheduler → s.scheduler.Unfinished a →
      scheduler.ledger.Balanced ∧ s.idleFibers.length = scheduler.workers.length ∧
        scheduler.Clean := fun hstep ha =>
    ⟨balanced_step h.balanced hstep, h.workers.trans (length_workers_step h.balanced hstep).symm,
      Scheduler.clean_step h.tasks h.balanced ha hstep⟩
  have hset : ∀ {i state}, state ≠ .EXCEPT → FiberState.EXCEPT ∉ s.idleFibers.set i state := by
    intro i state hstate hmem
    rcases List.mem_or_eq_of_mem_set hmem with hmem | heq
    · exact h.idle hmem
    · exact hstate heq.symm
  cases act with
  | act a =>
    rcases ite_eq_iff.mp hstep with ⟨-, hstep⟩ | ⟨-, hstep⟩
    · cases hstep
    obtain ⟨scheduler, hexec, hstep⟩ := bind_eq_ok.mp hstep
    cases hstep
    obtain ⟨hbal, hlen, htasks⟩ := hmove hexec hunfinished
    exact ⟨hbal, hlen, htasks, h.idle⟩
  | idleIn i =>
    simp only [Step, exec, idleIn] at hstep
    split at hstep
    · cases hstep
    · obtain ⟨scheduler, hexec, hstep⟩ := bind_eq_ok.mp hstep
      cases hstep
      obtain ⟨hbal, hlen, htasks⟩ := hmove hexec trivial
      exact ⟨hbal, hlen, htasks, h.idle⟩
    · cases hstep
    · obtain ⟨scheduler, hexec, hstep⟩ := bind_eq_ok.mp hstep
      cases hstep
      obtain ⟨hbal, hlen, htasks⟩ := hmove hexec trivial
      exact ⟨hbal, List.length_set.trans hlen, htasks, hset (by decide)⟩
  | idleOut i state =>
    obtain ⟨scheduler, hexec, hstep⟩ := bind_eq_ok.mp hstep
    cases hstep
    obtain ⟨hbal, hlen, htasks⟩ := hmove hexec trivial
    refine ⟨hbal, List.length_set.trans hlen, htasks, hset ?_⟩
    split
    · decide
    · exact hunfinished

theorem finished_of_not_unfinished (h : Clean s) {act : Act Cb} (hstep : s.Step act s')
    (hbroken : ¬ s.Unfinished act) :
    (∃ e ∈ s'.scheduler.waiting, ∃ f, e.ft.fiber = some f ∧
      Finished (s'.scheduler.fiberState f)) ∨ .EXCEPT ∈ s'.idleFibers := by
  cases act with
  | act a =>
    rcases ite_eq_iff.mp hstep with ⟨-, hstep⟩ | ⟨-, hstep⟩
    · cases hstep
    obtain ⟨scheduler, hexec, hstep⟩ := bind_eq_ok.mp hstep
    cases hstep
    exact .inl (waiting_of_not_unfinished hexec hbroken)
  | idleIn i => exact absurd trivial hbroken
  | idleOut i state =>
    obtain ⟨scheduler, hexec, hstep⟩ := bind_eq_ok.mp hstep
    cases hstep
    obtain rfl : state = .EXCEPT := not_not.mp hbroken
    obtain ⟨w, w₁, hw, -⟩ := step_worker h.balanced hexec
    have hlt : i < s.idleFibers.length := h.workers ▸ (List.getElem?_eq_some_iff.mp hw).1
    exact .inr (List.mem_of_getElem? (List.getElem?_set_self hlt))

theorem step_idleIn_except {i : Nat} {w : Worker Cb} (hw : s.scheduler.workers[i]? = some w)
    (hpc : w.pc = .nothing) (hidle : s.idleFibers[i]? = some .EXCEPT) :
    ∃ s', s.Step (.idleIn i) s' ∧ s'.idleFibers[i]? = some .EXEC := by
  have hlt := (List.getElem?_eq_some_iff.mp hidle).1
  obtain ⟨scheduler, hexec⟩ : ∃ scheduler,
      s.scheduler.exec (.worker i (.idleIn false)) = .ok scheduler := by
    simp only [Scheduler.exec, hw, move, hpc]
    exact ⟨_, rfl⟩
  refine ⟨⟨scheduler, s.idleFibers.set i .EXEC⟩, ?_, List.getElem?_set_self hlt⟩
  simp only [Step, exec, idleIn, hidle, hexec]
  rfl

/-- In runs in which no finished fiber is scheduled, none finishes while a task of it
waits and `idle()` throws nothing, `swapIn` is never called for a finished fiber. A step
that breaks this leaves a task of a finished fiber waiting, or a worker with a failed
idle fiber; and for these `swapIn` is called. -/
theorem run_swapIn_unfinished {tids : List Int} {acts : List (Act Cb)}
    (run : Run (fun s act s' => s.Unfinished act ∧ s.Step act s') (init tids) acts s) :
    (∀ (i : Nat) w e fresh f s₁, s.scheduler.workers[i]? = some w → w.pc = .picked e →
      SwapInCall s.scheduler w e fresh f s₁ → ¬ Finished (s₁.fiberState f)) ∧
    (∀ i state, s.IdleCall i state → ¬ Finished state) ∧
    (∀ act s', s.Step act s' → ¬ s.Unfinished act →
      (∃ e ∈ s'.scheduler.waiting, ∃ f, e.ft.fiber = some f ∧
        Finished (s'.scheduler.fiberState f)) ∨ .EXCEPT ∈ s'.idleFibers) ∧
    (∀ (t : Loops Cb) (i : Nat) w e fresh f, t.scheduler.workers[i]? = some w →
      w.pc = .picked e → e.ft.fiber = some f → Finished (t.scheduler.fiberState f) →
      SwapInCall t.scheduler w e fresh f t.scheduler ∧
        t.scheduler.exec (.worker i (.startTask fresh)) =
          .ok ((t.scheduler.setState f .EXEC).setWorker i { w with pc := .swapped e f false })) ∧
    ∀ (t : Loops Cb) (i : Nat) w, t.scheduler.workers[i]? = some w → w.pc = .nothing →
      t.idleFibers[i]? = some .EXCEPT →
      t.IdleCall i .EXCEPT ∧ ∃ t', t.Step (.idleIn i) t' ∧ t'.idleFibers[i]? = some .EXEC := by
  have hclean : Clean s :=
    run.invariant (clean_init tids) fun _ _ _ h hstep => clean_step h hstep.1 hstep.2
  refine ⟨?_, ?_, ?_, ?_, ?_⟩
  · intro i w e fresh f s₁ hw hpc hcall
    cases hcall with
    | fiber f own => exact hclean.tasks e (mem_waiting.mpr (.inr ⟨i, w, hw, hpc⟩)) f own
    | cb s₁ own prepared =>
      -- the worker's own fiber has just been reset
      rw [prepareCbFiber_ok prepared,
        show (s.scheduler.setState _ .INIT).fiberState _ = .INIT from Function.update_self ..]
      decide
  · rintro i state ⟨-, hstate, hterm⟩ (rfl | rfl)
    · exact hterm rfl
    · exact hclean.idle (List.mem_of_getElem? hstate)
  · exact fun act s' hstep hbroken => finished_of_not_unfinished hclean hstep hbroken
  · intro t i w e fresh f hw hpc hf hfinished
    refine ⟨.fiber f hf, ?_⟩
    simp only [Scheduler.exec, hw, move, hpc]
    refine startTask_fiber hf (fun hexec => ?_) i w fresh
    rw [hexec] at hfinished
    exact absurd hfinished (by decide)
  · intro t i w hw hpc hidle
    exact ⟨⟨⟨w, hw, hpc⟩, hidle, by decide⟩, step_idleIn_except hw hpc hidle⟩

/-- A fiber yields and is picked again. -/
theorem run_swapIn_unfinished_yields :
    ∃ s, Run (fun s act s' => s.Unfinished act ∧ s.Step act s') (init [11] : Loops Nat)
      [.act (.worker 0 .pick), .idleIn 0, .act (.schedule (.fiber (some 7)) (-1)),
        .idleOut 0 .EXEC, .act (.worker 0 .pick), .act (.worker 0 (.startTask 0)),
        .act (.setState 7 .READY), .act (.worker 0 .endTask), .act (.worker 0 .requeue),
        .act (.worker 0 .pick)] s ∧
      ∀ w e fresh f s₁, s.scheduler.workers[0]? = some w → w.pc = .picked e →
        SwapInCall s.scheduler w e fresh f s₁ → ¬ Finished (s₁.fiberState f) := by
  obtain ⟨s, run⟩ : ∃ s, Run (fun s act s' => s.Unfinished act ∧ s.Step act s')
      (init [11] : Loops Nat)
      [.act (.worker 0 .pick), .idleIn 0, .act (.schedule (.fiber (some 7)) (-1)),
        .idleOut 0 .EXEC, .act (.worker 0 .pick), .act (.worker 0 (.startTask 0)),
        .act (.setState 7 .READY), .act (.worker 0 .endTask), .act (.worker 0 .requeue),
        .act (.worker 0 .pick)] s :=
    ⟨_, .cons ⟨trivial, rfl⟩ (.cons ⟨trivial, rfl⟩ (.cons ⟨show ¬ Finished .INIT by decide, rfl⟩
      (.cons ⟨show FiberState.EXEC ≠ .EXCEPT by decide, rfl⟩ (.cons ⟨trivial, rfl⟩
      (.cons ⟨trivial, rfl⟩ (.cons ⟨fun h => absurd h (by decide), rfl⟩ (.cons ⟨trivial, rfl⟩
      (.cons ⟨trivial, rfl⟩ (.cons ⟨trivial, rfl⟩ .start)))))))))⟩
  exact ⟨s, run, (run_swapIn_unfinished run).1 0⟩

/-- A fiber that has ended is scheduled again, and `swapIn` is called for it. -/
theorem finished_fiber_swapped_in :
    ∃ s s' : Loops Nat, Run Step (init [11])
      [.act (.schedule (.fiber (some 7)) (-1)), .act (.worker 0 .pick),
        .act (.worker 0 (.startTask 0)), .act (.setState 7 .TERM), .act (.worker 0 .endTask),
        .act (.worker 0 .requeue), .act (.worker 0 .rest),
        .act (.schedule (.fiber (some 7)) (-1)), .act (.worker 0 .pick)] s ∧
      s.scheduler.fiberState 7 = .TERM ∧ s.Step (.act (.worker 0 (.startTask 0))) s' ∧
      ∃ w w' e, s.scheduler.workers[0]? = some w ∧ w.pc = .picked e ∧
        SwapInCall s.scheduler w e 0 7 s.scheduler ∧
        s'.scheduler.workers[0]? = some w' ∧ w'.pc = .swapped e 7 false :=
  ⟨_, _, .cons rfl (.cons rfl (.cons rfl (.cons rfl (.cons rfl (.cons rfl (.cons rfl
    (.cons rfl (.cons rfl .start)))))))), rfl, rfl, _, _, _, rfl, rfl, .fiber 7 rfl, rfl, rfl⟩

end Loops

end Sylar.Scheduler
