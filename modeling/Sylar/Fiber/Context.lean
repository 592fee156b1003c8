import Sylar.Lib.Run
import Sylar.Scheduler.Basic

/-! The fibers of one thread and the contexts they are switched by. The code of a fiber is
cut into pieces, each of which ends with one call of fiber.cc. -/
namespace Sylar

/-- A context: the code that the `turn`-th `makecontext` of `owner` started goes on at piece
`pc`, or, if `ended`, at the assertion behind the last `swapOut` of `MainFunc`. -/
structure Ucontext where
  owner : Nat
  turn : Nat
  pc : Nat
  ended : Bool
deriving Repr, DecidableEq

/-- `turn` counts the calls of `makecontext`. -/
structure Fiber where
  state : FiberState
  ctx : Ucontext
  stack : Bool
  useCaller : Bool
  turn : Nat

namespace Fiber

/-- `tFiber` and `threadFiber` are the variables of fiber.cc, `mainFiber` is the one that
`Scheduler::GetMainFiber` reads, `cpu` the code that runs, and `log` all that has run. -/
structure Thread where
  tFiber : Nat
  threadFiber : Nat
  mainFiber : Nat
  fibers : Nat → Fiber
  cpu : Ucontext
  log : List Ucontext

/-- The call at the end of a piece: `work` is none of fiber.cc, `hold` what `Scheduler::run`
does after a `swapIn`, and `finish` the end of `MainFunc` or `CallerMainFunc`. -/
inductive Call where
  | work
  | reset (i : Nat)
  | hold (i : Nat)
  | swapIn (i : Nat)
  | call (i : Nat)
  | yieldToReady
  | yieldToHold
  | finish (thrown : Bool)

def Call.ends : Call → Bool
  | .finish _ => true
  | _ => false

namespace Thread

def put (i : Nat) (f : Fiber) (t : Thread) : Thread :=
  { t with fibers := Function.update t.fibers i f }

def setState (i : Nat) (state : FiberState) (t : Thread) : Thread :=
  t.put i { t.fibers i with state }

def setThis (i : Nat) (t : Thread) : Thread := { t with tFiber := i }

/-- The context is stored before the other one is loaded: they may be those of one fiber. -/
def swapcontext (save load : Nat) (t : Thread) : Thread :=
  let t := t.put save { t.fibers save with ctx := t.cpu }
  { t with cpu := (t.fibers load).ctx }

def swapIn (i : Nat) (t : Thread) : Option Thread :=
  if (t.fibers i).state = .EXEC then none
  else some (((t.setThis i).setState i .EXEC).swapcontext t.mainFiber i)

def swapOut (i : Nat) (t : Thread) : Thread :=
  (t.setThis t.mainFiber).swapcontext i t.mainFiber

def call (i : Nat) (t : Thread) : Thread :=
  ((t.setThis i).setState i .EXEC).swapcontext t.threadFiber i

def back (i : Nat) (t : Thread) : Thread :=
  (t.setThis t.threadFiber).swapcontext i t.threadFiber

/-- Both yields; `YieldToHold` leaves the state as it is. -/
def yieldTo (state : FiberState) (t : Thread) : Option Thread :=
  if (t.fibers t.tFiber).state = .EXEC then some ((t.setState t.tFiber state).swapOut t.tFiber)
  else none

def reset (i : Nat) (t : Thread) : Option Thread :=
  let f := t.fibers i
  if f.stack ∧ (f.state = .TERM ∨ f.state = .EXCEPT ∨ f.state = .INIT) then
    some (t.put i { f with
      state := .INIT, ctx := ⟨i, f.turn + 1, 0, false⟩, useCaller := false, turn := f.turn + 1 })
  else none

/-- `cur` of `MainFunc` was read from `t_fiber` when the code started, which was when the
fiber was switched to: it is the owner of the code. -/
def finish (thrown : Bool) (t : Thread) : Option Thread :=
  let cur := t.cpu.owner
  let gone := t.setState cur (if thrown then .EXCEPT else .TERM)
  if (t.fibers cur).stack = false then none
  else if (t.fibers cur).useCaller then some (gone.back cur)
  else some (gone.swapOut cur)

def hold (i : Nat) (t : Thread) : Thread :=
  if (t.fibers i).state ∈ [.READY, .TERM, .EXCEPT] then t else t.setState i .HOLD

def tick (ended : Bool) (t : Thread) : Thread :=
  { t with cpu := { t.cpu with pc := t.cpu.pc + 1, ended }, log := t.log ++ [t.cpu] }

def act (t : Thread) : Call → Option Thread
  | .work => some t
  | .reset i => t.reset i
  | .hold i => some (t.hold i)
  | .swapIn i => t.swapIn i
  | .call i => some (t.call i)
  | .yieldToReady => t.yieldTo .READY
  | .yieldToHold => t.yieldTo .EXEC
  | .finish thrown => t.finish thrown

/-- `none`: an assertion of the source ends the process. -/
def step (t : Thread) (c : Call) : Option Thread :=
  if t.cpu.ended then none else (t.tick c.ends).act c

/-- A thread that runs its own main fiber, 0. The scheduler's is the same one, or with
`use_caller` a fiber of its own. The others are as their constructors leave them. -/
def init (main : Nat) : Thread where
  tFiber := 0
  threadFiber := 0
  mainFiber := main
  fibers := fun i => if i = 0 then ⟨.EXEC, ⟨0, 0, 0, false⟩, false, false, 0⟩
    else ⟨.INIT, ⟨i, 0, 0, false⟩, true, decide (i = main), 0⟩
  cpu := ⟨0, 0, 0, false⟩
  log := []

/-- Who calls what, as in scheduler.cc: `swapIn` the main fiber of the scheduler, `call` that of
the thread, and nobody resets or holds the fiber that runs. -/
def Allowed (t : Thread) : Call → Prop
  | .swapIn _ => t.cpu.owner = t.mainFiber
  | .call _ => t.cpu.owner = t.threadFiber
  | .reset i | .hold i => i ≠ t.cpu.owner
  | _ => True

def Step (t : Thread) (c : Call) (t' : Thread) : Prop := t.Allowed c ∧ t.step c = some t'

/-- The pieces that have run of the code that the `turn`-th `makecontext` of fiber `i`
started. -/
def pieces (log : List Ucontext) (i turn : Nat) : List Nat :=
  (log.filter fun c => c.owner = i ∧ c.turn = turn).map (·.pc)

/-- The context is one of this `makecontext`, behind the last of its pieces that has run. -/
def Stands (log : List Ucontext) (i turn : Nat) (c : Ucontext) : Prop :=
  c.owner = i ∧ c.turn = turn ∧ pieces log i turn = List.range c.pc

structure Kept (fibers : Nat → Fiber) (cpu : Ucontext) (log : List Ucontext) : Prop where
  running : Stands log cpu.owner (fibers cpu.owner).turn cpu
  saved : ∀ i, i ≠ cpu.owner → Stands log i (fibers i).turn (fibers i).ctx
  later : ∀ i turn, (fibers i).turn < turn → pieces log i turn = []
  order : ∀ i turn, ∃ n, pieces log i turn = List.range n

variable {fibers : Nat → Fiber} {cpu : Ucontext} {log : List Ucontext} {t t' : Thread}
  {f : Fiber} {i load : Nat}

@[simp] theorem pieces_snoc (log : List Ucontext) (c : Ucontext) (i turn : Nat) :
    pieces (log ++ [c]) i turn =
      pieces log i turn ++ if c.owner = i ∧ c.turn = turn then [c.pc] else [] := by
  unfold pieces
  rw [List.filter_append, List.map_append]
  congr 1
  split <;> simp_all

theorem Kept.tick (h : Kept fibers cpu log) (ended : Bool) :
    Kept fibers { cpu with pc := cpu.pc + 1, ended } (log ++ [cpu]) := by
  obtain ⟨-, hturn, hran⟩ := h.running
  -- Only the code that runs has one more piece.
  have hother : ∀ i turn, (i = cpu.owner → turn ≠ (fibers i).turn) →
      pieces (log ++ [cpu]) i turn = pieces log i turn := by
    intro i turn hne
    rw [pieces_snoc, if_neg, List.append_nil]
    rintro ⟨rfl, rfl⟩
    exact hne rfl hturn
  have hsame : pieces (log ++ [cpu]) cpu.owner (fibers cpu.owner).turn =
      List.range (cpu.pc + 1) := by
    rw [pieces_snoc, hran, if_pos ⟨rfl, hturn⟩, List.range_succ]
  refine ⟨⟨rfl, hturn, hsame⟩, fun i hi => ?_, fun i turn hlt => ?_, fun i turn => ?_⟩
  · obtain ⟨howner, hturn', hran'⟩ := h.saved i hi
    exact ⟨howner, hturn', (hother i _ fun hi' => absurd hi' hi).trans hran'⟩
  · rw [hother i turn fun _ => Nat.ne_of_gt hlt, h.later i turn hlt]
  · by_cases hi : i = cpu.owner ∧ turn = (fibers i).turn
    · obtain ⟨rfl, rfl⟩ := hi
      exact ⟨_, hsame⟩
    · rw [hother i turn fun hi' hturn => hi ⟨hi', hturn⟩]
      exact h.order i turn

theorem Kept.put (h : Kept fibers cpu log) (hi : i ≠ cpu.owner) (hf : Stands log i f.turn f.ctx)
    (hturn : (fibers i).turn ≤ f.turn) : Kept (Function.update fibers i f) cpu log := by
  refine ⟨?_, fun j hj => ?_, fun j turn hlt => h.later j turn ?_, h.order⟩
  · rw [Function.update_of_ne hi.symm]
    exact h.running
  · rw [Function.update_apply]
    split
    · subst j
      exact hf
    · exact h.saved j hj
  · rw [Function.update_apply] at hlt
    split at hlt
    · subst j
      exact Nat.lt_of_le_of_lt hturn hlt
    · exact hlt

theorem Kept.setState (h : Kept fibers cpu log) (i : Nat) (state : FiberState) :
    Kept (Function.update fibers i { fibers i with state }) cpu log := by
  have hfibers : ∀ j, (Function.update fibers i { fibers i with state } j).turn = (fibers j).turn ∧
      (Function.update fibers i { fibers i with state } j).ctx = (fibers j).ctx := by
    intro j
    rw [Function.update_apply]
    split
    · subst j
      exact ⟨rfl, rfl⟩
    · exact ⟨rfl, rfl⟩
  refine ⟨?_, fun j hj => ?_, fun j turn => ?_, h.order⟩
  · rw [(hfibers _).1]
    exact h.running
  · rw [(hfibers j).1, (hfibers j).2]
    exact h.saved j hj
  · rw [(hfibers j).1]
    exact h.later j turn

/-- The code that runs is stored where it belongs: every fiber stays where it is. -/
theorem Kept.switch (h : Kept t.fibers t.cpu t.log) (load : Nat) :
    Kept (t.swapcontext t.cpu.owner load).fibers (t.swapcontext t.cpu.owner load).cpu t.log ∧
      (t.swapcontext t.cpu.owner load).cpu.owner = load := by
  have hctx : ∀ i, Stands t.log i ((t.swapcontext t.cpu.owner load).fibers i).turn
      ((t.swapcontext t.cpu.owner load).fibers i).ctx ∧
      ((t.swapcontext t.cpu.owner load).fibers i).turn = (t.fibers i).turn := by
    intro i
    simp only [swapcontext, Thread.put, Function.update_apply]
    split
    · subst i
      exact ⟨h.running, rfl⟩
    · exact ⟨h.saved i ‹_›, rfl⟩
  have howner : (t.swapcontext t.cpu.owner load).cpu.owner = load := (hctx load).1.1
  refine ⟨⟨?_, fun i _ => (hctx i).1, fun i turn hlt => h.later i turn ?_, h.order⟩, howner⟩
  · rw [howner]
    exact (hctx load).1
  · exact (hctx i).2 ▸ hlt

/-- What every call keeps. A fiber that is none of the two main fibers runs in `EXEC`. -/
structure Coherent (t : Thread) : Prop where
  this : t.tFiber = t.cpu.owner
  exec : t.cpu.owner ≠ t.mainFiber → t.cpu.owner ≠ t.threadFiber →
    (t.fibers t.cpu.owner).state = .EXEC
  kept : Kept t.fibers t.cpu t.log

theorem Coherent.put (h : t.Coherent) (hi : i ≠ t.cpu.owner)
    (hf : Stands t.log i f.turn f.ctx) (hturn : (t.fibers i).turn ≤ f.turn) :
    (t.put i f).Coherent := by
  refine ⟨h.this, fun hmain hthread => ?_, h.kept.put hi hf hturn⟩
  simp only [Thread.put, Function.update_of_ne hi.symm]
  exact h.exec hmain hthread

theorem Coherent.of_switch (hkept : Kept t.fibers t.cpu t.log) (this : t.tFiber = load)
    (hexec : load ≠ t.mainFiber → load ≠ t.threadFiber → (t.fibers load).state = .EXEC) :
    (t.swapcontext t.cpu.owner load).Coherent := by
  obtain ⟨hkept', howner⟩ := hkept.switch load
  refine ⟨this.trans howner.symm, fun hmain hthread => ?_, hkept'⟩
  rw [howner] at hmain hthread ⊢
  simp only [swapcontext, Thread.put, Function.update_apply]
  split
  · rename_i heq
    exact heq ▸ hexec hmain hthread
  · exact hexec hmain hthread

theorem Coherent.of_enter (h : t.Coherent) {save : Nat} (hsave : t.cpu.owner = save) (i : Nat) :
    (((t.setThis i).setState i .EXEC).swapcontext save i).Coherent := by
  subst save
  apply of_switch (t := (t.setThis i).setState i .EXEC) (h.kept.setState i .EXEC) rfl
  intro _ _
  simp [Thread.setState, Thread.put, setThis]

theorem Coherent.of_leave (h : t.Coherent) (state : FiberState) {main : Nat}
    (hmain : main = t.mainFiber ∨ main = t.threadFiber) :
    (((t.setState t.cpu.owner state).setThis main).swapcontext t.cpu.owner main).Coherent := by
  apply of_switch (t := (t.setState t.cpu.owner state).setThis main)
    (h.kept.setState t.cpu.owner state) rfl
  intro hne hne'
  exact absurd hmain (not_or.mpr ⟨hne, hne'⟩)

theorem Coherent.of_yieldTo {state : FiberState} (h : t.Coherent)
    (hact : t.yieldTo state = some t') : t'.Coherent := by
  obtain ⟨-, hact⟩ := Option.ite_none_right_eq_some.mp hact
  rw [h.this] at hact
  exact Option.some.inj hact ▸ h.of_leave state (.inl rfl)

theorem Coherent.act (h : t.Coherent) {c : Call} (hallowed : t.Allowed c)
    (hact : t.act c = some t') : t'.Coherent := by
  cases c with
  | work => exact Option.some.inj hact ▸ h
  | reset i =>
    obtain ⟨-, hact⟩ := Option.ite_none_right_eq_some.mp hact
    obtain rfl := Option.some.inj hact
    exact h.put hallowed ⟨rfl, rfl, h.kept.later i _ (Nat.lt_succ_self _)⟩ (Nat.le_succ _)
  | hold i =>
    obtain rfl := Option.some.inj hact
    unfold Thread.hold
    split
    · exact h
    · exact h.put hallowed (h.kept.saved i hallowed) (Nat.le_refl _)
  | swapIn i =>
    obtain ⟨-, hact⟩ := Option.ite_none_left_eq_some.mp hact
    obtain rfl := Option.some.inj hact
    exact h.of_enter hallowed i
  | call i =>
    obtain rfl := Option.some.inj hact
    exact h.of_enter hallowed i
  | yieldToReady => exact h.of_yieldTo hact
  | yieldToHold => exact h.of_yieldTo hact
  | finish thrown =>
    obtain ⟨-, hact⟩ := Option.ite_none_left_eq_some.mp hact
    rcases ite_eq_iff.mp hact with ⟨-, hact⟩ | ⟨-, hact⟩
    · exact Option.some.inj hact ▸ h.of_leave _ (.inr rfl)
    · exact Option.some.inj hact ▸ h.of_leave _ (.inl rfl)

theorem Coherent.step (h : t.Coherent) {c : Call} (hstep : t.Step c t') : t'.Coherent := by
  obtain ⟨hallowed, hstep⟩ := hstep
  obtain ⟨-, hact⟩ := Option.ite_none_left_eq_some.mp hstep
  have htick : (t.tick c.ends).Coherent := ⟨h.this, h.exec, h.kept.tick _⟩
  exact htick.act (by cases c <;> exact hallowed) hact

theorem coherent_init (main : Nat) : (init main).Coherent := by
  refine ⟨rfl, fun _ h => absurd rfl h, ⟨rfl, rfl, rfl⟩, fun i hi => ?_, fun _ _ _ => rfl,
    fun _ _ => ⟨0, rfl⟩⟩
  have hi : i ≠ 0 := hi
  simp only [init, if_neg hi]
  exact ⟨rfl, rfl, rfl⟩

theorem Coherent.run {main : Nat} {calls : List Call} (run : Lib.Run Step (init main) calls t) :
    t.Coherent :=
  run.invariant (coherent_init main) fun _ _ _ h hstep => h.step hstep

/-- Fiber 1 has been started by the main fiber of its thread, has yielded and is resumed. -/
def resumed : Thread :=
  ([.swapIn 1, .yieldToHold, .hold 1, .swapIn 1].foldlM step (init 0)).get rfl

theorem resumed_run :
    Lib.Run Step (init 0) [.swapIn 1, .yieldToHold, .hold 1, .swapIn 1] resumed :=
  have started : Lib.Run Step (init 0) [.swapIn 1] _ := .snoc .start ⟨rfl, rfl⟩
  have yielded : Lib.Run Step (init 0) [.swapIn 1, .yieldToHold] _ := .snoc started ⟨trivial, rfl⟩
  have held : Lib.Run Step (init 0) [.swapIn 1, .yieldToHold, .hold 1] _ :=
    .snoc yielded ⟨nofun, rfl⟩
  .snoc held ⟨rfl, rfl⟩

/-- However the fibers of a thread are switched, `t_fiber` is the one whose code runs, and of
the code of each fiber every piece has run once and in order: no context is lost, none is
resumed twice. -/
theorem pieces_inOrder (main : Nat) (calls : List Call) (t : Thread)
    (run : Lib.Run Step (init main) calls t) :
    t.tFiber = t.cpu.owner ∧ ∀ i turn, ∃ n, pieces t.log i turn = List.range n :=
  ⟨(Coherent.run run).this, (Coherent.run run).kept.order⟩

theorem pieces_inOrder_resumed :
    resumed.tFiber = 1 ∧ resumed.cpu.owner = 1 ∧ pieces resumed.log 0 0 = [0, 1, 2] ∧
      (∃ n, pieces resumed.log 0 0 = List.range n) ∧
        ∃ n, pieces resumed.log 1 0 = List.range n := by
  obtain ⟨hthis, horder⟩ := pieces_inOrder 0 _ resumed resumed_run
  exact ⟨rfl, hthis.symm, rfl, horder 0 0, horder 1 0⟩

/-- A fiber that the scheduler runs can yield whenever it wants to, and the main fiber goes on
behind the last of its pieces. -/
theorem yield_resumes_main (main : Nat) (calls : List Call) (t : Thread) (c : Call)
    (run : Lib.Run Step (init main) calls t) (hmain : t.cpu.owner ≠ t.mainFiber)
    (hthread : t.cpu.owner ≠ t.threadFiber) (hended : t.cpu.ended = false)
    (hc : c = .yieldToReady ∨ c = .yieldToHold) :
    ∃ t', t.Step c t' ∧ t'.cpu.owner = t.mainFiber ∧
      pieces t'.log t.mainFiber t'.cpu.turn = List.range t'.cpu.pc := by
  have h := Coherent.run run
  have hexec : (t.fibers t.tFiber).state = .EXEC := h.this ▸ h.exec hmain hthread
  have hstep : ∃ t', t.Step c t' ∧ t'.tFiber = t.mainFiber := by
    rcases hc with rfl | rfl
    · exact ⟨_, ⟨trivial, (if_neg (by simp [hended])).trans (if_pos hexec)⟩, rfl⟩
    · exact ⟨_, ⟨trivial, (if_neg (by simp [hended])).trans (if_pos hexec)⟩, rfl⟩
  obtain ⟨t', hstep, hthis⟩ := hstep
  have h' := h.step hstep
  obtain ⟨-, hturn, hran⟩ := h'.kept.running
  refine ⟨t', hstep, h'.this.symm.trans hthis, ?_⟩
  rw [← hthis, h'.this, hturn]
  exact hran

theorem yield_resumes_main_resumed :
    ∃ t', resumed.Step .yieldToHold t' ∧ t'.cpu.owner = 0 ∧
      pieces t'.log 0 t'.cpu.turn = List.range t'.cpu.pc ∧ t'.cpu.pc = 3 := by
  obtain ⟨t', hstep, howner, hran⟩ := yield_resumes_main 0 _ resumed .yieldToHold resumed_run
    (by decide) (by decide) rfl (.inr rfl)
  have hpc : (some t').map (·.cpu.pc) = some 3 := hstep.2 ▸ rfl
  exact ⟨t', hstep, howner, hran, Option.some.inj hpc⟩

end Thread
end Fiber
end Sylar
