import Sylar.IOManager.Invariant

/-! Runs of the event table in which `addEvent` is called for events that are
not registered and a dispatched report names registered events only. -/
namespace Sylar.IOManager

open Lib

variable {Cb : Type} {s s' : IOManager Cb} {c : FdContext Cb} {fd : Nat} {e : Event}
  {ctl : EpollCtl}

inductive Op (Cb : Type) where
  | addEvent (fd : Nat) (e : Event) (cb : Option Cb) (caller : Caller)
  | delEvent (fd : Nat) (e : Event)
  | cancelEvent (fd : Nat) (e : Event)
  | cancelAll (fd : Nat)
  | dispatch (fd : Nat) (ev : Reported)

inductive Out where
  | code (r : Int)
  | flag (b : Bool)
  | done
deriving Repr, DecidableEq

def Op.exec (s : IOManager Cb) (ctl : EpollCtl) : Op Cb → Except Fault (Out × IOManager Cb)
  | .addEvent fd e cb caller => do
    let (r, s) ← s.addEvent fd e cb caller ctl
    return (.code r, s)
  | .delEvent fd e => do
    let (b, s) ← s.delEvent fd e ctl
    return (.flag b, s)
  | .cancelEvent fd e => do
    let (b, s) ← s.cancelEvent fd e ctl
    return (.flag b, s)
  | .cancelAll fd => do
    let (b, s) ← s.cancelAll fd ctl
    return (.flag b, s)
  | .dispatch fd ev => do
    let s ← s.dispatch fd ev ctl
    return (.done, s)

def Reported.mask (ev : Reported) : Events := ⟨ev.EPOLLIN, ev.EPOLLOUT⟩

def Op.Enabled (s : IOManager Cb) : Op Cb → Prop
  | .addEvent fd e _ _ => (s.context fd).events.has e = false
  | .dispatch fd ev => fd < s.contexts.length ∧
      ∀ e, ev.mask.has e = true → (s.context fd).events.has e = true
  | _ => True

def Step (s : IOManager Cb) (a : (Op Cb × EpollCtl) × Out) (s' : IOManager Cb) : Prop :=
  a.1.1.Enabled s ∧ a.1.1.exec s a.1.2 = .ok (a.2, s')

theorem Sound.addEvent (h : Sound s) (he : (s.context fd).events.has e = false) (cb : Option Cb)
    (caller : Caller) (ctl : EpollCtl) :
    ∃ r s', s.addEvent fd e cb caller ctl = .ok (r, s') ∧ Sound s' ∧
      s'.scheduled = s.scheduled ∧ s'.dropped = s.dropped ∧
      s.contexts.length ≤ s'.contexts.length ∧
      (r = 0 ∧ s'.added = s.added + 1 ∨ r = -1 ∧ Same s s') ∧
      ((∀ op fd events, ctl op fd events = false) → r = -1) := by
  obtain ⟨hsound, hsame, hfd⟩ := h.reserve fd
  obtain ⟨c, hc⟩ : ∃ c, (s.reserve fd).contexts[fd]? = some c := ⟨_, List.getElem?_eq_getElem hfd⟩
  have he' : c.events.has e = false := by
    rw [← context_of_get hc, hsame.context]
    exact he
  obtain ⟨hsched, hfiber, hcb⟩ := (hsound.ok c (List.mem_of_getElem? hc)).vacant e he'
  simp only [IOManager.addEvent, deref_of_get hc, bind, Except.bind, he', Bool.false_eq_true,
    if_false]
  by_cases hctl : ctl (if c.events = .none then EpollOp.ADD else .MOD) fd (c.events.set e true) = false
  · refine ⟨-1, s.reserve fd, if_pos hctl, hsound, hsame.scheduled, hsame.dropped, hsame.grows,
      Or.inr ⟨rfl, hsame⟩, fun _ => rfl⟩
  · rw [if_neg hctl]
    have hvacant : ((c.getcontext e).scheduler.isSome || (c.getcontext e).fiber.isSome ||
        (c.getcontext e).cb.isSome) = false := by
      simp [hsched, hfiber, hcb]
    have hrunning : ¬ (cb.isNone && decide (caller.state ≠ .EXEC)) = true := by
      simp [caller.running]
    have hfill := hsound.fill hc he' (x := {
      scheduler := some caller.scheduler
      fiber := if cb.isSome then none else some caller.fiber
      cb
      serial := (s.reserve fd).added }) rfl (by cases cb <;> rfl) rfl
    refine ⟨0, _, ?_, hfill, hsame.scheduled, hsame.dropped,
      hsame.grows.trans List.length_set.ge, Or.inl ⟨rfl, congrArg (· + 1) hsame.added⟩, fun hall => absurd (hall _ _ _) hctl⟩
    rw [if_neg (by simp [hvacant]), if_neg hrunning]
    rfl

theorem Sound.delEvent (h : Sound s) (fd : Nat) (e : Event) (ctl : EpollCtl) :
    ∃ b s', s.delEvent fd e ctl = .ok (b, s') ∧ Sound s' ∧ s'.scheduled = s.scheduled ∧
      s.dropped <+: s'.dropped ∧ s'.added = s.added ∧
      s'.contexts.length = s.contexts.length ∧ (b = false → s' = s) ∧
      ((∀ op fd events, ctl op fd events = false) → b = false) := by
  by_cases hfd : s.contexts.length ≤ fd
  · exact ⟨false, s, if_pos hfd, h, rfl, List.prefix_refl _, rfl, rfl, fun _ => rfl, fun _ => rfl⟩
  obtain ⟨c, hc⟩ : ∃ c, s.contexts[fd]? = some c :=
    ⟨_, List.getElem?_eq_getElem (not_le.mp hfd)⟩
  simp only [IOManager.delEvent, if_neg hfd, deref_of_get hc, bind, Except.bind]
  cases he : c.events.has e with
  | false => exact ⟨false, s, rfl, h, rfl, List.prefix_refl _, rfl, rfl, fun _ => rfl, fun _ => rfl⟩
  | true =>
    simp only [Bool.true_eq_false, if_false]
    by_cases hctl : ctl (if c.events.set e false = .none then EpollOp.DEL else .MOD) fd
        (c.events.set e false) = false
    · exact ⟨false, s, if_pos hctl, h, rfl, List.prefix_refl _, rfl, rfl, fun _ => rfl, fun _ => rfl⟩
    · rw [if_neg hctl]
      refine ⟨true, _, rfl, ?_, rfl, List.prefix_append _ _, rfl, List.length_set, nofun,
        fun hall => absurd (hall _ _ _) hctl⟩
      apply h.clear hc he
      rw [← List.append_assoc]
      exact List.perm_append_singleton _ _

theorem Sound.cancelEvent (h : Sound s) (fd : Nat) (e : Event) (ctl : EpollCtl) :
    ∃ b s' n, s.cancelEvent fd e ctl = .ok (b, s') ∧ Triggers s s' n ∧ (b = false → s' = s) ∧
      ((∀ op fd events, ctl op fd events = false) → b = false) := by
  by_cases hfd : s.contexts.length ≤ fd
  · exact ⟨false, s, 0, if_pos hfd, .refl h, fun _ => rfl, fun _ => rfl⟩
  obtain ⟨c, hc⟩ : ∃ c, s.contexts[fd]? = some c :=
    ⟨_, List.getElem?_eq_getElem (not_le.mp hfd)⟩
  simp only [IOManager.cancelEvent, if_neg hfd, deref_of_get hc, bind, Except.bind]
  cases he : c.events.has e with
  | false => exact ⟨false, s, 0, rfl, .refl h, fun _ => rfl, fun _ => rfl⟩
  | true =>
    simp only [Bool.true_eq_false, if_false]
    by_cases hctl : ctl (if c.events.set e false = .none then EpollOp.DEL else .MOD) fd
        (c.events.set e false) = false
    · exact ⟨false, s, 0, if_pos hctl, .refl h, fun _ => rfl, fun _ => rfl⟩
    · obtain ⟨s', heq, htrig, -⟩ := h.trigger hc he
      rw [if_neg hctl, heq]
      exact ⟨true, s', 1, rfl, htrig, nofun, fun hall => absurd (hall _ _ _) hctl⟩

theorem Sound.cancelAll (h : Sound s) (fd : Nat) (ctl : EpollCtl) :
    ∃ b s' n, s.cancelAll fd ctl = .ok (b, s') ∧ Triggers s s' n := by
  by_cases hfd : s.contexts.length ≤ fd
  · exact ⟨false, s, 0, if_pos hfd, .refl h⟩
  obtain ⟨c, hc⟩ : ∃ c, s.contexts[fd]? = some c :=
    ⟨_, List.getElem?_eq_getElem (not_le.mp hfd)⟩
  simp only [IOManager.cancelAll, if_neg hfd, deref_of_get hc, bind, Except.bind]
  by_cases hev : c.events = .none
  · exact ⟨false, s, 0, if_pos hev, .refl h⟩
  · obtain ⟨s₁, c₁, heq₁, htrig₁, hc₁, hev₁⟩ := h.triggerIf hc .READ c.events id
    obtain ⟨s₂, c₂, heq₂, htrig₂, hc₂, hev₂⟩ :=
      htrig₁.sound.triggerIf hc₁ .WRITE c₁.events id
    have hempty : c₂.events = .none := by
      rw [Events.eq_none_iff]
      intro e
      cases e <;> simp [hev₂, hev₁]
    refine ⟨true, s₂, _, ?_, htrig₁.trans htrig₂⟩
    simp only [if_neg hev, heq₁, deref_of_get hc₁, heq₂, deref_of_get hc₂, hempty]
    rfl

@[simp] theorem Reported.has_realEvents (ev : Reported) (events : Events) (e : Event) :
    (ev.realEvents events).has e =
      (ev.mask.has e || ((ev.EPOLLERR || ev.EPOLLHUP) && events.has e)) := by
  cases e <;> rfl

theorem Sound.triggerBoth (h : Sound s) (hc : s.contexts[fd]? = some c) (mask : Events)
    (hsub : ∀ e, mask.has e = true → c.events.has e = true) :
    ∃ s' c', (do
        let s ← s.triggerIf fd mask .READ
        s.triggerIf fd mask .WRITE) = Except.ok s' ∧
      Triggers s s' mask.size ∧ s'.contexts[fd]? = some c' ∧ c'.events = c.events.diff mask := by
  obtain ⟨s₁, c₁, heq₁, htrig₁, hc₁, hev₁⟩ := h.triggerIf hc .READ mask (hsub .READ)
  obtain ⟨s₂, c₂, heq₂, htrig₂, hc₂, hev₂⟩ := htrig₁.sound.triggerIf hc₁ .WRITE mask (by
    intro hw
    simpa [hev₁, Events.none, Events.has, Events.set, Events.diff] using hsub .WRITE hw)
  refine ⟨s₂, c₂, ?_, htrig₁.trans htrig₂, hc₂, ?_⟩
  · simp only [heq₁, bind, Except.bind, heq₂]
  · rw [hev₂, hev₁]
    simp [Events.diff, Events.set, Events.none, Events.has]

/-- The dispatch of a report whose bits are all registered: each event in
`fired` was registered and is triggered once. -/
theorem Sound.dispatch (h : Sound s) (hc : s.contexts[fd]? = some c) {ev : Reported}
    (hsub : ∀ e, ev.mask.has e = true → c.events.has e = true) (ctl : EpollCtl) :
    ∃ s' c' fired, s.dispatch fd ev ctl = .ok s' ∧ Triggers s s' fired.size ∧
      s'.contexts[fd]? = some c' ∧ c'.events = c.events.diff fired ∧
      (∀ e, fired.has e = true → c.events.has e = true) ∧
      ((∀ op fd events, ctl op fd events = false) → s' = s) := by
  have hnone : s.contexts[fd]? = some c ∧ c.events = c.events.diff .none ∧
      ∀ e, Events.none.has e = true → c.events.has e = true :=
    ⟨hc, by simp [Events.diff, Events.none], by simp⟩
  simp only [IOManager.dispatch, deref_of_get hc, bind, Except.bind]
  by_cases hinter : c.events.inter (ev.realEvents c.events) = .none
  · exact ⟨s, c, .none, if_pos hinter, .refl h, hnone.1, hnone.2.1, hnone.2.2, fun _ => rfl⟩
  rw [if_neg hinter]
  by_cases hctl : ctl (if c.events.diff (ev.realEvents c.events) = .none then EpollOp.DEL else .MOD)
      c.fd (c.events.diff (ev.realEvents c.events)) = false
  · exact ⟨s, c, .none, if_pos hctl, .refl h, hnone.1, hnone.2.1, hnone.2.2, fun _ => rfl⟩
  · have hreal : ∀ e, (ev.realEvents c.events).has e = true → c.events.has e = true := by
      intro e he
      rw [ev.has_realEvents] at he
      rcases Bool.or_eq_true_iff.mp he with he | he
      · exact hsub e he
      · exact (Bool.and_eq_true_iff.mp he).2
    obtain ⟨s', c', heq, htrig, hc', hev'⟩ := h.triggerBoth hc _ hreal
    rw [if_neg hctl]
    exact ⟨s', c', _, heq, htrig, hc', hev', hreal, fun hall => absurd (hall _ _ _) hctl⟩

/-- What a step may do: the records of scheduled and of dropped registrations
only grow, each by its own operations, and a failing `epoll_ctl` changes nothing
unless the step is a `cancelAll`. -/
structure Outcome (op : Op Cb) (ctl : EpollCtl) (s : IOManager Cb) (out : Out)
    (s' : IOManager Cb) : Prop where
  scheduled : s.scheduled <+: s'.scheduled
  dropped : s.dropped <+: s'.dropped
  schedules : s'.scheduled ≠ s.scheduled →
    (∃ fd e, op = .cancelEvent fd e) ∨ (∃ fd, op = .cancelAll fd) ∨ ∃ fd ev, op = .dispatch fd ev
  drops : s'.dropped ≠ s.dropped → ∃ fd e, op = .delEvent fd e
  adds : s'.added = s.added + if out = .code 0 then 1 else 0
  grows : s.contexts.length ≤ s'.contexts.length
  fails : (∀ op fd events, ctl op fd events = false) → (∀ fd, op ≠ .cancelAll fd) → Same s s'

theorem Triggers.outcome {n : Nat} (h : Triggers s s' n) {op : Op Cb} {out : Out}
    (hop : (∃ fd e, op = .cancelEvent fd e) ∨ (∃ fd, op = .cancelAll fd) ∨
      ∃ fd ev, op = .dispatch fd ev) (hout : out ≠ .code 0)
    (hfails : (∀ op fd events, ctl op fd events = false) → (∀ fd, op ≠ .cancelAll fd) →
      Same s s') : Outcome op ctl s out s' where
  scheduled := by
    obtain ⟨entries, heq, -⟩ := h.scheduled
    rw [heq]
    exact List.prefix_append _ _
  dropped := h.dropped ▸ List.prefix_refl _
  schedules := fun _ => hop
  drops := absurd h.dropped
  adds := by simpa [hout] using h.added
  grows := h.size.ge
  fails := hfails

theorem Sound.step (h : Sound s) {op : Op Cb} (hop : op.Enabled s) (ctl : EpollCtl) :
    ∃ out s', op.exec s ctl = .ok (out, s') ∧ Sound s' ∧ Outcome op ctl s out s' := by
  cases op with
  | addEvent fd e cb caller =>
    obtain ⟨r, s', heq, hsound, hsched, hdrop, hgrows, hadded, hfail⟩ := h.addEvent hop cb caller ctl
    refine ⟨.code r, s', ?_, hsound, ?_⟩
    · simp only [Op.exec, heq, bind, Except.bind]
      rfl
    · refine ⟨hsched ▸ List.prefix_refl _, hdrop ▸ List.prefix_refl _, absurd hsched,
        absurd hdrop, ?_, hgrows, ?_⟩
      · rcases hadded with ⟨rfl, hadded⟩ | ⟨rfl, hsame⟩
        · simpa using hadded
        · simpa using hsame.added
      · intro hall _
        rcases hadded with ⟨rfl, -⟩ | ⟨-, hsame⟩
        · exact absurd (hfail hall) (by decide)
        · exact hsame
  | delEvent fd e =>
    obtain ⟨b, s', heq, hsound, hsched, hdrop, hadded, hsize, hkeep, hfail⟩ := h.delEvent fd e ctl
    refine ⟨.flag b, s', ?_, hsound, ?_⟩
    · simp only [Op.exec, heq, bind, Except.bind]
      rfl
    · refine ⟨hsched ▸ List.prefix_refl _, hdrop, absurd hsched, fun _ => ⟨fd, e, rfl⟩,
        by simpa using hadded, hsize.ge, ?_⟩
      intro hall _
      rw [hkeep (hfail hall)]
      exact .refl s
  | cancelEvent fd e =>
    obtain ⟨b, s', n, heq, htrig, hkeep, hfail⟩ := h.cancelEvent fd e ctl
    refine ⟨.flag b, s', ?_, htrig.sound, htrig.outcome (.inl ⟨fd, e, rfl⟩) nofun ?_⟩
    · simp only [Op.exec, heq, bind, Except.bind]
      rfl
    · intro hall _
      rw [hkeep (hfail hall)]
      exact .refl s
  | cancelAll fd =>
    obtain ⟨b, s', n, heq, htrig⟩ := h.cancelAll fd ctl
    refine ⟨.flag b, s', ?_, htrig.sound, htrig.outcome (.inr (.inl ⟨fd, rfl⟩)) nofun
      fun _ hne => absurd rfl (hne fd)⟩
    simp only [Op.exec, heq, bind, Except.bind]
    rfl
  | dispatch fd ev =>
    obtain ⟨hfd, hsub⟩ := hop
    obtain ⟨c, hc⟩ : ∃ c, s.contexts[fd]? = some c := ⟨_, List.getElem?_eq_getElem hfd⟩
    rw [context_of_get hc] at hsub
    obtain ⟨s', c', fired, heq, htrig, -, -, -, hfail⟩ := h.dispatch hc hsub ctl
    refine ⟨.done, s', ?_, htrig.sound, htrig.outcome (.inr (.inr ⟨fd, ev, rfl⟩)) nofun ?_⟩
    · simp only [Op.exec, heq, bind, Except.bind]
      rfl
    · intro hall _
      rw [hfail hall]
      exact .refl s

theorem Sound.of_step (h : Sound s) {a : (Op Cb × EpollCtl) × Out} (hstep : Step s a s') :
    Sound s' ∧ Outcome a.1.1 a.1.2 s a.2 s' := by
  obtain ⟨out, t, heq, hsound, houtcome⟩ := h.step hstep.1 a.1.2
  have hsame := heq.symm.trans hstep.2
  cases hsame
  exact ⟨hsound, houtcome⟩

theorem FdContext.Ok.has_iff (h : c.Ok) (e : Event) :
    c.events.has e = true ↔ (c.getcontext e).scheduler.isSome = true ∧
      (c.getcontext e).fiber.isSome = !(c.getcontext e).cb.isSome := by
  refine ⟨h.registered e, fun hfilled => ?_⟩
  by_contra hvacant
  have hnone := (h.vacant e (by simpa using hvacant)).1
  rw [hnone] at hfilled
  exact absurd hfilled.1 (by decide)

theorem length_pending_eq_sum (s : IOManager Cb) :
    s.pending.length = (s.contexts.map fun c => c.events.size).sum := by
  rw [pending, List.length_flatMap]
  simp only [FdContext.length_pending]

/-- In every reachable state the masks say which contexts are filled and the
counter is their number of bits; every registration is pending, scheduled or
dropped, once; and the operations run without a failing assertion. -/
theorem run_events_accounted {acts : List ((Op Cb × EpollCtl) × Out)} {s : IOManager Cb}
    (run : Run Step init acts s) :
    (∀ c ∈ s.contexts, ∀ e, c.events.has e = true ↔
      (c.getcontext e).scheduler.isSome = true ∧
        (c.getcontext e).fiber.isSome = !(c.getcontext e).cb.isSome) ∧
    s.pendingEventCount = (s.contexts.map fun c => c.events.size).sum ∧
    s.added = acts.countP (·.2 = .code 0) ∧
    (s.pending ++ (s.scheduled.map Scheduled.serial ++ s.dropped)).Perm (List.range s.added) ∧
    ∀ (op : Op Cb) ctl, op.Enabled s →
      ∃ out s', op.exec s ctl = .ok (out, s') ∧ Outcome op ctl s out s' := by
  obtain ⟨h, hadded⟩ := run.history
    (I := fun acts s => Sound s ∧ s.added = acts.countP (·.2 = .code 0)) ⟨sound_init, rfl⟩ (by
      rintro acts s a s' ⟨h, hadded⟩ hstep
      obtain ⟨hsound, houtcome⟩ := h.of_step hstep
      refine ⟨hsound, ?_⟩
      rw [houtcome.adds, hadded, List.countP_append]
      simp [List.countP_cons])
  refine ⟨fun c hc e => (h.ok c hc).has_iff e, h.count.trans s.length_pending_eq_sum, hadded,
    h.serials, ?_⟩
  intro op ctl hop
  obtain ⟨out, s', heq, -, houtcome⟩ := h.step hop ctl
  exact ⟨out, s', heq, houtcome⟩

/-- A fiber waits for input and a callback for output; the input is reported,
the callback is dropped, and a last registration is cancelled. -/
theorem run_events_accounted_twoDescriptors :
    ∃ acts s, Run Step (init : IOManager Nat) acts s ∧
      s.scheduled.map Scheduled.serial = [0, 2] ∧ s.dropped = [1] ∧
      s.pendingEventCount = 0 ∧ s.added = acts.countP (·.2 = .code 0) := by
  let caller : Caller := ⟨0, 7, .EXEC, rfl⟩
  let succeed : EpollCtl := fun _ _ _ => true
  obtain ⟨s, run, hsched, hdrop, hcount⟩ : ∃ s, Run Step (init : IOManager Nat)
      [((.addEvent 3 .READ none caller, succeed), .code 0),
        ((.addEvent 3 .WRITE (some 5) caller, succeed), .code 0),
        ((.dispatch 3 ⟨true, false, false, false⟩, succeed), .done),
        ((.delEvent 3 .WRITE, succeed), .flag true),
        ((.addEvent 4 .WRITE none caller, succeed), .code 0),
        ((.cancelEvent 4 .WRITE, fun _ _ _ => false), .flag false),
        ((.cancelAll 4, succeed), .flag true)] s ∧
      s.scheduled.map Scheduled.serial = [0, 2] ∧ s.dropped = [1] ∧ s.pendingEventCount = 0 :=
    ⟨_, .cons ⟨rfl, rfl⟩ (.cons ⟨rfl, rfl⟩ (.cons
      ⟨⟨by decide, by intro e he; cases e; exacts [rfl, nomatch he]⟩, rfl⟩ (.cons ⟨trivial, rfl⟩
      (.cons ⟨rfl, rfl⟩ (.cons ⟨trivial, rfl⟩ (.cons ⟨trivial, rfl⟩ .start)))))), rfl, rfl, rfl⟩
  exact ⟨_, s, run, hsched, hdrop, hcount, (run_events_accounted run).2.2.1⟩

end Sylar.IOManager
