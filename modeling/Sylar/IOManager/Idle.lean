import Sylar.IOManager.Runs

/-! The workers' loop over a batch of reported events. A report is handled some
time after `epoll_wait` returned it; the other threads register and cancel
events in between. -/
namespace Sylar.IOManager

open Lib

variable {Cb : Type} {s s' : IOManager Cb} {c : FdContext Cb} {fd : Nat} {ev : Reported}

/-- Some of what a report stands for is registered, and some of what it names
is not any more. -/
def Reported.PartlyStale (ev : Reported) (events : Events) : Prop :=
  (∃ e, ev.mask.has e = true ∧ events.has e = false) ∧
    ∃ e, events.has e = true ∧ (ev.mask.has e || (ev.EPOLLERR || ev.EPOLLHUP)) = true

theorem Reported.inter_realEvents_eq_none (ev : Reported) (events : Events) :
    events.inter (ev.realEvents events) = .none ↔
      ¬ ∃ e, events.has e = true ∧ (ev.mask.has e || (ev.EPOLLERR || ev.EPOLLHUP)) = true := by
  rw [Events.eq_none_iff, not_exists]
  apply forall_congr'
  intro e
  rw [Events.has_inter, ev.has_realEvents]
  cases events.has e <;> simp

theorem trigger_unregistered (hc : s.contexts[fd]? = some c) {e : Event}
    (he : c.events.has e = false) :
    s.trigger fd e = .error (.assertion "events & event") := by
  simp [trigger, deref_of_get hc, FdContext.triggerEvent, he, bind, Except.bind]

theorem Sound.triggerBoth_unregistered (h : Sound s) (hc : s.contexts[fd]? = some c)
    {mask : Events} {e : Event} (hmask : mask.has e = true) (he : c.events.has e = false) :
    (do
      let s ← s.triggerIf fd mask .READ
      s.triggerIf fd mask .WRITE) = Except.error (.assertion "events & event") := by
  by_cases hread : mask.has .READ = true → c.events.has .READ = true
  · -- the first trigger goes through, so the missing event is the second one
    obtain ⟨s₁, c₁, heq₁, -, hc₁, hev₁⟩ := h.triggerIf hc .READ mask hread
    obtain rfl : e = .WRITE := by
      cases e with
      | READ => rw [hread hmask] at he; cases he
      | WRITE => rfl
    simp only [heq₁, bind, Except.bind]
    rw [IOManager.triggerIf, if_pos hmask]
    apply trigger_unregistered hc₁
    rw [hev₁, Events.has_diff, he]
    rfl
  · obtain ⟨hmask', he'⟩ : mask.has .READ = true ∧ c.events.has .READ = false := by
      simpa using hread
    simp only [IOManager.triggerIf, hmask', if_true, trigger_unregistered hc he', bind, Except.bind]

/-- A report that has become stale in part runs into the assertion of
`triggerEvent`, once `epoll_ctl` has succeeded. -/
theorem Sound.dispatch_stale (h : Sound s) (hc : s.contexts[fd]? = some c)
    (hstale : ev.PartlyStale c.events) {ctl : EpollCtl}
    (hctl : ∀ op fd events, ctl op fd events = true) :
    s.dispatch fd ev ctl = .error (.assertion "events & event") := by
  obtain ⟨⟨e, hmask, he⟩, hsome⟩ := hstale
  have hinter : ¬ c.events.inter (ev.realEvents c.events) = .none := by
    rw [ev.inter_realEvents_eq_none, not_not]
    exact hsome
  simp only [IOManager.dispatch, deref_of_get hc, bind, Except.bind, if_neg hinter, hctl,
    Bool.true_eq_false, if_false]
  apply h.triggerBoth_unregistered hc (e := e) _ he
  rw [ev.has_realEvents, hmask, Bool.true_or]

/-- What handling a report is meant to do: every event that fires was
registered, its bit is cleared, and the counter goes down by their number. -/
structure Fires (s : IOManager Cb) (fd : Nat) (fired : Events) (s' : IOManager Cb) : Prop where
  registered : ∀ e, fired.has e = true → (s.context fd).events.has e = true
  events : (s'.context fd).events = (s.context fd).events.diff fired
  count : s'.pendingEventCount + fired.size = s.pendingEventCount
  size : s'.contexts.length = s.contexts.length
  scheduled : ∃ entries, s'.scheduled = s.scheduled ++ entries ∧ entries.length = fired.size

theorem Sound.dispatch_current (h : Sound s) (hfd : fd < s.contexts.length)
    (hcurrent : ¬ ev.PartlyStale (s.context fd).events) (ctl : EpollCtl) :
    ∃ s' fired, s.dispatch fd ev ctl = .ok s' ∧ Sound s' ∧ Fires s fd fired s' := by
  obtain ⟨c, hc⟩ : ∃ c, s.contexts[fd]? = some c := ⟨_, List.getElem?_eq_getElem hfd⟩
  have hcontext := context_of_get hc
  rw [hcontext] at hcurrent
  by_cases hsub : ∀ e, ev.mask.has e = true → c.events.has e = true
  · obtain ⟨s', c', fired, heq, htrig, hc', hev', hfired, -⟩ := h.dispatch hc hsub ctl
    refine ⟨s', fired, heq, htrig.sound, ?_, ?_, htrig.count, htrig.size, htrig.scheduled⟩
    · rw [hcontext]
      exact hfired
    · rw [hcontext, context_of_get hc', hev']
  · have hgone : ∃ e, ev.mask.has e = true ∧ c.events.has e = false := by simpa using hsub
    have hinter : c.events.inter (ev.realEvents c.events) = .none := by
      rw [ev.inter_realEvents_eq_none]
      exact fun hsome => hcurrent ⟨hgone, hsome⟩
    refine ⟨s, .none, ?_, h, ?_, ?_, rfl, rfl, [], (List.append_nil _).symm, rfl⟩
    · simp only [IOManager.dispatch, deref_of_get hc, bind, Except.bind, if_pos hinter]
      rfl
    · simp
    · simp [Events.diff, Events.none]

/-- The event table and, for each worker, the reports it has not handled yet. -/
structure Idle (Cb : Type) where
  io : IOManager Cb
  reports : Nat → List (Nat × Reported)

namespace Idle

inductive Act (Cb : Type) where
  /-- Some thread calls `addEvent`, `delEvent`, `cancelEvent` or `cancelAll`. -/
  | call (op : Op Cb) (ctl : EpollCtl)
  /-- `epoll_wait` returns to worker `w`. -/
  | wait (w : Nat) (reports : List (Nat × Reported))
  /-- Worker `w` locks the context of its next report and dispatches it. -/
  | handle (w : Nat) (ctl : EpollCtl)

def init : Idle Cb := { io := .init, reports := fun _ => [] }

/-- The kernel reports input and output for registered events only, and a
worker waits again when it has handled everything. -/
inductive Step : Idle Cb → Act Cb → Idle Cb → Prop where
  | call {t : Idle Cb} {op : Op Cb} {ctl : EpollCtl} {out : Out} {io : IOManager Cb}
      (hop : op.Enabled t.io) (hdispatch : ∀ fd ev, op ≠ .dispatch fd ev)
      (hexec : op.exec t.io ctl = .ok (out, io)) : Step t (.call op ctl) { t with io }
  | wait {t : Idle Cb} {w : Nat} {reports : List (Nat × Reported)} (hw : t.reports w = [])
      (hreports : ∀ r ∈ reports, r.1 < t.io.contexts.length ∧
        ∀ e, r.2.mask.has e = true → (t.io.context r.1).events.has e = true) :
      Step t (.wait w reports) { t with reports := Function.update t.reports w reports }
  | handle {t : Idle Cb} {w fd : Nat} {ev : Reported} {rest : List (Nat × Reported)}
      {ctl : EpollCtl} {io : IOManager Cb} (hw : t.reports w = (fd, ev) :: rest)
      (hdispatch : t.io.dispatch fd ev ctl = .ok io) :
      Step t (.handle w ctl) { io, reports := Function.update t.reports w rest }

def Current (t : Idle Cb) : Act Cb → Prop
  | .handle w _ => ∀ fd ev, (t.reports w).head? = some (fd, ev) →
      ¬ ev.PartlyStale (t.io.context fd).events
  | _ => True

structure Good (t : Idle Cb) : Prop where
  sound : Sound t.io
  known : ∀ w, ∀ r ∈ t.reports w, r.1 < t.io.contexts.length

theorem good_init : Good (init : Idle Cb) := ⟨sound_init, by simp [init]⟩

theorem Good.update {t : Idle Cb} (h : Good t) {io : IOManager Cb} (hsound : Sound io)
    (hlen : t.io.contexts.length ≤ io.contexts.length) (w : Nat) {reports : List (Nat × Reported)}
    (hreports : ∀ r ∈ reports, r.1 < t.io.contexts.length) :
    Good { io, reports := Function.update t.reports w reports } := by
  refine ⟨hsound, ?_⟩
  intro v r hr
  by_cases hv : v = w
  · subst hv
    have hr : r ∈ reports := by simpa using hr
    exact (hreports r hr).trans_le hlen
  · have hr : r ∈ t.reports v := by simpa [hv] using hr
    exact (h.known v r hr).trans_le hlen

theorem Good.handle {t : Idle Cb} (h : Good t) {w fd : Nat} {ev : Reported}
    {rest : List (Nat × Reported)} (hw : t.reports w = (fd, ev) :: rest)
    (hcurrent : ¬ ev.PartlyStale (t.io.context fd).events) (ctl : EpollCtl) :
    ∃ io fired, t.io.dispatch fd ev ctl = .ok io ∧ Sound io ∧ Fires t.io fd fired io := by
  apply h.sound.dispatch_current _ hcurrent
  exact h.known w (fd, ev) (by simp [hw])

theorem Good.step {t t' : Idle Cb} {act : Act Cb} (h : Good t) (hcurrent : Current t act)
    (hstep : Step t act t') : Good t' := by
  cases hstep with
  | @call op ctl out io hop _ hexec =>
    obtain ⟨hsound, houtcome⟩ := h.sound.of_step (a := ((op, ctl), out)) ⟨hop, hexec⟩
    exact ⟨hsound, fun w r hr => (h.known w r hr).trans_le houtcome.grows⟩
  | @wait w reports hw hreports =>
    exact h.update h.sound le_rfl w fun r hr => (hreports r hr).1
  | @handle w fd ev rest ctl io hw hdispatch =>
    obtain ⟨io', fired, heq, hsound, hfires⟩ := h.handle hw (hcurrent fd ev (by simp [hw])) ctl
    obtain rfl : io' = io := Except.ok.inj (heq.symm.trans hdispatch)
    exact h.update hsound hfires.size.ge w fun r hr => h.known w r (by simp [hw, hr])

/-- As long as no report is handled that has become stale in part, the counter
is right and handling a report fires registered events only; one that is stale
in part fails the assertion instead. -/
theorem run_current_fires_registered {acts : List (Act Cb)} {t : Idle Cb}
    (run : Run (fun t act t' => Current t act ∧ Step t act t') init acts t) :
    t.io.pendingEventCount = (t.io.contexts.map fun c => c.events.size).sum ∧
    ∀ w fd ev rest ctl, t.reports w = (fd, ev) :: rest →
      (¬ ev.PartlyStale (t.io.context fd).events →
        ∃ io fired, t.io.dispatch fd ev ctl = .ok io ∧ Fires t.io fd fired io) ∧
      (ev.PartlyStale (t.io.context fd).events → (∀ op fd events, ctl op fd events = true) →
        t.io.dispatch fd ev ctl = .error (.assertion "events & event")) := by
  have h : Good t := run.invariant good_init fun _ _ _ h hstep => h.step hstep.1 hstep.2
  refine ⟨h.sound.count.trans t.io.length_pending_eq_sum, ?_⟩
  intro w fd ev rest ctl hw
  constructor
  · intro hcurrent
    obtain ⟨io, fired, heq, -, hfires⟩ := h.handle hw hcurrent ctl
    exact ⟨io, fired, heq, hfires⟩
  · intro hstale hctl
    have hfd : fd < t.io.contexts.length := h.known w (fd, ev) (by simp [hw])
    have hc := List.getElem?_eq_getElem hfd
    rw [context_of_get hc] at hstale
    exact h.sound.dispatch_stale hc hstale hctl

/-- Input and output are reported together, and both are still awaited when the
report is handled. -/
theorem run_current_fires_registered_both :
    ∃ acts t, Run (fun t act t' => Current t act ∧ Step t act t') (init : Idle Nat) acts t ∧
      t.reports 1 = [(3, ⟨true, true, false, false⟩)] ∧
      ∃ io fired, t.io.dispatch 3 ⟨true, true, false, false⟩ (fun _ _ _ => true) = .ok io ∧
        Fires t.io 3 fired io := by
  let caller : Caller := ⟨0, 7, .EXEC, rfl⟩
  let succeed : EpollCtl := fun _ _ _ => true
  let ev : Reported := ⟨true, true, false, false⟩
  obtain ⟨t, run, hreports, hevents⟩ :
      ∃ t, Run (fun t act t' => Current t act ∧ Step t act t') (init : Idle Nat)
        [.call (.addEvent 3 .READ none caller) succeed,
          .call (.addEvent 3 .WRITE (some 5) caller) succeed, .wait 1 [(3, ev)]] t ∧
        t.reports 1 = [(3, ev)] ∧ (t.io.context 3).events = ⟨true, true⟩ :=
    ⟨_, .cons ⟨trivial, .call rfl nofun rfl⟩ (.cons ⟨trivial, .call rfl nofun rfl⟩ (.cons
      ⟨trivial, .wait rfl (by
        simp only [List.mem_singleton, forall_eq]
        exact ⟨by decide, by intro e _; cases e <;> rfl⟩)⟩ .start)), rfl, rfl⟩
  refine ⟨_, t, run, hreports,
    ((run_current_fires_registered run).2 1 3 ev [] succeed hreports).1 ?_⟩
  rw [hevents]
  rintro ⟨⟨e, -, he⟩, -⟩
  cases e <;> cases he

/-- The report says input and output; the wait for input is cancelled before
the worker holds the lock. -/
theorem stale_report_fails_assertion :
    ∃ acts t, Run Step (init : Idle Nat) acts t ∧
      t.reports 1 = [(3, ⟨true, true, false, false⟩)] ∧
      t.io.dispatch 3 ⟨true, true, false, false⟩ (fun _ _ _ => true) =
        .error (.assertion "events & event") := by
  let caller : Caller := ⟨0, 7, .EXEC, rfl⟩
  let succeed : EpollCtl := fun _ _ _ => true
  refine ⟨[.call (.addEvent 3 .READ none caller) succeed,
      .call (.addEvent 3 .WRITE (some 5) caller) succeed,
      .wait 1 [(3, ⟨true, true, false, false⟩)], .call (.cancelEvent 3 .READ) succeed], _,
    .cons (.call rfl nofun rfl) (.cons (.call rfl nofun rfl) (.cons (.wait rfl ?_)
      (.cons (.call trivial nofun rfl) .start))), rfl, rfl⟩
  simp only [List.mem_singleton, forall_eq]
  exact ⟨by decide, by intro e _; cases e <;> rfl⟩

end Idle

end Sylar.IOManager
