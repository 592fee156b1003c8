import Sylar.Hook.Steps

/-! Fibers that were scheduled for an event they wait for. A registration is
scheduled at most once and a fiber resumes for it at most once, so nobody else
can use up the wakeup of a fiber. -/
namespace Sylar.Hook

open IOManager (Registered Scheduled)

variable {Cb : Type} {s s' : Hook Cb} {f g : Nat} {inv : Invocation} {m : Move} {act : Act Cb}

/-- The fiber that takes the step; the others are steps of the workers. -/
def Act.fiber : Act Cb → Option Nat
  | .start f _ _ | .move f _ | .socket f _ | .get f _ | .close f _ _ | .closeStep f _ _ => some f
  | .timer _ _ | .event _ _ | .setsockopt _ _ _ => none

@[simp] theorem frames_put (s : Hook Cb) : (s.put f inv).frames f = .invocation inv :=
  Function.update_self ..

@[simp] theorem io_disarm (s : Hook Cb) (inv : Invocation) : (s.disarm inv).io = s.io := by
  simp only [disarm]
  split <;> rfl

@[simp] theorem resumed_disarm (s : Hook Cb) (inv : Invocation) :
    (s.disarm inv).resumed = s.resumed := by
  simp only [disarm]
  split <;> rfl

@[simp] theorem sockets_disarm (s : Hook Cb) (inv : Invocation) :
    (s.disarm inv).sockets = s.sockets := by
  simp only [disarm]
  split <;> rfl

section Frames

theorem exec_invocation (h : s.exec act = some s') (hact : act.fiber = some f)
    (hinv : s.frames f = .invocation inv) : ∃ m, act = .move f m ∧ s.move f inv m = some s' := by
  cases act with
  | move g m =>
    obtain rfl := Option.some.inj hact
    simp only [exec, hinv] at h
    exact ⟨m, rfl, h⟩
  | timer | event | setsockopt => cases hact
  | start | socket | get | close | closeStep =>
    obtain rfl := Option.some.inj hact
    simp only [exec, hinv] at h
    cases h

theorem exec_closing {fd : Nat} {pc : ClosePc} (h : s.exec act = some s')
    (hact : act.fiber = some g) (hclosing : s.frames g = .closing fd pc) :
    ∃ hasIom ctl, s.closeStep g fd hasIom ctl pc = some s' := by
  cases act with
  | closeStep f hasIom ctl =>
    obtain rfl := Option.some.inj hact
    simp only [exec, hclosing] at h
    exact ⟨hasIom, ctl, h⟩
  | timer | event | setsockopt => cases hact
  | start | socket | get | close | move =>
    obtain rfl := Option.some.inj hact
    simp only [exec, hclosing] at h
    cases h

end Frames

section Wakeups

/-- A step of another fiber or of a worker leaves `f` where it is, but for the mark of its
timer. -/
def Spares (s : Hook Cb) (f : Nat) (s' : Hook Cb) : Prop :=
  s'.frames f = s.frames f ∨ ∃ inv, s.frames f = .invocation inv ∧
    s'.frames f = .invocation { inv with cancelled := some .ETIMEDOUT }

/-- What a step may do to the tasks the scheduler was given, to those it has run and to
the other fibers. -/
structure Hands (s : Hook Cb) (act : Act Cb) (s' : Hook Cb) : Prop where
  io : IOManager.Sound s.io → IOManager.Sound s'.io ∧ s.io.scheduled <+: s'.io.scheduled
  resumed : s'.resumed = s.resumed ∨
    ∃ f k, act.fiber = some f ∧ s.woken f k = true ∧ s'.resumed = k :: s.resumed
  others : ∀ f, act.fiber ≠ some f → Spares s f s'

theorem spares_of_update {x : Frame} (hact : act.fiber = some g)
    (hframes : s'.frames = Function.update s.frames g x) (hf : act.fiber ≠ some f) :
    Spares s f s' := by
  have hne : f ≠ g := fun hfg => hf (hfg ▸ hact)
  exact .inl (by rw [hframes, Function.update_of_ne hne])

theorem Hands.of_io
    (hio : IOManager.Sound s.io → IOManager.Sound s'.io ∧ s.io.scheduled <+: s'.io.scheduled)
    (hresumed : s'.resumed = s.resumed) (hothers : ∀ f, act.fiber ≠ some f → Spares s f s') :
    Hands s act s' :=
  ⟨hio, .inl hresumed, hothers⟩

theorem Hands.of_same (hio : s'.io = s.io) (hresumed : s'.resumed = s.resumed)
    (hothers : ∀ f, act.fiber ≠ some f → Spares s f s') : Hands s act s' :=
  .of_io (fun h => ⟨hio ▸ h, hio ▸ List.prefix_rfl⟩) hresumed hothers

theorem Hands.of_frame {x : Frame} (hact : act.fiber = some g)
    (hframes : s'.frames = Function.update s.frames g x) (hio : s'.io = s.io)
    (hresumed : s'.resumed = s.resumed) : Hands s act s' :=
  .of_same hio hresumed fun _ => spares_of_update hact hframes

theorem perform_resumed {a : Answer} (h : s.perform inv a = some s') : s'.resumed = s.resumed := by
  simp only [perform, assign] at h
  split at h
  · cases h
  split at h
  · obtain ⟨-, hs'⟩ := Option.ite_none_right_eq_some.mp h
    obtain rfl := Option.some.inj hs'
    rfl
  · obtain rfl := Option.some.inj h
    rfl

theorem hands_move (h : s.move f inv m = some s') : Hands s (.move f m) s' := by
  obtain ⟨x, hframes, -⟩ := (move_spec h).frames
  have hsame : s'.io = s.io → s'.resumed = s.resumed → Hands s (.move f m) s' :=
    .of_frame rfl hframes
  cases m with
  | enter | hold | check | sockopt =>
    obtain ⟨-, hs'⟩ := Option.ite_none_right_eq_some.mp h
    obtain rfl := Option.some.inj hs'
    exact hsame rfl rfl
  | call a =>
    simp only [move] at h
    split at h
    · obtain ⟨t, hperform, hs'⟩ := Option.bind_eq_some_iff.mp h
      obtain rfl := Option.some.inj hs'
      have hresumed := perform_resumed hperform
      exact hsame (perform_spec hperform).2.2.1 hresumed
    · obtain ⟨t, hperform, hs'⟩ := Option.bind_eq_some_iff.mp h
      obtain rfl := Option.some.inj hs'
      have hresumed := perform_resumed hperform
      exact hsame (perform_spec hperform).2.2.1 hresumed
    · cases h
  | arm =>
    obtain ⟨-, hs'⟩ := Option.ite_none_right_eq_some.mp h
    obtain rfl := Option.some.inj hs'
    apply hsame
    all_goals
      simp only [arm]
      split <;> rfl
  | register ctl =>
    obtain ⟨-, hs'⟩ := Option.ite_none_right_eq_some.mp h
    split at hs'
    · rename_i rt io hadd
      obtain rfl := Option.some.inj hs'
      exact .of_io (fun hsound => hsound.of_addEvent hadd) rfl fun _ => spares_of_update rfl hframes
    · cases hs'
  | resume k =>
    obtain ⟨⟨-, hwoken⟩, hs'⟩ := Option.ite_none_right_eq_some.mp h
    obtain rfl := Option.some.inj hs'
    exact ⟨fun hsound => ⟨hsound, List.prefix_rfl⟩, .inr ⟨f, k, rfl, hwoken, rfl⟩,
      fun _ => spares_of_update rfl hframes⟩
  | disarm =>
    simp only [move] at h
    split at h
    · obtain rfl := Option.some.inj h
      exact hsame (io_disarm s inv) (resumed_disarm s inv)
    · obtain rfl := Option.some.inj h
      exact hsame (io_disarm s inv) (resumed_disarm s inv)
    · cases h
  | leave =>
    simp only [move] at h
    split at h
    · obtain rfl := Option.some.inj h
      exact hsame rfl rfl
    · obtain rfl := Option.some.inj h
      exact hsame rfl rfl
    · cases h

theorem hands_timerMove {i : Nat} {t : CondTimer} {m : TimerMove}
    (h : s.timerMove i t m = some s') : Hands s act s' := by
  cases m with
  | extract =>
    obtain ⟨-, hs'⟩ := Option.ite_none_right_eq_some.mp h
    obtain rfl := Option.some.inj hs'
    exact .of_same rfl rfl fun _ _ => .inl rfl
  | test =>
    obtain ⟨-, hs'⟩ := Option.ite_none_right_eq_some.mp h
    split at hs'
    all_goals
      obtain rfl := Option.some.inj hs'
      exact .of_same rfl rfl fun _ _ => .inl rfl
  | mark =>
    obtain ⟨-, hs'⟩ := Option.ite_none_right_eq_some.mp h
    split at hs'
    · obtain rfl := Option.some.inj hs'
      exact .of_same rfl rfl fun _ _ => .inl rfl
    · rename_i inv hlock
      obtain rfl := Option.some.inj hs'
      refine .of_same rfl rfl fun f _ => ?_
      by_cases hf : f = t.fiber
      · subst hf
        exact .inr ⟨inv, (lock_eq_some hlock).1, frames_put _⟩
      · exact .inl (Function.update_of_ne hf _ _)
  | cancel ctl =>
    obtain ⟨-, hs'⟩ := Option.ite_none_right_eq_some.mp h
    split at hs'
    · rename_i b io hcancel
      obtain rfl := Option.some.inj hs'
      exact .of_io (fun hsound => hsound.of_cancelEvent hcancel) rfl fun _ _ => .inl rfl
    · cases hs'

theorem hands_closeStep {fd : Nat} {hasIom : Bool} {ctl : EpollCtl} {pc : ClosePc}
    (hact : act.fiber = some g) (h : s.closeStep g fd hasIom ctl pc = some s') :
    Hands s act s' := by
  cases pc with
  | cancelAll =>
    rcases ite_eq_iff.mp h with ⟨-, hs'⟩ | ⟨-, hs'⟩
    · split at hs'
      · rename_i b io hcancel
        obtain rfl := Option.some.inj hs'
        exact .of_io (fun hsound => hsound.of_cancelAll hcancel) rfl
          fun _ => spares_of_update hact rfl
      · cases hs'
    · obtain rfl := Option.some.inj hs'
      exact .of_frame hact rfl rfl rfl
  | get | delFd | close_f =>
    obtain rfl := Option.some.inj h
    exact .of_frame hact rfl rfl rfl

theorem exec_hands (h : s.exec act = some s') : Hands s act s' := by
  cases act with
  | start | close =>
    simp only [exec] at h
    split at h
    · obtain rfl := Option.some.inj h
      exact .of_frame rfl rfl rfl rfl
    · cases h
  | move g m =>
    simp only [exec] at h
    split at h
    · exact hands_move h
    · cases h
  | timer i m =>
    simp only [exec] at h
    split at h
    · exact hands_timerMove h
    · cases h
  | socket g fd =>
    simp only [exec, assign] at h
    split at h
    · obtain ⟨t, hassign, hs'⟩ := Option.bind_eq_some_iff.mp h
      obtain ⟨-, ht⟩ := Option.ite_none_right_eq_some.mp hassign
      obtain rfl := Option.some.inj ht
      obtain rfl := Option.some.inj hs'
      exact .of_frame rfl rfl rfl rfl
    · cases h
  | get g fstat =>
    simp only [exec] at h
    split at h
    · obtain rfl := Option.some.inj h
      exact .of_frame rfl rfl rfl rfl
    · split at h
      · obtain rfl := Option.some.inj h
        exact .of_frame rfl rfl rfl rfl
      · cases h
    · cases h
  | closeStep g hasIom ctl =>
    simp only [exec] at h
    split at h
    · exact hands_closeStep rfl h
    · cases h
  | event op ctl =>
    simp only [exec] at h
    split at h
    · cases h
    · rename_i hexec
      obtain rfl := Option.some.inj h
      exact .of_io (fun hsound => hsound.of_exec hexec) rfl fun _ _ => .inl rfl
    · cases h
  | setsockopt fd type ms =>
    obtain rfl := Option.some.inj h
    exact .of_same rfl rfl fun _ _ => .inl rfl

theorem woken_iff {k : Nat} : s.woken f k = true ↔
    k ∉ s.resumed ∧ ∃ x ∈ s.io.scheduled, x.serial = k ∧ x.task = .fiber (some f) := by
  simp only [woken, Bool.and_eq_true, Bool.not_eq_true', List.contains_eq_mem,
    decide_eq_false_iff_not, List.any_eq_true, beq_iff_eq]
  refine and_congr_right fun _ => exists_congr fun x => and_congr_right fun _ =>
    and_congr_right fun _ => ?_
  cases x.task with
  | fiber g => simp
  | cb c => simp

structure Ready (s : Hook Cb) : Prop where
  sound : IOManager.Sound s.io
  resumed : ∀ k ∈ s.resumed, k ∈ s.io.scheduled.map Scheduled.serial

theorem ready_init : Ready (init : Hook Cb) := ⟨IOManager.sound_init, by simp [init]⟩

theorem Ready.step (h : Ready s) (hstep : s.exec act = some s') : Ready s' := by
  obtain ⟨hio, hresumed, -⟩ := exec_hands hstep
  obtain ⟨hsound, hgrows⟩ := hio h.sound
  refine ⟨hsound, fun k hk => ?_⟩
  apply (hgrows.map _).subset
  rcases hresumed with hsame | ⟨g, k', -, hwoken, hcons⟩
  · exact h.resumed k (hsame ▸ hk)
  · rw [hcons] at hk
    rcases List.mem_cons.mp hk with rfl | hk
    · obtain ⟨-, x, hx, hserial, -⟩ := woken_iff.mp hwoken
      exact List.mem_map.mpr ⟨x, hx, hserial⟩
    · exact h.resumed k hk

theorem woken_step {k : Nat} (h : IOManager.Sound s.io) (hstep : s.exec act = some s')
    (hact : act.fiber ≠ some f) (hwoken : s.woken f k = true) : s'.woken f k = true := by
  obtain ⟨hio, hresumed, -⟩ := exec_hands hstep
  obtain ⟨-, hgrows⟩ := hio h
  obtain ⟨hnew, x, hx, hserial, htask⟩ := woken_iff.mp hwoken
  refine woken_iff.mpr ⟨?_, x, hgrows.subset hx, hserial, htask⟩
  rcases hresumed with hsame | ⟨g, k', hg, hwoken', hcons⟩
  · rwa [hsame]
  · obtain ⟨-, y, hy, hserial', htask'⟩ := woken_iff.mp hwoken'
    rw [hcons, List.mem_cons, not_or]
    refine ⟨?_, hnew⟩
    rintro rfl
    obtain rfl := List.inj_on_of_nodup_map h.scheduled_nodup hx hy (hserial.trans hserial'.symm)
    have hfg : f = g := by simpa using htask.symm.trans htask'
    exact hact (hfg ▸ hg)

theorem cancelAll_woken {fd : Nat} {e : Event} {ctl : EpollCtl} (h : Ready s)
    (hreg : Registered s.io fd e f) (hclose : s.closeStep g fd true ctl .cancelAll = some s') :
    (∃ k, s'.woken f k = true) ∧ s'.frames = Function.update s.frames g (.closing fd .delFd) := by
  simp only [closeStep, if_true] at hclose
  split at hclose
  · rename_i b io hcancel
    obtain rfl := Option.some.inj hclose
    obtain ⟨x, hx, htask, hfresh⟩ := IOManager.cancelAll_wakes h.sound hreg hcancel
    exact ⟨⟨x.serial, woken_iff.mpr ⟨fun hk => hfresh (h.resumed _ hk), x, hx, rfl, htask⟩⟩, rfl⟩
  · cases hclose

end Wakeups

end Sylar.Hook
