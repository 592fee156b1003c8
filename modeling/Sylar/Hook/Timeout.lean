import Sylar.Lib.Run
import Sylar.Lib.Slots
import Sylar.Hook.Steps

/-! The timeout of a hooked call. The callback marks the invocation and then
cancels its event, which wakes the fiber if the event is registered by then;
it wakes nobody if the invocation is still on its way to `addEvent`. -/
namespace Sylar.Hook

open Lib
open IOManager (Registered)

variable {Cb : Type} {s s' : Hook Cb} {f g : Nat} {inv : Invocation}

def CanWake (inv : Invocation) (t : CondTimer) : Prop :=
  t.state = .tested ∨ t.state = .marked ∨
    inv.cancelled = none ∧ (t.state = .armed ∨ t.state = .extracted)

/-- The fiber is suspended with its event registered, its timeout is over, and no
callback is left that would wake it. -/
def Lost (s : Hook Cb) (f : Nat) : Prop :=
  ∃ inv, s.frames f = .invocation inv ∧ inv.pc = .suspended ∧
    Registered s.io inv.fd inv.kind.event f ∧ inv.cancelled = some .ETIMEDOUT ∧
    ∀ t ∈ s.timers, t.fiber = f → t.inv = inv.id → ¬ CanWake inv t

/-- A callback marks no invocation that is on its way to `addEvent`, and
`epoll_ctl` does not fail when it cancels the event. -/
def InTime (s : Hook Cb) : Act Cb → Prop
  | .timer i .mark => ∀ t inv, s.timers[i]? = some t → s.lock t = some inv →
      inv.pc.approaching = false
  | .timer _ (.cancel ctl) => ∀ op fd events, ctl op fd events = true
  | _ => True

/-- An invocation that is marked as timed out waits for its event only while the
callback is about to cancel it. -/
structure Kept (s : Hook Cb) (g : Nat) (inv : Invocation) : Prop where
  unmarked : inv.pc.approaching = true → inv.cancelled = none
  wakes : inv.pc.waiting = true → inv.cancelled.isSome = true →
    Registered s.io inv.fd inv.kind.event g → ∃ t ∈ s.timers, t.Of g inv ∧ t.state = .marked

structure Good (s : Hook Cb) : Prop where
  kept : ∀ g inv, s.frames g = .invocation inv → Kept s g inv
  ids : ∀ g inv, s.frames g = .invocation inv → inv.id < s.ids
  timerIds : ∀ t ∈ s.timers, t.inv < s.ids
  captured : ∀ t ∈ s.timers, ∀ inv, s.frames t.fiber = .invocation inv → t.inv = inv.id →
    t.Of t.fiber inv

theorem good_init : Good (init : Hook Cb) := by
  constructor <;> simp [init]

theorem Kept.mono (h : Kept s g inv)
    (hreg : ∀ fd e, Registered s'.io fd e g → Registered s.io fd e g)
    (hmarked : ∀ t ∈ s.timers, t.state = .marked → t ∈ s'.timers) : Kept s' g inv := by
  refine ⟨h.unmarked, ?_⟩
  intro hwait hcancelled hwaits
  obtain ⟨t, ht, hof, hstate⟩ := h.wakes hwait hcancelled (hreg _ _ hwaits)
  exact ⟨t, hmarked t ht hstate, hof, hstate⟩

theorem Good.update (h : Good s) (f : Nat) {x : Frame}
    (hframes : s'.frames = Function.update s.frames f x) (hids : s.ids ≤ s'.ids)
    (hkept : ∀ g inv, g ≠ f → Kept s g inv → Kept s' g inv)
    (htimers : ∀ t' ∈ s'.timers, (∃ t ∈ s.timers, t.Same t') ∨
      t'.fiber = f ∧ t'.inv < s'.ids ∧ ∀ inv, x = .invocation inv → t'.Of f inv)
    (hx : ∀ inv, x = .invocation inv → Kept s' f inv ∧ inv.id < s'.ids ∧
      ∀ t ∈ s.timers, t.fiber = f → t.inv = inv.id → t.Of f inv) : Good s' := by
  constructor
  · intro g inv hinv
    rcases frame_cases hframes hinv with ⟨rfl, hinv⟩ | ⟨hg, hinv⟩
    · exact (hx inv hinv).1
    · exact hkept g inv hg (h.kept g inv hinv)
  · intro g inv hinv
    rcases frame_cases hframes hinv with ⟨rfl, hinv⟩ | ⟨-, hinv⟩
    · exact (hx inv hinv).2.1
    · exact (h.ids g inv hinv).trans_le hids
  · intro t' ht'
    rcases htimers t' ht' with ⟨t, ht, hsame⟩ | ⟨-, hlt, -⟩
    · rw [hsame.inv]
      exact (h.timerIds t ht).trans_le hids
    · exact hlt
  · intro t' ht' inv hinv hid
    rcases htimers t' ht' with ⟨t, ht, hsame⟩ | ⟨hf, -, hof⟩
    · rw [hsame.fiber] at hinv ⊢
      rw [hsame.inv] at hid
      have hof : t.Of t.fiber inv := by
        rcases frame_cases hframes hinv with ⟨hf, hinv⟩ | ⟨-, hinv⟩
        · exact hf ▸ (hx inv hinv).2.2 t ht hf hid
        · exact h.captured t ht inv hinv hid
      exact ⟨hsame.fiber, hsame.inv.trans hid, hsame.fd.trans hof.fd, hsame.event.trans hof.event⟩
    · rcases frame_cases hframes hinv with ⟨-, hinv⟩ | ⟨hne, -⟩
      · exact hf ▸ hof inv hinv
      · exact absurd hf hne

theorem Good.same (h : Good s) (hframes : s'.frames = s.frames) (hids : s'.ids = s.ids)
    (hkept : ∀ g inv, Kept s g inv → Kept s' g inv)
    (htimers : ∀ t' ∈ s'.timers, ∃ t ∈ s.timers, t.Same t') : Good s' := by
  apply h.update 0 (hframes.trans (Function.update_eq_self 0 s.frames).symm) hids.ge
  · exact fun g inv _ => hkept g inv
  · exact fun t' ht' => .inl (htimers t' ht')
  · intro inv hinv
    refine ⟨hkept 0 inv (h.kept 0 inv hinv), hids.symm ▸ h.ids 0 inv hinv, ?_⟩
    intro t ht hf hid
    exact hf ▸ h.captured t ht inv (hf ▸ hinv) hid

theorem CondTimer.Of.follows {t : CondTimer} {inv' : Invocation} (h : t.Of f inv)
    (hinv : Follows inv inv') : t.Of f inv' :=
  ⟨h.fiber, h.id.trans hinv.id.symm, h.fd.trans hinv.fd.symm,
    h.event.trans (congrArg Kind.event hinv.kind.symm)⟩

theorem Kept.move {m : Move} {inv' : Invocation} (h : Kept s f inv) (hmoved : Moved m s f inv s')
    (hinv : Follows inv inv') : Kept s' f inv' := by
  constructor
  · intro happroach
    rw [hinv.cancelled]
    exact (hinv.approaching happroach).elim h.unmarked id
  · intro hwait hcancelled hreg
    rw [hinv.cancelled] at hcancelled
    rw [hinv.fd, hinv.kind] at hreg
    -- the mark excludes that the event was registered by this step
    have hmark : inv.pc.approaching ≠ true := by
      intro happroach
      rw [h.unmarked happroach] at hcancelled
      cases hcancelled
    have hreg : Registered s.io inv.fd inv.kind.event f :=
      (hmoved.registered _ _ _ hreg).resolve_right fun hnew => hmark hnew.2
    obtain ⟨t, ht, hof, hstate⟩ :=
      h.wakes ((hinv.waiting hwait).resolve_right hmark) hcancelled hreg
    exact ⟨t, hmoved.marked t ht hstate, hof.follows hinv, hstate⟩

theorem Good.move {m : Move} (h : Good s) (hinv : s.frames f = .invocation inv)
    (hmove : s.move f inv m = some s') : Good s' := by
  have hmoved := move_spec hmove
  obtain ⟨x, hframes, hfollows⟩ := hmoved.frames
  have hid := h.ids f inv hinv
  apply h.update f hframes hmoved.ids.ge
  · intro g inv hg hkept
    refine hkept.mono (fun fd e hreg => ?_) hmoved.marked
    exact (hmoved.registered fd e g hreg).resolve_right fun hnew => hg hnew.1
  · intro t' ht'
    rcases hmoved.captured t' ht' with hold | hof
    · exact .inl hold
    · refine .inr ⟨hof.fiber, ?_, fun inv' hx => hof.follows (hfollows inv' hx)⟩
      rw [hof.id, hmoved.ids]
      exact hid
  · intro inv' hx
    have hinv' := hfollows inv' hx
    refine ⟨(h.kept f inv hinv).move hmoved hinv', ?_, ?_⟩
    · rw [hinv'.id, hmoved.ids]
      exact hid
    · intro t ht hf hid
      have hof := h.captured t ht inv (hf ▸ hinv) (hid.trans hinv'.id)
      exact hf ▸ hof.follows hinv'

section Timers

variable {i : Nat} {t t' : CondTimer}

theorem marked_setTimer (ht : s.timers[i]? = some t) (hstate : t.state ≠ .marked) (t' : CondTimer) :
    ∀ x ∈ s.timers, x.state = .marked → x ∈ (s.setTimer i t').timers := by
  intro x hx hmarked
  apply Slots.mem_set_of_ne ht hx
  rintro rfl
  exact hstate hmarked

theorem same_setTimer (ht : s.timers[i]? = some t) (hsame : t.Same t') :
    ∀ x' ∈ (s.setTimer i t').timers, ∃ x ∈ s.timers, x.Same x' := by
  intro x' hx'
  rcases List.mem_or_eq_of_mem_set hx' with hx' | rfl
  · exact ⟨x', hx', rfl, rfl, rfl, rfl⟩
  · exact ⟨t, List.mem_of_getElem? ht, hsame⟩

theorem Good.setTimer (h : Good s) (ht : s.timers[i]? = some t) (hstate : t.state ≠ .marked)
    (hsame : t.Same t') : Good (s.setTimer i t') :=
  h.same rfl rfl (fun _ _ hkept => hkept.mono (fun _ _ hreg => hreg) (marked_setTimer ht hstate t'))
    (same_setTimer ht hsame)

theorem Good.mark (h : Good s) (ht : s.timers[i]? = some t) (hstate : t.state = .tested)
    (hlock : s.lock t = some inv) (hpc : inv.pc.approaching = false) :
    Good ((s.setTimer i { t with state := .marked }).put t.fiber
      { inv with cancelled := some .ETIMEDOUT }) := by
  obtain ⟨hframe, hid⟩ := lock_eq_some hlock
  have hmem := List.mem_of_getElem? ht
  have hmarked := marked_setTimer (s := s) ht (by simp [hstate]) { t with state := .marked }
  refine h.update t.fiber rfl le_rfl ?_ ?_ ?_
  · intro g inv _ hkept
    exact hkept.mono (fun _ _ hreg => hreg) hmarked
  · intro x hx
    have hsame : t.Same { t with state := .marked } := ⟨rfl, rfl, rfl, rfl⟩
    exact .inl (same_setTimer ht hsame x hx)
  · rintro _ ⟨⟩
    have hof := h.captured t hmem inv hframe hid.symm
    refine ⟨⟨?_, ?_⟩, h.ids _ inv hframe, ?_⟩
    · intro happroach
      exact absurd happroach (by simp [hpc])
    · intro _ _ _
      refine ⟨{ t with state := .marked }, ?_, ⟨rfl, hof.id, hof.fd, hof.event⟩, rfl⟩
      exact List.mem_of_getElem? (List.getElem?_set_self (List.getElem?_eq_some_iff.mp ht).1)
    · intro x hx hfiber hid'
      have hof := h.captured x hx inv (hfiber ▸ hframe) hid'
      exact ⟨hfiber, hid', hof.fd, hof.event⟩

theorem Good.cancel (h : Good s) {ctl : EpollCtl} (ht : s.timers[i]? = some t) {b : Bool}
    {io : IOManager Cb} (hcancel : s.io.cancelEvent t.fd t.event ctl = .ok (b, io))
    (hctl : ∀ op fd events, ctl op fd events = true) :
    Good ({ s with io }.setTimer i { t with state := .over }) := by
  obtain ⟨hshrinks, hcleared⟩ := IOManager.cancelEvent_shrinks hcancel
  refine h.same rfl rfl ?_ (same_setTimer (s := { s with io }) ht ⟨rfl, rfl, rfl, rfl⟩)
  intro g inv hkept
  refine ⟨hkept.unmarked, ?_⟩
  intro hwait hcancelled hreg
  obtain ⟨x, hx, hof, hstate⟩ := hkept.wakes hwait hcancelled (hshrinks.registered hreg)
  refine ⟨x, Slots.mem_set_of_ne ht hx ?_ _, hof, hstate⟩
  rintro rfl
  have hreg : (io.context inv.fd).events.has inv.kind.event = true := hreg.1
  rw [← hof.fd, ← hof.event, hcleared hctl] at hreg
  cases hreg

theorem Good.timerMove {m : TimerMove} (h : Good s) (ht : s.timers[i]? = some t)
    (hin : InTime s (.timer i m : Act Cb)) (hmove : s.timerMove i t m = some s') : Good s' := by
  cases m with
  | extract =>
    obtain ⟨hstate, hs'⟩ := Option.ite_none_right_eq_some.mp hmove
    obtain rfl := Option.some.inj hs'
    exact h.setTimer ht (by simp [hstate]) ⟨rfl, rfl, rfl, rfl⟩
  | test =>
    obtain ⟨hstate, hs'⟩ := Option.ite_none_right_eq_some.mp hmove
    split at hs'
    all_goals
      obtain rfl := Option.some.inj hs'
      exact h.setTimer ht (by simp [hstate]) ⟨rfl, rfl, rfl, rfl⟩
  | mark =>
    obtain ⟨hstate, hs'⟩ := Option.ite_none_right_eq_some.mp hmove
    split at hs'
    · obtain rfl := Option.some.inj hs'
      exact h.setTimer ht (by simp [hstate]) ⟨rfl, rfl, rfl, rfl⟩
    · rename_i inv hlock
      obtain rfl := Option.some.inj hs'
      exact h.mark ht hstate hlock (hin t inv ht hlock)
  | cancel ctl =>
    obtain ⟨-, hs'⟩ := Option.ite_none_right_eq_some.mp hmove
    split at hs'
    · rename_i b io hcancel
      obtain rfl := Option.some.inj hs'
      exact h.cancel ht hcancel hin
    · cases hs'

end Timers

theorem Good.start (h : Good s) (f : Nat) (kind : Kind) (fd : Nat) :
    Good ({ s with ids := s.ids + 1 }.put f {
      id := s.ids, kind, fd, started := s.sockets fd, timeout := none, cancelled := none,
      timer := none, pc := .enter }) := by
  refine h.update f rfl (Nat.le_succ _) ?_ ?_ ?_
  · intro g inv _ hkept
    exact hkept.mono (fun _ _ hreg => hreg) fun t ht _ => ht
  · exact fun t ht => .inl ⟨t, ht, rfl, rfl, rfl, rfl⟩
  · rintro _ ⟨⟩
    refine ⟨⟨fun _ => rfl, nofun⟩, Nat.lt_succ_self _, ?_⟩
    intro t ht _ hid
    have hlt := h.timerIds t ht
    rw [hid] at hlt
    exact absurd hlt (lt_irrefl _)

theorem Good.elsewhere {act : Act Cb} (h : Good s) (helse : Elsewhere s act s') : Good s' := by
  constructor
  · intro g inv hinv
    apply (h.kept g inv (helse.frames g inv hinv)).mono (helse.registered · · g)
    exact fun t ht _ => helse.timers ▸ ht
  · intro g inv hinv
    exact helse.ids ▸ h.ids g inv (helse.frames g inv hinv)
  · intro t ht
    exact helse.ids ▸ h.timerIds t (helse.timers ▸ ht)
  · intro t ht inv hinv
    exact h.captured t (helse.timers ▸ ht) inv (helse.frames _ inv hinv)

theorem Good.step {act : Act Cb} (h : Good s) (hin : InTime s act)
    (hstep : s.exec act = some s') : Good s' := by
  rcases exec_cases hstep with ⟨f, kind, fd, rfl, rfl⟩ | ⟨f, m, inv, rfl, hinv, hmove⟩ |
    ⟨i, m, t, rfl, ht, hmove⟩ | helse
  · exact h.start f kind fd
  · exact h.move hinv hmove
  · exact h.timerMove ht hin hmove
  · exact h.elsewhere helse

/-- As long as no callback marks an invocation that is on its way to `addEvent`,
and the `epoll_ctl` of its `cancelEvent` succeeds, no fiber is left suspended
beyond its timeout. -/
theorem run_in_time_not_lost {acts : List (Act Cb)}
    (run : Run (fun s act s' => InTime s act ∧ s.exec act = some s') init acts s) (f : Nat) :
    ¬ Lost s f := by
  have h : Good s := run.invariant good_init fun _ _ _ h hstep => h.step hstep.1 hstep.2
  rintro ⟨inv, hframe, hpc, hreg, hcancelled, hnone⟩
  obtain ⟨t, ht, hof, hstate⟩ := (h.kept f inv hframe).wakes (by rw [hpc]; rfl)
    (by rw [hcancelled]; rfl) hreg
  exact hnone t ht hof.fiber hof.id (.inr (.inl hstate))

/-- A `read` that is registered and suspended when its timeout comes. -/
theorem run_in_time_not_lost_read :
    ∃ acts s, Run (fun s act s' => InTime s act ∧ s.exec act = some s') (init : Hook Nat) acts s ∧
      (∃ inv, s.frames 1 = .invocation inv ∧ inv.pc = .suspended ∧
        inv.cancelled = some .ETIMEDOUT) ∧ ¬ Lost s 1 := by
  let succeed : EpollCtl := fun _ _ _ => true
  obtain ⟨s, run, hinv⟩ :
      ∃ s, Run (fun s act s' => InTime s act ∧ s.exec act = some s') (init : Hook Nat)
        [.socket 1 5, .get 1 none, .get 1 (some true), .setsockopt 5 .SO_RCVTIMEO 100,
          .start 1 (.doIo .read) 5, .move 1 (.enter true), .move 1 (.call (.err .EAGAIN)),
          .move 1 .arm, .move 1 (.register succeed), .move 1 .hold, .timer 0 .extract,
          .timer 0 .test, .timer 0 .mark, .timer 0 (.cancel succeed)] s ∧
        ∃ inv, s.frames 1 = .invocation inv ∧ inv.pc = .suspended ∧
          inv.cancelled = some .ETIMEDOUT :=
    ⟨_, .cons ⟨trivial, rfl⟩ (.cons ⟨trivial, rfl⟩ (.cons ⟨trivial, rfl⟩ (.cons ⟨trivial, rfl⟩
      (.cons ⟨trivial, rfl⟩ (.cons ⟨trivial, rfl⟩ (.cons ⟨trivial, rfl⟩ (.cons ⟨trivial, rfl⟩
      (.cons ⟨trivial, rfl⟩ (.cons ⟨trivial, rfl⟩ (.cons ⟨trivial, rfl⟩ (.cons ⟨trivial, rfl⟩
      (.cons ⟨by rintro _ _ ⟨⟩ ⟨⟩; rfl, rfl⟩
      (.cons ⟨fun _ _ _ => rfl, rfl⟩ .start))))))))))))), _, rfl, rfl, rfl⟩
  exact ⟨_, s, run, hinv, run_in_time_not_lost run 1⟩

/-- The callback runs between `addConditionTimer` and `addEvent`: the fiber is
lost, in a `read` and in a `connect`. -/
theorem early_callback_loses_fiber :
    (∃ acts s, Run (fun s act s' => s.exec act = some s') (init : Hook Nat) acts s ∧
      Lost s 1 ∧ ∃ inv, s.frames 1 = .invocation inv ∧ inv.kind = .doIo .read) ∧
    ∃ acts s, Run (fun s act s' => s.exec act = some s') (init : Hook Nat) acts s ∧
      Lost s 1 ∧ ∃ inv, s.frames 1 = .invocation inv ∧ inv.kind = .connect (some 100) := by
  let succeed : EpollCtl := fun _ _ _ => true
  constructor
  · refine ⟨[.socket 1 5, .get 1 none, .get 1 (some true), .setsockopt 5 .SO_RCVTIMEO 100,
        .start 1 (.doIo .read) 5, .move 1 (.enter true), .move 1 (.call (.err .EAGAIN)),
        .move 1 .arm, .timer 0 .extract, .timer 0 .test, .timer 0 .mark, .timer 0 (.cancel succeed),
        .move 1 (.register succeed), .move 1 .hold], _,
      .cons rfl (.cons rfl (.cons rfl (.cons rfl (.cons rfl (.cons rfl (.cons rfl (.cons rfl
        (.cons rfl (.cons rfl (.cons rfl (.cons rfl (.cons rfl (.cons rfl .start))))))))))))),
      ⟨_, rfl, rfl, ⟨rfl, rfl⟩, rfl, ?_⟩, _, rfl, rfl⟩
    rintro t (⟨⟩ | ⟨_, ⟨⟩⟩)
    simp [CanWake]
  · refine ⟨[.socket 1 5, .get 1 none, .get 1 (some true), .start 1 (.connect (some 100)) 5,
        .move 1 (.enter true), .move 1 (.call (.err .EINPROGRESS)), .move 1 .arm, .timer 0 .extract,
        .timer 0 .test, .timer 0 .mark, .timer 0 (.cancel succeed), .move 1 (.register succeed),
        .move 1 .hold], _,
      .cons rfl (.cons rfl (.cons rfl (.cons rfl (.cons rfl (.cons rfl (.cons rfl (.cons rfl
        (.cons rfl (.cons rfl (.cons rfl (.cons rfl (.cons rfl .start)))))))))))),
      ⟨_, rfl, rfl, ⟨rfl, rfl⟩, rfl, ?_⟩, _, rfl, rfl⟩
    rintro t (⟨⟩ | ⟨_, ⟨⟩⟩)
    simp [CanWake]

end Sylar.Hook
