import Sylar.Timer.Wakeup

/-! A timer whose pointer no caller keeps, under a clock that does not go back. Nobody can cancel or
restart it, so it stays as it was made until `listExpiredCb` delivers it, which is not before its
deadline. -/
namespace Sylar.TimerManager

open Lib Lib.OrderedSet

variable {Cb : Type} {m m' : TimerManager Cb} {id : Nat} {t : Timer Cb} {now : UInt64}

structure Timed (Cb : Type) where
  manager : TimerManager Cb
  clock : UInt64

namespace Timed

def init (start : UInt64) : Timed Cb := ⟨TimerManager.init start, start⟩

def Step (w : Timed Cb) (e : Event Cb) (w' : Timed Cb) : Prop :=
  TimerManager.Step w.manager e w'.manager ∧ (∀ now ∈ e.1.reading, w.clock ≤ now) ∧
    w'.clock = e.1.reading.getD w.clock

end Timed

/-- What an operation other than `listExpiredCb` leaves alone: the time of the last one, and the
timers that nobody holds. -/
structure Frame (m m' : TimerManager Cb) : Prop where
  time : m'.previouseTime = m.previouseTime
  objs : ∀ id, id ∉ m.held → id < m.objs.length → m'.objs[id]? = m.objs[id]?
  held : ∀ id, id ∉ m.held → id < m.objs.length → id ∉ m'.held

theorem Frame.refl (m : TimerManager Cb) : Frame m m :=
  ⟨rfl, fun _ _ _ => rfl, fun _ hfree _ => hfree⟩

theorem Frame.of_put {j : Nat} (hj : j ∈ m.held) {t : Timer Cb}
    (hobjs : m'.objs = (m.put j t).objs) (hheld : m'.held = m.held)
    (htime : m'.previouseTime = m.previouseTime) : Frame m m' := by
  refine ⟨htime, ?_, ?_⟩
  · rintro id hfree -
    have hne : j ≠ id := by
      rintro rfl
      exact hfree hj
    rw [hobjs]
    exact List.getElem?_set_ne hne
  · rintro id hfree -
    rwa [hheld]

theorem frame_exec {op : Op Cb} {out : Out Cb} (hop : op.Enabled m)
    (hexec : op.exec m = .ok (out, m'))
    (hlist : ∀ now sentinel, op ≠ .listExpiredCb now sentinel) : Frame m m' := by
  cases op with
  | addTimer now ms cb recurring addr =>
    cases hexec
    refine ⟨rfl, fun id _ hlt => List.getElem?_append_left hlt, fun id hfree hlt => ?_⟩
    exact List.not_mem_cons_of_ne_of_not_mem (Nat.ne_of_lt hlt) hfree
  | cancel j =>
    obtain ⟨⟨result, n⟩, hrun, hexec⟩ := bind_eq_ok.mp hexec
    cases hexec
    obtain rfl | ⟨t, it, -, rfl⟩ := cancel_cases hrun
    · exact .refl _
    · exact .of_put hop rfl rfl rfl
  | refresh j now =>
    obtain ⟨⟨result, n⟩, hrun, hexec⟩ := bind_eq_ok.mp hexec
    cases hexec
    obtain rfl | ⟨t, -, -, rfl⟩ := refresh_cases hrun
    · exact .refl _
    · exact .of_put hop rfl rfl rfl
  | reset j ms fromNow now =>
    obtain ⟨⟨answer, n⟩, hrun, hexec⟩ := bind_eq_ok.mp hexec
    cases hexec
    obtain ⟨-, rfl⟩ | ⟨t, -, -, hadded⟩ := reset_cases hrun
    · exact .refl _
    · obtain ⟨-, rfl⟩ := Prod.mk.inj hadded
      exact .of_put hop rfl rfl rfl
  | getNextTimer now =>
    obtain ⟨⟨ms, n⟩, hrun, hexec⟩ := bind_eq_ok.mp hexec
    cases hexec
    unfold TimerManager.getNextTimer at hrun
    dsimp only at hrun
    split at hrun
    · cases hrun
      exact ⟨rfl, fun _ _ _ => rfl, fun _ hfree _ => hfree⟩
    · obtain ⟨t, -, hrun⟩ := bind_eq_ok.mp hrun
      split at hrun <;> cases hrun <;>
        exact ⟨rfl, fun _ _ _ => rfl, fun _ hfree _ => hfree⟩
  | listExpiredCb now sentinel => exact absurd rfl (hlist now sentinel)
  | release j =>
    cases hexec
    exact ⟨rfl, fun _ _ _ => rfl, fun _ hfree _ h => hfree (List.mem_of_mem_filter h)⟩

/-- The manager is in order, and no call of `listExpiredCb` has read a time to come. -/
structure Steady (w : Timed Cb) : Prop where
  good : Good [] w.manager
  time : w.manager.previouseTime ≤ w.clock

/-- A timer that nobody holds, and that fires once: it is as it was made, or it is over. -/
structure Unheld (id : Nat) (t : Timer Cb) (w : Timed Cb) : Prop extends Steady w where
  free : id ∉ w.manager.held
  once : t.recurring = false
  state : w.manager.objs[id]? = some t ∨ w.manager.dead id

section Steps

variable {w w' : Timed Cb} {e : Event Cb}

theorem Timed.Step.clock_le (hstep : Timed.Step w e w') : w.clock ≤ w'.clock := by
  obtain ⟨-, hread, hclock⟩ := hstep
  rw [hclock]
  cases hreading : e.1.reading with
  | none => exact UInt64.le_refl _
  | some now => exact hread now hreading

theorem Timed.Step.cases (hstep : Timed.Step w e w') :
    (∃ now sentinel cbs, e = (.listExpiredCb now sentinel, .expired cbs) ∧ w'.clock = now ∧
      w.manager.listExpiredCb now sentinel = .ok (cbs, w'.manager)) ∨
    Frame w.manager w'.manager := by
  obtain ⟨⟨hop, hexec⟩, -, hclock⟩ := hstep
  obtain ⟨op, out⟩ := e
  by_cases hlist : ∃ now sentinel, op = .listExpiredCb now sentinel
  · obtain ⟨now, sentinel, rfl⟩ := hlist
    obtain ⟨⟨cbs, n⟩, hrun, hexec⟩ := bind_eq_ok.mp hexec
    obtain ⟨rfl, rfl⟩ := Prod.mk.inj (Except.ok.inj hexec)
    exact .inl ⟨now, sentinel, cbs, rfl, hclock, hrun⟩
  · apply Or.inr
    apply frame_exec hop hexec
    intro now sentinel heq
    exact hlist ⟨now, sentinel, heq⟩

theorem Steady.step (h : Steady w) (hstep : Timed.Step w e w') : Steady w' := by
  have hle := hstep.clock_le
  refine ⟨(Step.good hstep.1 h.good).1, ?_⟩
  rcases hstep.cases with ⟨now, sentinel, cbs, -, hclock, hrun⟩ | hframe
  · rw [(frame_listExpiredCb hrun).2.2]
    split
    · exact UInt64.le_trans h.time hle
    · rw [hclock]
      exact UInt64.le_refl _
  · rw [hframe.time]
    exact UInt64.le_trans h.time hle

theorem run_steady {start : UInt64} {es : List (Event Cb)}
    (run : Run Timed.Step (Timed.init start) es w) : Steady w :=
  run.invariant ⟨good_init start, UInt64.le_refl _⟩ fun _ _ _ h hstep => h.step hstep

theorem Steady.expired_iff (h : Steady w) (hle : w.clock ≤ now) (j : Nat) :
    w.manager.Expired now j ↔ ∃ u, w.manager.objs[j]? = some u ∧ u.next ≤ now := by
  have hback : ¬ now < w.manager.previouseTime :=
    UInt64.not_lt.mpr (UInt64.le_trans h.time hle)
  unfold Expired detectClockRollover
  simp [hback]

end Steps

namespace Unheld

variable {w w' : Timed Cb} {e : Event Cb}

theorem lt (h : Unheld id t w) : id < w.manager.objs.length := by
  rcases h.state with hget | ⟨u, hget, -⟩
  · exact (List.getElem?_eq_some_iff.mp hget).1
  · exact (List.getElem?_eq_some_iff.mp hget).1

theorem delivered (h : Unheld id t w) (hle : w.clock ≤ now) {sentinel : Nat}
    {cbs : List (Nat × Timer Cb)} (hrun : w.manager.listExpiredCb now sentinel = .ok (cbs, m'))
    (hid : id ∈ cbs.map Prod.fst) : t.next ≤ now := by
  by_cases hnil : w.manager.timers = []
  · unfold listExpiredCb at hrun
    rw [if_pos (by rw [hnil]; rfl)] at hrun
    cases hrun
    cases hid
  · obtain ⟨cbs', n, hrun', hlisted⟩ := h.good.listed hnil now sentinel
    obtain ⟨rfl, rfl⟩ := Prod.mk.inj (Except.ok.inj (hrun'.symm.trans hrun))
    obtain ⟨hin, hexp⟩ := (hlisted.ids id).mp hid
    obtain ⟨u, hu, hdue⟩ := (h.toSteady.expired_iff hle id).mp hexp
    have halive : w.manager.objs[id]? = some t :=
      h.state.resolve_right fun hdead => h.good.not_mem_of_dead hdead hin
    obtain rfl := Option.some.inj (halive.symm.trans hu)
    exact hdue

theorem listExpiredCb (h : Unheld id t w) {sentinel : Nat} {cbs : List (Nat × Timer Cb)}
    (hrun : w.manager.listExpiredCb now sentinel = .ok (cbs, m')) :
    m'.objs[id]? = some t ∨ m'.dead id := by
  rcases h.state with halive | hdead
  · by_cases hnil : w.manager.timers = []
    · unfold TimerManager.listExpiredCb at hrun
      rw [if_pos (by rw [hnil]; rfl)] at hrun
      cases hrun
      exact .inl halive
    · obtain ⟨cbs', n, hrun', hlisted⟩ := h.good.listed hnil now sentinel
      obtain ⟨rfl, rfl⟩ := Prod.mk.inj (Except.ok.inj (hrun'.symm.trans hrun))
      by_cases hexp : id ∈ w.manager.timers ∧ w.manager.Expired now id
      · obtain ⟨entry, hmem, rfl⟩ := List.mem_map.mp ((hlisted.ids id).mpr hexp)
        obtain rfl := Option.some.inj (halive.symm.trans (hlisted.objs entry hmem))
        exact .inr ⟨_, hlisted.ended entry hmem h.once, rfl⟩
      · exact .inl ((hlisted.kept id hexp).trans halive)
  · obtain ⟨cbs', n, hrun', -, -, hkept, -⟩ := h.good.listExpiredCb now sentinel
    obtain ⟨rfl, rfl⟩ := Prod.mk.inj (Except.ok.inj (hrun'.symm.trans hrun))
    exact .inr (hkept id hdead)

theorem step (h : Unheld id t w) (hstep : Timed.Step w e w') : Unheld id t w' := by
  have hsteady := h.toSteady.step hstep
  obtain ⟨-, hdead, -, -⟩ := Step.good hstep.1 h.good
  rcases hstep.cases with ⟨now, sentinel, cbs, -, -, hrun⟩ | hframe
  · refine ⟨hsteady, ?_, h.once, h.listExpiredCb hrun⟩
    rw [(frame_listExpiredCb hrun).2.1]
    exact h.free
  · refine ⟨hsteady, hframe.held id h.free h.lt, h.once, ?_⟩
    rw [hframe.objs id h.free h.lt]
    exact h.state.imp_right (hdead id)

end Unheld

/-- Along a run, a timer that nobody holds is delivered only when its time has come. -/
theorem run_delivers_unheld {w w' : Timed Cb} {es : List (Event Cb)} (h : Unheld id t w)
    (run : Run Timed.Step w es w') {sentinel : Nat} {cbs : List (Nat × Timer Cb)}
    (he : (Op.listExpiredCb now sentinel, Out.expired cbs) ∈ es) (hid : id ∈ cbs.map Prod.fst) :
    t.next ≤ now := by
  obtain ⟨before, after, rfl⟩ := List.append_of_mem he
  obtain ⟨u, hbefore, hafter⟩ := run.split
  obtain ⟨v, ⟨⟨-, hexec⟩, hread, -⟩, -⟩ := hafter.uncons
  obtain ⟨⟨cbs', n⟩, hrun, hexec⟩ := bind_eq_ok.mp hexec
  obtain ⟨hout, -⟩ := Prod.mk.inj (Except.ok.inj hexec)
  obtain rfl := Out.expired.inj hout
  have hu : Unheld id t u := hbefore.invariant h fun _ _ _ h hstep => h.step hstep
  exact hu.delivered (hread now rfl) hrun hid

end Sylar.TimerManager
