import Sylar.Timer.Expiry

/-! Whole runs of the timer manager. A timer whose callback is gone never gets
it back, so what ends a timer's life is an event of the trace: a `cancel` that
answered true, or the delivery of a timer that does not recur. -/
namespace Sylar.TimerManager

open Lib Lib.OrderedSet

variable {Cb : Type} {m m' : TimerManager Cb} {id : Nat}

abbrev Event (Cb : Type) := Op Cb × Out Cb

def Ends (id : Nat) : Event Cb → Prop
  | (.cancel j, .answered result) => j = id ∧ result = true
  | (.listExpiredCb _ _, .expired cbs) => ∃ entry ∈ cbs, entry.1 = id ∧ entry.2.recurring = false
  | _ => False

instance (id : Nat) (e : Event Cb) : Decidable (Ends id e) := by
  unfold Ends
  split <;> infer_instance

/-- The event neither delivers the timer nor lets a `cancel` or `refresh` of
it succeed. -/
def Spares (id : Nat) (e : Event Cb) : Prop :=
  (∀ cbs, e.2 = .expired cbs → id ∉ cbs.map Prod.fst) ∧
    ((e.1 = .cancel id ∨ ∃ now, e.1 = .refresh id now) → e.2 = .answered false)

theorem Good.not_mem_of_dead (h : Good [] m) (hdead : m.dead id) : id ∉ m.timers := by
  intro hin
  obtain ⟨t, ht, hcb⟩ := (h.armed id).mp (by simpa using hin)
  obtain ⟨u, hu, hnone⟩ := hdead
  obtain rfl : t = u := Option.some.inj (ht.symm.trans hu)
  simp [hnone] at hcb

theorem Good.addTimer (h : Good [] m) (now ms : UInt64) (cb : Cb) (recurring : Bool) {addr : Nat}
    (haddr : ∀ id ∈ m.timers ++ m.held, (m.objs[id]?).map (·.addr) ≠ some addr) :
    Good [] (m.addTimer now ms (some cb) recurring addr).2 ∧
      ∀ j, m.dead j → (m.addTimer now ms (some cb) recurring addr).2.dead j := by
  constructor
  · exact (h.create (t := { addr, recurring, ms, next := now + ms, cb := some cb }) rfl
      haddr).addTimerLocked
  · rintro j ⟨t, ht, hcb⟩
    have hj : j < m.objs.length := (List.getElem?_eq_some_iff.mp ht).1
    exact ⟨t, (List.getElem?_append_left hj).trans ht, hcb⟩

theorem Good.release (h : Good [] m) (id : Nat) : Good [] (m.release id) := by
  have hsub : (m.release id).held.Sublist m.held := List.filter_sublist
  constructor
  · exact h.sorted
  · exact h.nodup
  · exact h.armed
  · intro j hj
    exact h.held j (hsub.subset hj)
  · intro i j hi hj
    have hlive := (hsub.append_left (m.timers ++ [])).subset
    exact h.distinct i j (hlive hi) (hlive hj)

/-- One step: it does not fail, it keeps the order, it brings no timer back to
life, it ends the timers its event says it ends, and it spares those already
dead. -/
theorem Good.step (h : Good [] m) {op : Op Cb} (hop : op.Enabled m) :
    ∃ out m', op.exec m = .ok (out, m') ∧ Good [] m' ∧ (∀ j, m.dead j → m'.dead j) ∧
      (∀ j, Ends j (op, out) → m'.dead j) ∧ ∀ j, m.dead j → Spares j (op, out) := by
  cases op with
  | addTimer now ms cb recurring addr =>
    obtain ⟨hgood, hdead⟩ := h.addTimer now ms cb recurring hop
    exact ⟨_, _, rfl, hgood, hdead, fun _ hends => hends.elim, fun _ _ => by simp [Spares]⟩
  | cancel id =>
    obtain ⟨result, m', heq, hgood, -, hdead, hends, hrefuse⟩ := h.cancel hop
    refine ⟨.answered result, m', ?_, hgood, hdead, ?_, ?_⟩
    · simp only [Op.exec, heq, bind, Except.bind]
      rfl
    · rintro j ⟨rfl, hresult⟩
      exact hends hresult
    · intro j hj
      refine ⟨by simp, ?_⟩
      rintro (heq | ⟨now, heq⟩)
      · cases heq
        rw [hrefuse hj]
      · cases heq
  | refresh id now =>
    obtain ⟨result, m', heq, hgood, -, hdead, hrefuse⟩ := h.refresh hop now
    refine ⟨.answered result, m', ?_, hgood, hdead, fun _ hends => hends.elim, ?_⟩
    · simp only [Op.exec, heq, bind, Except.bind]
      rfl
    · intro j hj
      refine ⟨by simp, ?_⟩
      rintro (heq | ⟨now', heq⟩)
      · cases heq
      · cases heq
        rw [hrefuse hj]
  | reset id ms fromNow now =>
    obtain ⟨answer, m', heq, hgood, -, hdead⟩ := h.reset hop ms fromNow now
    refine ⟨.rearmed answer.1 answer.2, m', ?_, hgood, hdead, fun _ hends => hends.elim,
      fun _ _ => by simp [Spares]⟩
    simp only [Op.exec, heq, bind, Except.bind]
    rfl
  | getNextTimer now =>
    obtain ⟨ms, heq⟩ := h.getNextTimer now
    refine ⟨.timeout ms, { m with tickled := false }, ?_, ⟨h.sorted, h.nodup, h.armed, h.held, h.distinct⟩,
      fun _ hj => hj, fun _ hends => hends.elim, fun _ _ => by simp [Spares]⟩
    simp only [Op.exec, heq, bind, Except.bind]
    rfl
  | listExpiredCb now sentinel =>
    obtain ⟨cbs, m', heq, hgood, hmem, hdead, hlast⟩ := h.listExpiredCb now sentinel
    refine ⟨.expired cbs, m', ?_, hgood, hdead, ?_, ?_⟩
    · simp only [Op.exec, heq, bind, Except.bind]
      rfl
    · rintro j ⟨entry, hentry, rfl, hrec⟩
      exact hlast entry hentry hrec
    · intro j hj
      refine ⟨?_, by simp⟩
      intro cbs' hcbs hin
      cases hcbs
      obtain ⟨entry, hentry, rfl⟩ := List.mem_map.mp hin
      exact h.not_mem_of_dead hj (hmem entry hentry)
  | release id =>
    exact ⟨_, _, rfl, h.release id, fun _ hj => hj, fun _ hends => hends.elim,
      fun _ _ => by simp [Spares]⟩

theorem Step.good (hstep : Step m e m') (h : Good [] m) :
    Good [] m' ∧ (∀ j, m.dead j → m'.dead j) ∧ (∀ j, Ends j e → m'.dead j) ∧
      ∀ j, m.dead j → Spares j e := by
  obtain ⟨hop, hexec⟩ := hstep
  obtain ⟨out, n, heq, hrest⟩ := h.step hop
  rw [hexec] at heq
  cases heq
  exact hrest

theorem run_good {now : UInt64} {es : List (Event Cb)} (run : Run Step (init now) es m) :
    Good [] m :=
  run.invariant (good_init now) fun _ _ _ h hstep => (Step.good hstep h).1

/-- In every reachable state the set is strictly ordered by `(m_next, address)`,
holds exactly the timers that have a callback, and no operation runs into
`end()`; after a timer's end it is never delivered, cancelled or refreshed. -/
theorem run_timers_ordered (now : UInt64) {es : List (Event Cb)} {m : TimerManager Cb}
    (run : Run Step (init now) es m) :
    (m.timers.Pairwise fun a b => ∃ s t, m.objs[a]? = some s ∧ m.objs[b]? = some t ∧
      (s.next < t.next ∨ s.next = t.next ∧ s.addr < t.addr)) ∧
    m.timers.Nodup ∧
    (∀ id t, m.objs[id]? = some t → (id ∈ m.timers ↔ t.cb ≠ none)) ∧
    (∀ op : Op Cb, op.Enabled m → ∃ out m', op.exec m = .ok (out, m')) ∧
    (∀ id before e after, es = before ++ e :: after → Ends id e → ∀ e' ∈ after, Spares id e') := by
  have h := run_good run
  refine ⟨?_, h.sorted.nodup, ?_, ?_, ?_⟩
  · apply List.Pairwise.imp_of_mem _ h.sorted
    intro a b ha hb hlt
    obtain ⟨s, hs, -⟩ := (h.armed a).mp (by simpa using ha)
    obtain ⟨t, ht, -⟩ := (h.armed b).mp (by simpa using hb)
    exact ⟨s, t, hs, ht, (key_lt_key hs ht).mp hlt⟩
  · intro id t ht
    have harmed := h.armed id
    simp only [List.append_nil, TimerManager.armed, ht, Option.some.injEq, exists_eq_left'] at harmed
    rw [harmed, Option.isSome_iff_ne_none]
  · intro op hop
    obtain ⟨out, m', heq, -⟩ := h.step hop
    exact ⟨out, m', heq⟩
  · intro id
    exact (run.ever_after (I := Good []) (P := (·.dead id)) (Q := Spares id) (good_init now)
      (fun _ _ _ h hstep => (Step.good hstep h).1) (Ends id)
      (fun _ _ _ h hstep hends => (Step.good hstep h).2.2.1 id hends)
      (fun _ _ _ h hdead hstep =>
        ⟨(Step.good hstep h).2.1 id hdead, (Step.good hstep h).2.2.2 id hdead⟩)).2.2

/-- Two timers, the second recurring and at the lower address: both expire at
once, the recurring one again, then it is cancelled. -/
theorem run_timers_ordered_twoTimers :
    ∃ es m, Run Step (init 0 : TimerManager Nat) es m ∧
      (∃ e ∈ es, Ends 0 e) ∧ (∃ e ∈ es, Ends 1 e) ∧
      (m.timers.Pairwise fun a b => ∃ s t, m.objs[a]? = some s ∧ m.objs[b]? = some t ∧
        (s.next < t.next ∨ s.next = t.next ∧ s.addr < t.addr)) ∧
      m.timers.Nodup ∧
      (∀ id t, m.objs[id]? = some t → (id ∈ m.timers ↔ t.cb ≠ none)) ∧
      (∀ op : Op Nat, op.Enabled m → ∃ out m', op.exec m = .ok (out, m')) ∧
      (∀ id before e after, es = before ++ e :: after → Ends id e →
        ∀ e' ∈ after, Spares id e') := by
  obtain ⟨es, m, run, hfirst, hsecond⟩ : ∃ es m, Run Step (init 0 : TimerManager Nat) es m ∧
      (∃ e ∈ es, Ends 0 e) ∧ (∃ e ∈ es, Ends 1 e) :=
    ⟨[(.addTimer 0 10 7 false 4, _), (.addTimer 0 10 8 true 2, _), (.listExpiredCb 12 3, _),
        (.cancel 0, _), (.listExpiredCb 22 5, _), (.cancel 1, _), (.refresh 1 30, _),
        (.listExpiredCb 40 1, _)], _,
      .cons ⟨by decide, rfl⟩ (.cons ⟨by decide, rfl⟩ (.cons ⟨by decide, rfl⟩
        (.cons ⟨by decide, rfl⟩ (.cons ⟨by decide, rfl⟩ (.cons ⟨by decide, rfl⟩
          (.cons ⟨by decide, rfl⟩ (.cons ⟨by decide, rfl⟩ .start))))))), by decide, by decide⟩
  exact ⟨es, m, run, hfirst, hsecond, run_timers_ordered 0 run⟩

end Sylar.TimerManager
