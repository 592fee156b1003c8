import Sylar.Timer.Runs

/-! Workers that share one timer manager, at the granularity of its lock.
`listExpiredCb` tests for an empty set under the read lock and goes on under
the write lock; between the two a worker stands in a gap in which other
threads run. -/
namespace Sylar.TimerManager

open Lib

/-- `gap w` is the clock reading of a worker that has seen a non-empty set and
waits for the write lock. -/
structure Workers (Cb : Type) where
  manager : TimerManager Cb
  gap : Nat → Option UInt64

/-- `call` is one whole critical section of any thread. -/
inductive Act (Cb : Type) where
  | call (op : Op Cb)
  | test (w : Nat) (now : UInt64)
  | collect (w : Nat) (sentinel : Nat)

variable {Cb : Type} {s s' : Workers Cb} {m m' : TimerManager Cb}

def Op.oneSection : Op Cb → Bool
  | .listExpiredCb _ _ => false
  | _ => true

namespace Workers

def init (now : UInt64) : Workers Cb := { manager := .init now, gap := fun _ => none }

def Enabled (s : Workers Cb) : Act Cb → Prop
  | .call op => op.oneSection = true ∧ op.Enabled s.manager
  | .test w _ => s.gap w = none
  | .collect w _ => (s.gap w).isSome = true

instance (s : Workers Cb) (act : Act Cb) : Decidable (s.Enabled act) := by
  cases act <;> unfold Enabled <;> infer_instance

def exec (s : Workers Cb) : Act Cb → Except TimerFault (Workers Cb)
  | .call op => do
    let (_, m) ← op.exec s.manager
    return { s with manager := m }
  | .test w now =>
    if s.manager.timers.isEmpty then .ok s
    else .ok { s with gap := Function.update s.gap w (some now) }
  | .collect w sentinel =>
    match s.gap w with
    | none => .ok s
    | some now => do
      let (_, m) ← s.manager.collectExpired now sentinel
      return { manager := m, gap := Function.update s.gap w none }

def Step (s : Workers Cb) (act : Act Cb) (s' : Workers Cb) : Prop :=
  s.Enabled act ∧ s.exec act = .ok s'

/-- The section takes the last timers out of the set: it cancels the only one,
or it collects when every timer is due and none recurs. -/
def TakesLast (s : Workers Cb) : Act Cb → Prop
  | .call (.cancel id) => s.manager.timers = [id]
  | .collect w _ => ∃ now, s.gap w = some now ∧ ∀ id ∈ s.manager.timers,
      s.manager.due now (s.manager.detectClockRollover now).1 id = true ∧
        ∃ t, s.manager.objs[id]? = some t ∧ t.recurring = false
  | _ => False

/-- No other worker stands in its gap when the last timers are taken out. -/
def Undisturbed (s : Workers Cb) (act : Act Cb) : Prop :=
  s.TakesLast act → ∀ w, (s.gap w).isSome → ∃ sentinel, act = .collect w sentinel

end Workers

theorem Good.mem_of_call (h : Good [] m) {op : Op Cb} (hsec : op.oneSection = true)
    (hop : op.Enabled m) {out : Out Cb} (heq : op.exec m = .ok (out, m')) {j : Nat}
    (hj : j ∈ m.timers) (hcancel : op ≠ .cancel j) : j ∈ m'.timers := by
  cases op with
  | addTimer now ms cb recurring addr =>
    cases heq
    have hnew := h.create (t := { addr, recurring, ms, next := now + ms, cb := some cb }) rfl hop
    exact (hnew.mem_insertTimer j).mpr (Or.inr hj)
  | cancel id =>
    obtain ⟨result, n, hexec, -, hmem, -⟩ := h.cancel hop
    simp only [Op.exec, hexec, bind, Except.bind] at heq
    cases heq
    refine (hmem j).mpr ⟨hj, ?_⟩
    rintro rfl
    exact hcancel rfl
  | refresh id now =>
    obtain ⟨result, n, hexec, -, hmem, -⟩ := h.refresh hop now
    simp only [Op.exec, hexec, bind, Except.bind] at heq
    cases heq
    exact (hmem j).mpr hj
  | reset id ms fromNow now =>
    obtain ⟨answer, n, hexec, -, hmem, -⟩ := h.reset hop ms fromNow now
    simp only [Op.exec, hexec, bind, Except.bind] at heq
    cases heq
    exact (hmem j).mpr hj
  | getNextTimer now =>
    obtain ⟨ms, hexec⟩ := h.getNextTimer now
    simp only [Op.exec, hexec, bind, Except.bind] at heq
    cases heq
    exact hj
  | listExpiredCb now sentinel => simp [Op.oneSection] at hsec
  | release id =>
    cases heq
    exact hj

/-- A collection leaves the set empty exactly when all timers are due and none
recurs. -/
theorem Good.collectExpired_eq_nil (h : Good [] m) (now : UInt64) (sentinel : Nat)
    (hne : m.timers ≠ []) {cbs : List (Nat × Timer Cb)}
    (heq : m.collectExpired now sentinel = .ok (cbs, m')) :
    m'.timers = [] ↔ ∀ id ∈ m.timers, m.due now (m.detectClockRollover now).1 id = true ∧
      ∃ t, m.objs[id]? = some t ∧ t.recurring = false := by
  obtain ⟨cbs', n, hexec, hdel⟩ := h.collectExpired now sentinel (fun hnil => absurd hnil hne)
  rw [heq] at hexec
  cases hexec
  have hentry : ∀ id ∈ m.timers, m.due now (m.detectClockRollover now).1 id = true →
      ∃ entry ∈ cbs, entry.1 = id := by
    intro id hid hdue
    have hmem : id ∈ cbs.map Prod.fst := by
      rw [hdel.ids]
      exact List.mem_filter.mpr ⟨hid, hdue⟩
    simpa using hmem
  constructor
  · intro hnil id hid
    have hout : ¬ id ∈ m'.timers := by simp [hnil]
    rw [hdel.timers id] at hout
    have hdue : m.due now (m.detectClockRollover now).1 id = true := by
      by_contra hlate
      exact hout (Or.inl (List.mem_filter.mpr ⟨hid, by simpa using hlate⟩))
    obtain ⟨entry, hmem, rfl⟩ := hentry id hid hdue
    refine ⟨hdue, entry.2, hdel.objs entry hmem, ?_⟩
    by_contra hrec
    exact hout (Or.inr ⟨entry, hmem, rfl, by simpa using hrec⟩)
  · intro hall
    rw [List.eq_nil_iff_forall_not_mem]
    intro j hj
    rcases (hdel.timers j).mp hj with hkept | ⟨entry, hmem, rfl, hrec⟩
    · obtain ⟨hin, hlate⟩ := List.mem_filter.mp hkept
      simp [(hall j hin).1] at hlate
    · have hin : entry.1 ∈ m.timers := by
        apply List.mem_of_mem_filter
        rw [← hdel.ids]
        exact List.mem_map_of_mem hmem
      obtain ⟨-, t, ht, hno⟩ := hall entry.1 hin
      have hobj : m.objs[entry.1]? = some entry.2 := hdel.objs entry hmem
      obtain rfl : t = entry.2 := Option.some.inj (ht.symm.trans hobj)
      simp [hno] at hrec

namespace Workers

/-- While a worker stands in its gap the set it has tested is not empty. -/
structure Sound (s : Workers Cb) : Prop where
  good : Good [] s.manager
  gap : ∀ w, (s.gap w).isSome → s.manager.timers ≠ []

theorem sound_init (now : UInt64) : Sound (init now : Workers Cb) :=
  ⟨good_init now, fun _ hw => by simp [init] at hw⟩

theorem exec_call {op : Op Cb} (heq : s.exec (.call op) = .ok s') :
    ∃ out m', op.exec s.manager = .ok (out, m') ∧ s' = { s with manager := m' } := by
  simp only [exec, bind, Except.bind] at heq
  cases hop : op.exec s.manager with
  | error e => simp [hop] at heq
  | ok r =>
    rw [hop] at heq
    cases heq
    exact ⟨r.1, r.2, rfl, rfl⟩

theorem exec_collect {w sentinel : Nat} {now : UInt64} (hgap : s.gap w = some now)
    {cbs : List (Nat × Timer Cb)} (heq : s.manager.collectExpired now sentinel = .ok (cbs, m')) :
    s.exec (.collect w sentinel) =
      .ok { manager := m', gap := Function.update s.gap w none } := by
  simp only [exec, hgap, heq, bind, Except.bind]
  rfl

theorem Sound.call (h : Sound s) {op : Op Cb} (hund : s.Undisturbed (.call op))
    (hen : s.Enabled (.call op)) (heq : s.exec (.call op) = .ok s') : Sound s' := by
  obtain ⟨out, m', hop, rfl⟩ := exec_call heq
  have hstep : TimerManager.Step s.manager (op, out) m' := ⟨hen.2, hop⟩
  refine ⟨(Step.good hstep h.good).1, ?_⟩
  intro w hw hempty
  have hcancel : ∀ j ∈ s.manager.timers, op = .cancel j := by
    intro j hj
    by_contra hne
    have hstays := h.good.mem_of_call hen.1 hen.2 hop hj hne
    rw [hempty] at hstays
    simp at hstays
  obtain ⟨j, hj⟩ := List.exists_mem_of_ne_nil _ (h.gap w hw)
  obtain rfl := hcancel j hj
  have hlast : s.manager.timers = [j] := by
    have hsame : s.manager.timers = List.replicate s.manager.timers.length j := by
      apply List.eq_replicate_of_mem
      intro i hi
      cases hcancel i hi
      rfl
    have hnodup := h.good.sorted.nodup
    have hpos := List.length_pos_of_mem hj
    rw [hsame, List.nodup_replicate] at hnodup
    rw [hsame, show s.manager.timers.length = 1 by omega]
    rfl
  obtain ⟨sentinel, hact⟩ := hund hlast w hw
  cases hact

theorem Sound.collect (h : Sound s) {w sentinel : Nat} (hund : s.Undisturbed (.collect w sentinel))
    (hen : s.Enabled (.collect w sentinel)) :
    ∃ s', s.exec (.collect w sentinel) = .ok s' ∧ Sound s' := by
  obtain ⟨now, hgap⟩ := Option.isSome_iff_exists.mp hen
  have hne := h.gap w hen
  obtain ⟨cbs, m', heq, hdel⟩ := h.good.collectExpired now sentinel fun hnil => absurd hnil hne
  refine ⟨_, exec_collect hgap heq, hdel.good, ?_⟩
  intro w' hw' hempty
  have hother : w' ≠ w := by
    rintro rfl
    simp at hw'
  simp only [Function.update_of_ne hother] at hw'
  have hlast := (h.good.collectExpired_eq_nil now sentinel hne heq).mp hempty
  obtain ⟨sentinel', hact⟩ := hund ⟨now, hgap, hlast⟩ w' hw'
  cases hact
  exact hother rfl

theorem Sound.step (h : Sound s) {act : Act Cb} (hund : s.Undisturbed act)
    (hstep : s.Step act s') : Sound s' := by
  obtain ⟨hen, heq⟩ := hstep
  cases act with
  | call op => exact h.call hund hen heq
  | test w now =>
    simp only [exec] at heq
    split at heq
    · cases heq
      exact h
    · cases heq
      refine ⟨h.good, fun _ _ hempty => ?_⟩
      simp_all
  | collect w sentinel =>
    obtain ⟨n, hexec, hsound⟩ := h.collect hund hen
    rw [heq] at hexec
    cases hexec
    exact hsound

theorem exec_collect_empty {w : Nat} {now : UInt64} (hgap : s.gap w = some now)
    (hempty : s.manager.timers = []) (hroll : (s.manager.detectClockRollover now).1 = false)
    (sentinel : Nat) : s.exec (.collect w sentinel) = .error .derefEnd := by
  simp only [exec, hgap, collectExpired_empty now sentinel hempty hroll, bind, Except.bind]

/-- A section that takes out the last timers does leave the set empty, and the
other workers where they were. -/
theorem Sound.exec_takesLast (h : Sound s) {act : Act Cb} (hen : s.Enabled act)
    (hlast : s.TakesLast act) :
    ∃ s', s.exec act = .ok s' ∧ s'.manager.timers = [] ∧
      ∀ w, (∀ sentinel, act ≠ .collect w sentinel) → s'.gap w = s.gap w := by
  cases act with
  | call op =>
    cases op with
    | cancel id =>
      obtain ⟨result, m', hexec, -, hmem, -⟩ := h.good.cancel hen.2
      refine ⟨{ s with manager := m' }, ?_, ?_, fun _ _ => rfl⟩
      · simp only [exec, Op.exec, hexec, bind, Except.bind]
        rfl
      · rw [List.eq_nil_iff_forall_not_mem]
        intro j hj
        obtain ⟨hin, hne⟩ := (hmem j).mp hj
        rw [show s.manager.timers = [id] from hlast, List.mem_singleton] at hin
        exact hne hin
    | _ => exact hlast.elim
  | test w now => exact hlast.elim
  | collect w sentinel =>
    obtain ⟨now, hgap, hall⟩ := hlast
    have hne := h.gap w hen
    obtain ⟨cbs, m', heq, -⟩ := h.good.collectExpired now sentinel fun hnil => absurd hnil hne
    refine ⟨_, exec_collect hgap heq, ?_, ?_⟩
    · exact (h.good.collectExpired_eq_nil now sentinel hne heq).mpr hall
    · intro w' hother
      apply Function.update_of_ne
      rintro rfl
      exact hother sentinel rfl

/-- In every run in which no section takes out the last timers while another
worker stands in its gap, no worker reads the first timer of an empty set. The
condition cannot be dropped: after a section that breaks it, the worker in the
gap does so at its next step unless its reading is a rollover. -/
theorem run_undisturbed_collects (now : UInt64) {acts : List (Act Cb)} {s : Workers Cb}
    (run : Run (fun s act s' => s.Undisturbed act ∧ s.Step act s') (init now) acts s) :
    (∀ w sentinel, s.exec (.collect w sentinel) ≠ .error .derefEnd) ∧
    ∀ act, s.Enabled act → ¬ s.Undisturbed act → ∃ s' w reading, s.exec act = .ok s' ∧
      s'.gap w = some reading ∧ ((s'.manager.detectClockRollover reading).1 = false →
        ∀ sentinel, s'.exec (.collect w sentinel) = .error .derefEnd) := by
  have h : Sound s := run.invariant (sound_init now) fun _ _ _ h hstep => h.step hstep.1 hstep.2
  constructor
  · intro w sentinel
    cases hgap : s.gap w with
    | none => simp [exec, hgap]
    | some reading =>
      have hne := h.gap w (by simp [hgap])
      obtain ⟨cbs, m', heq, -⟩ := h.good.collectExpired reading sentinel fun hnil => absurd hnil hne
      simp [exec_collect hgap heq]
  · intro act hen hdist
    simp only [Undisturbed, not_forall, not_exists] at hdist
    obtain ⟨hlast, w, hw, hother⟩ := hdist
    obtain ⟨s', hexec, hempty, hgap⟩ := h.exec_takesLast hen hlast
    obtain ⟨reading, hreading⟩ := Option.isSome_iff_exists.mp hw
    have hstill : s'.gap w = some reading := (hgap w hother).trans hreading
    exact ⟨s', w, reading, hexec, hstill, exec_collect_empty hstill hempty⟩

/-- Two workers see the same expired timer; the first collects it. -/
theorem two_workers_read_empty_set :
    ∃ acts s, Run Step (init 0 : Workers Nat) acts s ∧
      s.Enabled (.collect 1 6) ∧ s.exec (.collect 1 6) = .error .derefEnd :=
  ⟨[.call (.addTimer 0 10 7 false 4), .test 0 20, .test 1 20, .collect 0 5], _,
    .cons ⟨by decide, rfl⟩ (.cons ⟨by decide, rfl⟩ (.cons ⟨by decide, rfl⟩
      (.cons ⟨by decide, rfl⟩ .start))), by decide, rfl⟩

/-- The same with a timer that recurs, which is back in the set when the second
worker takes the lock. -/
theorem run_undisturbed_collects_recurring :
    ∃ acts s, Run (fun s act s' => s.Undisturbed act ∧ s.Step act s') (init 0 : Workers Nat) acts s ∧
      s.gap 1 = some 20 ∧ (∀ w sentinel, s.exec (.collect w sentinel) ≠ .error .derefEnd) ∧
      ∀ act, s.Enabled act → ¬ s.Undisturbed act → ∃ s' w reading, s.exec act = .ok s' ∧
        s'.gap w = some reading ∧ ((s'.manager.detectClockRollover reading).1 = false →
          ∀ sentinel, s'.exec (.collect w sentinel) = .error .derefEnd) := by
  obtain ⟨s, run, hgap⟩ : ∃ s, Run (fun s act s' => s.Undisturbed act ∧ s.Step act s')
      (init 0 : Workers Nat)
      [.call (.addTimer 0 10 7 true 4), .test 0 20, .test 1 20, .collect 0 5] s ∧
      s.gap 1 = some 20 := by
    refine ⟨_, .cons ⟨nofun, by decide, rfl⟩ (.cons ⟨nofun, by decide, rfl⟩
      (.cons ⟨nofun, by decide, rfl⟩ (.cons ⟨?_, by decide, rfl⟩ .start))), rfl⟩
    rintro ⟨now, hgap, hall⟩
    obtain ⟨-, t, ht, hrec⟩ := hall 0 (by decide)
    cases ht
    cases hrec
  exact ⟨_, s, run, hgap, run_undisturbed_collects 0 run⟩

end Workers

end Sylar.TimerManager
