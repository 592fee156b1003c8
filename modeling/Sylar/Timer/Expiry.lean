import Sylar.Timer.Invariant

/-! What `listExpiredCb` takes out of the set: without a rollover the timers
whose time has come, which are the front of the set, and with one all of
them. -/
namespace Sylar.TimerManager

open Lib Lib.OrderedSet

variable {Cb : Type} {m m' : TimerManager Cb} {id : Nat} {t : Timer Cb} {pending : List Nat}

def due (m : TimerManager Cb) (now : UInt64) (rollover : Bool) (id : Nat) : Bool :=
  rollover || m.objs[id]?.any fun t => t.next ≤ now

theorem Good.get_mem (h : Good pending m) (hid : id ∈ m.timers) :
    ∃ t, m.objs[id]? = some t ∧ t.cb.isSome :=
  (h.armed id).mp (List.mem_append_left _ hid)

theorem key_lt_coe (ht : m.objs[id]? = some t) (k : ℕ ×ₗ ℕ) :
    m.key id < (k : WithBot (ℕ ×ₗ ℕ)) ↔ Timer.key t < k := by
  rw [key_of_get ht, WithBot.coe_lt_coe]

theorem key_lt_iff_due (ht : m.objs[id]? = some t) (now : UInt64) :
    m.key id < ((toLex (now.toNat + 1, 0) : ℕ ×ₗ ℕ) : WithBot (ℕ ×ₗ ℕ)) ↔
      m.due now false id = true := by
  rw [key_lt_coe ht, Timer.key, Prod.Lex.toLex_lt_toLex]
  simp only [due, ht, Bool.false_or, Option.any_some, decide_eq_true_eq, UInt64.le_iff_toNat_le]
  omega

/-- The iterator passes exactly the timers that are due, whatever address the
sentinel got. -/
theorem Good.expiredEnd (h : Good [] m) (now : UInt64) (rollover : Bool) (sentinel : Nat) :
    m.timers.take (m.expiredEnd now rollover sentinel) = m.timers.filter (m.due now rollover) ∧
      m.timers.drop (m.expiredEnd now rollover sentinel) =
        m.timers.filter (!m.due now rollover ·) := by
  cases rollover with
  | true =>
    apply take_drop_eq_filter
    · intro id _
      rfl
    · simp [TimerManager.expiredEnd, skipEqual, List.drop_eq_nil_of_le]
  | false =>
    -- two cuts: at the sentinel's key, and then past the timers of the same time
    have hsentinel := h.sorted.lowerBound_split
      (fun id => Timer.Comparator m.objs[id]? (some (.at sentinel now)))
      ((toLex (now.toNat, sentinel) : ℕ ×ₗ ℕ) : WithBot (ℕ ×ₗ ℕ)) (by
        intro id hid
        obtain ⟨t, ht, -⟩ := h.get_mem hid
        rw [key_lt_coe ht, ht, comparator_iff]
        rfl)
    obtain ⟨hbefore, hafter⟩ := hsentinel
    have hequal := (h.sorted.sublist (List.drop_sublist (lowerBound
      (fun id => Timer.Comparator m.objs[id]? (some (.at sentinel now))) m.timers) _)).lowerBound_split
      (fun id => m.objs[id]?.any (·.next == now))
      ((toLex (now.toNat + 1, 0) : ℕ ×ₗ ℕ) : WithBot (ℕ ×ₗ ℕ)) (by
        intro id hid
        obtain ⟨t, ht, -⟩ := h.get_mem (List.mem_of_mem_drop hid)
        have hge := hafter id hid
        rw [← not_lt, key_lt_coe ht, Timer.key, Prod.Lex.toLex_lt_toLex] at hge
        rw [key_lt_iff_due ht]
        simp only [due, ht, Option.any_some, Bool.false_or, beq_iff_eq, decide_eq_true_eq,
          UInt64.le_iff_toNat_le, ← UInt64.toNat_inj]
        simp only at hge
        omega)
    obtain ⟨hsame, hlater⟩ := hequal
    apply take_drop_eq_filter
    · intro id hid
      simp only [TimerManager.expiredEnd, skipEqual, Bool.false_eq_true, if_false,
        List.take_add] at hid
      rcases List.mem_append.mp hid with hid | hid
      · obtain ⟨t, ht, -⟩ := h.get_mem (List.mem_of_mem_take hid)
        rw [← key_lt_iff_due ht]
        refine lt_trans (hbefore id hid) ?_
        rw [WithBot.coe_lt_coe, Prod.Lex.toLex_lt_toLex]
        simp
      · obtain ⟨t, ht, -⟩ := h.get_mem (List.mem_of_mem_drop (List.mem_of_mem_take hid))
        rw [← key_lt_iff_due ht]
        exact hsame id hid
    · intro id hid
      simp only [TimerManager.expiredEnd, skipEqual, Bool.false_eq_true, if_false,
        ← List.drop_drop] at hid
      obtain ⟨t, ht, -⟩ := h.get_mem (List.mem_of_mem_drop (List.mem_of_mem_drop hid))
      rw [Bool.eq_false_iff, ne_eq, ← key_lt_iff_due ht, not_lt]
      exact hlater id hid

theorem Good.settle (now : UInt64) (h : Good (id :: pending) m) (ht : m.objs[id]? = some t)
    (hcb : t.cb.isSome) :
    Good pending (m.settle now id t) ∧
      (∀ j, j ≠ id → (m.settle now id t).objs[j]? = m.objs[j]?) ∧
      (∀ j, j ∈ (m.settle now id t).timers ↔ j ∈ m.timers ∨ id = j ∧ t.recurring = true) ∧
      (∀ j, m.dead j → (m.settle now id t).dead j) ∧
      (t.recurring = false → (m.settle now id t).dead id) := by
  cases hrec : t.recurring with
  | true =>
    have hnext := h.rekey ht { t with next := now + t.ms } rfl hcb
    rw [show m.settle now id t = _ from if_pos hrec]
    refine ⟨hnext.back, ?_, ?_, ?_, nofun⟩
    · intro j hj
      exact (get_put ht _ j).trans (if_neg hj)
    · intro j
      rw [hnext.mem_insertTimer, or_comm]
      simp [eq_comm]
    · intro j hj
      exact dead_put ht (Or.inr hcb) hj
  | false =>
    rw [show m.settle now id t = _ from if_neg (by simp [hrec])]
    refine ⟨h.retire ht { t with cb := none } rfl rfl, ?_, ?_, ?_, fun _ => ?_⟩
    · intro j hj
      exact (get_put ht _ j).trans (if_neg hj)
    · intro j
      simp
    · intro j hj
      exact dead_put ht (Or.inl rfl) hj
    · exact ⟨_, (get_put ht _ id).trans (if_pos rfl), rfl⟩

/-- What the loop over the expired timers does to the manager. -/
structure Delivered (expried : List Nat) (m m' : TimerManager Cb) (cbs : List (Nat × Timer Cb)) :
    Prop where
  good : Good [] m'
  ids : cbs.map Prod.fst = expried
  objs : ∀ entry ∈ cbs, m.objs[entry.1]? = some entry.2
  timers : ∀ j, j ∈ m'.timers ↔
    j ∈ m.timers ∨ ∃ entry ∈ cbs, entry.1 = j ∧ entry.2.recurring = true
  dead : ∀ j, m.dead j → m'.dead j
  ended : ∀ entry ∈ cbs, entry.2.recurring = false → m'.dead entry.1

theorem Good.deliver (now : UInt64) {expried : List Nat} (h : Good expried m) :
    ∃ cbs m', deliver now expried m = .ok (cbs, m') ∧ Delivered expried m m' cbs := by
  induction expried generalizing m with
  | nil =>
    refine ⟨[], m, rfl, h, rfl, ?_, ?_, fun _ hj => hj, ?_⟩ <;> simp
  | cons id expried ih =>
    obtain ⟨t, ht, hcb⟩ := (h.armed id).mp (by simp)
    obtain ⟨hnext, hobjs, htimers, hkeep, hself⟩ := h.settle now ht hcb
    obtain ⟨cbs, m', heq, hdel⟩ := ih hnext
    refine ⟨(id, t) :: cbs, m', ?_, hdel.good, by simp [hdel.ids], ?_, ?_,
      fun j hj => hdel.dead j (hkeep j hj), ?_⟩
    · simp only [TimerManager.deliver, deref_of_get ht, bind, Except.bind, heq]
      rfl
    · intro entry hentry
      rcases List.mem_cons.mp hentry with rfl | hlater
      · exact ht
      · have hne : entry.1 ≠ id := by
          intro heq
          apply h.apart.2
          rw [← hdel.ids, ← heq]
          exact List.mem_map_of_mem hlater
        rw [← hobjs entry.1 hne, hdel.objs entry hlater]
    · intro j
      rw [hdel.timers j, htimers j]
      simp only [List.mem_cons, exists_eq_or_imp]
      tauto
    · intro entry hentry hrec
      rcases List.mem_cons.mp hentry with rfl | hentry
      · exact hdel.dead _ (hself hrec)
      · exact hdel.ended entry hentry hrec

theorem collectExpired_empty (now : UInt64) (sentinel : Nat) (hempty : m.timers = [])
    (hroll : (m.detectClockRollover now).1 = false) :
    m.collectExpired now sentinel = .error .derefEnd := by
  simp only [collectExpired, nothingDue, hroll, begin]
  simp [detectClockRollover, hempty, bind, Except.bind]

theorem Good.nothingDue (h : Good [] m) (now : UInt64) {rollover : Bool}
    (hfirst : m.timers = [] → rollover = true) :
    ∃ early, m.nothingDue now rollover = .ok early ∧
      (early = true → m.timers.filter (m.due now rollover) = []) := by
  cases rollover with
  | true => exact ⟨false, rfl, nofun⟩
  | false =>
    cases htimers : m.timers with
    | nil => exact absurd (hfirst htimers) (by simp)
    | cons id rest =>
      obtain ⟨t, ht, -⟩ := h.get_mem (show id ∈ m.timers by simp [htimers])
      refine ⟨decide (t.next > now), ?_, ?_⟩
      · simp only [TimerManager.nothingDue, begin, htimers, deref_of_get ht, bind, Except.bind]
        rfl
      · intro hlate
        -- the set is ordered, so nothing is due when its first timer is not
        have hfirst : ¬ m.key id < ((toLex (now.toNat + 1, 0) : ℕ ×ₗ ℕ) : WithBot (ℕ ×ₗ ℕ)) := by
          rw [key_lt_iff_due ht]
          simpa [due, ht] using hlate
        have hsorted := h.sorted
        rw [htimers] at hsorted
        rw [List.filter_eq_nil_iff]
        intro j hj hdue
        obtain ⟨u, hu, -⟩ := h.get_mem (show j ∈ m.timers by rw [htimers]; exact hj)
        rw [← key_lt_iff_due hu] at hdue
        rcases List.mem_cons.mp hj with rfl | hj
        · exact hfirst hdue
        · exact hfirst (lt_trans ((List.pairwise_cons.mp hsorted).1 j hj) hdue)

theorem Good.collectExpired (h : Good [] m) (now : UInt64) (sentinel : Nat)
    (hfirst : m.timers = [] → (m.detectClockRollover now).1 = true) :
    ∃ cbs m', m.collectExpired now sentinel = .ok (cbs, m') ∧
      Delivered (m.timers.filter (m.due now (m.detectClockRollover now).1))
        { m with timers := m.timers.filter (!m.due now (m.detectClockRollover now).1 ·) } m' cbs := by
  have hclock : Good [] (m.detectClockRollover now).2 :=
    ⟨h.sorted, h.nodup, h.armed, h.held, h.distinct⟩
  obtain ⟨early, heq, hnone⟩ := hclock.nothingDue now hfirst
  cases early with
  | true =>
    have hkeep : m.timers.filter (!m.due now (m.detectClockRollover now).1 ·) = m.timers := by
      rw [List.filter_eq_self]
      intro id hid
      have hlate : ¬ m.due now (m.detectClockRollover now).1 id = true :=
        List.filter_eq_nil_iff.mp (hnone rfl) id hid
      simpa using hlate
    rw [hkeep, show m.timers.filter (m.due now (m.detectClockRollover now).1) = [] from hnone rfl]
    refine ⟨[], (m.detectClockRollover now).2, ?_, hclock, rfl, by simp, ?_, fun _ hj => hj, by simp⟩
    · simp only [TimerManager.collectExpired, heq, bind, Except.bind]
      rfl
    · simp [detectClockRollover]
  | false =>
    obtain ⟨cbs, m', hrun, hdel⟩ := (hclock.expire ((m.detectClockRollover now).2.expiredEnd now
      (m.detectClockRollover now).1 sentinel)).deliver now
    obtain ⟨hfront, hback⟩ := hclock.expiredEnd now (m.detectClockRollover now).1 sentinel
    refine ⟨cbs, m', ?_, ?_⟩
    · simp only [TimerManager.collectExpired, heq, bind, Except.bind]
      exact hrun
    · rw [hfront, hback] at hdel
      exact ⟨hdel.good, hdel.ids, hdel.objs, hdel.timers, hdel.dead, hdel.ended⟩

theorem Good.listExpiredCb (h : Good [] m) (now : UInt64) (sentinel : Nat) :
    ∃ cbs m', m.listExpiredCb now sentinel = .ok (cbs, m') ∧ Good [] m' ∧
      (∀ entry ∈ cbs, entry.1 ∈ m.timers) ∧ (∀ j, m.dead j → m'.dead j) ∧
      ∀ entry ∈ cbs, entry.2.recurring = false → m'.dead entry.1 := by
  cases htimers : m.timers with
  | nil =>
    refine ⟨[], m, ?_, h, by simp, fun _ hj => hj, by simp⟩
    simp [TimerManager.listExpiredCb, htimers]
  | cons id rest =>
    rw [show m.listExpiredCb now sentinel = m.collectExpired now sentinel by
      simp [TimerManager.listExpiredCb, htimers], ← htimers]
    obtain ⟨cbs, m', heq, hdel⟩ := h.collectExpired now sentinel (by simp [htimers])
    refine ⟨cbs, m', heq, hdel.good, ?_, hdel.dead, hdel.ended⟩
    intro entry hentry
    apply List.mem_of_mem_filter
    rw [← hdel.ids]
    exact List.mem_map_of_mem hentry

end Sylar.TimerManager
