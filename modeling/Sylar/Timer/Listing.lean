import Sylar.Timer.Runs

/-! One call of `listExpiredCb` in a reachable state: which callbacks it appends and
in which order, and what it leaves of the set and of the timers. -/
namespace Sylar.TimerManager

open Lib Lib.OrderedSet

variable {Cb : Type} {m m' : TimerManager Cb} {id : Nat} {t : Timer Cb} {now : UInt64}

def settled (now : UInt64) (t : Timer Cb) : Timer Cb :=
  if t.recurring then { t with next := now + t.ms } else { t with cb := none }

@[simp] theorem objs_settle (now : UInt64) (id : Nat) (t : Timer Cb) (m : TimerManager Cb) :
    (m.settle now id t).objs = m.objs.set id (settled now t) := by
  unfold settle settled
  split <;> rfl

theorem objs_deliver {expried : List Nat} (hnodup : expried.Nodup)
    {cbs : List (Nat × Timer Cb)} (h : deliver now expried m = .ok (cbs, m')) (j : Nat) :
    m'.objs[j]? = if j ∈ expried then m.objs[j]?.map (settled now) else m.objs[j]? := by
  induction expried generalizing m cbs with
  | nil =>
    cases h
    rfl
  | cons id expried ih =>
    obtain ⟨hnot, hnodup⟩ := List.nodup_cons.mp hnodup
    unfold deliver at h
    obtain ⟨t, ht, h⟩ := bind_eq_ok.mp h
    obtain ⟨⟨rest, n⟩, hrest, h⟩ := bind_eq_ok.mp h
    cases h
    have hget : m.objs[id]? = some t := by
      unfold deref at ht
      split at ht
      · rename_i u hu
        cases ht
        exact hu
      · cases ht
    have hlt : id < m.objs.length := (List.getElem?_eq_some_iff.mp hget).1
    rw [ih hnodup hrest, objs_settle]
    by_cases hj : j = id
    · subst hj
      rw [if_neg hnot, if_pos List.mem_cons_self, List.getElem?_set_self hlt, hget]
      rfl
    · rw [List.getElem?_set_ne (Ne.symm hj)]
      simp only [List.mem_cons, hj, false_or]

/-- A timer whose callback the call at `now` takes: all of them when the clock was seen
to go back, else those whose time has come. -/
def Expired (now : UInt64) (m : TimerManager Cb) (id : Nat) : Prop :=
  (m.detectClockRollover now).1 = true ∨ ∃ t, m.objs[id]? = some t ∧ t.next ≤ now

theorem due_iff : m.due now (m.detectClockRollover now).1 id = true ↔ m.Expired now id := by
  unfold due Expired
  simp only [Bool.or_eq_true, Option.any_eq_true, decide_eq_true_eq]

/-- What a call at `now` appended and left behind, each entry being a timer as it was
before the call with its callback. -/
structure Listed (now : UInt64) (m : TimerManager Cb) (cbs : List (Nat × Timer Cb))
    (m' : TimerManager Cb) : Prop where
  ids : ∀ id, id ∈ cbs.map Prod.fst ↔ id ∈ m.timers ∧ m.Expired now id
  objs : ∀ entry ∈ cbs, m.objs[entry.1]? = some entry.2
  ordered : cbs.Pairwise fun a b =>
    a.2.next < b.2.next ∨ a.2.next = b.2.next ∧ a.2.addr < b.2.addr
  timers : ∀ id, id ∈ m'.timers ↔
    id ∈ m.timers ∧ (m.Expired now id → ∃ t, m.objs[id]? = some t ∧ t.recurring = true)
  nodup : m'.timers.Nodup
  kept : ∀ id, ¬ (id ∈ m.timers ∧ m.Expired now id) → m'.objs[id]? = m.objs[id]?
  rearmed : ∀ entry ∈ cbs, entry.2.recurring = true →
    m'.objs[entry.1]? = some { entry.2 with next := now + entry.2.ms }
  ended : ∀ entry ∈ cbs, entry.2.recurring = false →
    m'.objs[entry.1]? = some { entry.2 with cb := none }

theorem Good.objs_collectExpired (h : Good [] m) {sentinel : Nat}
    {cbs : List (Nat × Timer Cb)} (hne : m.timers ≠ [])
    (heq : m.collectExpired now sentinel = .ok (cbs, m')) (j : Nat) :
    m'.objs[j]? = if j ∈ m.timers.filter (m.due now (m.detectClockRollover now).1)
      then m.objs[j]?.map (settled now) else m.objs[j]? := by
  have hclock : Good [] (m.detectClockRollover now).2 :=
    ⟨h.sorted, h.nodup, h.armed, h.held, h.distinct⟩
  obtain ⟨early, hearly, hnone⟩ := hclock.nothingDue now fun hnil => absurd hnil hne
  unfold TimerManager.collectExpired at heq
  obtain ⟨early', hearly', heq⟩ := bind_eq_ok.mp heq
  obtain rfl : early = early' := Except.ok.inj (hearly.symm.trans hearly')
  cases early with
  | true =>
    cases heq
    rw [show m.timers.filter (m.due now (m.detectClockRollover now).1) = [] from hnone rfl]
    rfl
  | false =>
    have hfront := (hclock.expiredEnd now (m.detectClockRollover now).1 sentinel).1
    have hnodup := hclock.sorted.nodup.sublist (List.take_sublist
      ((m.detectClockRollover now).2.expiredEnd now (m.detectClockRollover now).1 sentinel) _)
    rw [objs_deliver hnodup heq, hfront]
    rfl

theorem Good.listed (h : Good [] m) (hne : m.timers ≠ []) (now : UInt64) (sentinel : Nat) :
    ∃ cbs m', m.listExpiredCb now sentinel = .ok (cbs, m') ∧ Listed now m cbs m' := by
  obtain ⟨cbs, m', heq, hdel⟩ := h.collectExpired now sentinel fun hnil => absurd hnil hne
  have hobjs := h.objs_collectExpired hne heq
  have hids : ∀ id, id ∈ cbs.map Prod.fst ↔ id ∈ m.timers ∧ m.Expired now id := by
    intro id
    rw [hdel.ids, List.mem_filter, due_iff]
  have hentry : ∀ entry ∈ cbs, m'.objs[entry.1]? = some (settled now entry.2) := by
    intro entry hmem
    rw [hobjs, ← hdel.ids, if_pos (List.mem_map_of_mem hmem), hdel.objs entry hmem]
    rfl
  refine ⟨cbs, m', ?_, ?_⟩
  · unfold TimerManager.listExpiredCb
    rw [if_neg (by simpa using hne)]
    exact heq
  constructor
  · exact hids
  · exact hdel.objs
  · -- the expired timers are a part of the ordered set
    have hsorted : (cbs.map Prod.fst).Pairwise fun a b => m.key a < m.key b := by
      rw [hdel.ids]
      exact h.sorted.sublist List.filter_sublist
    apply List.Pairwise.imp_of_mem _ (List.pairwise_map.mp hsorted)
    intro a b ha hb hlt
    exact (key_lt_key (hdel.objs a ha) (hdel.objs b hb)).mp hlt
  · intro id
    rw [hdel.timers]
    simp only [List.mem_filter, Bool.not_eq_true', ← Bool.not_eq_true, due_iff]
    constructor
    · rintro (⟨hin, hlate⟩ | ⟨entry, hmem, rfl, hrec⟩)
      · exact ⟨hin, fun hexp => absurd hexp hlate⟩
      · exact ⟨((hids _).mp (List.mem_map_of_mem hmem)).1,
          fun _ => ⟨entry.2, hdel.objs entry hmem, hrec⟩⟩
    · rintro ⟨hin, hrec⟩
      by_cases hexp : m.Expired now id
      · obtain ⟨entry, hmem, rfl⟩ := List.mem_map.mp ((hids id).mpr ⟨hin, hexp⟩)
        obtain ⟨t, ht, hrec⟩ := hrec hexp
        obtain rfl := Option.some.inj (ht.symm.trans (hdel.objs entry hmem))
        exact .inr ⟨entry, hmem, rfl, hrec⟩
      · exact .inl ⟨hin, hexp⟩
  · exact hdel.good.sorted.nodup
  · intro id hnot
    rw [hobjs, if_neg]
    rwa [List.mem_filter, due_iff]
  · intro entry hmem hrec
    rw [hentry entry hmem, settled, if_pos hrec]
  · intro entry hmem hrec
    rw [hentry entry hmem, settled, if_neg (by rw [hrec]; simp)]

/-- In every reachable state with timers a call of `listExpiredCb` appends the callbacks
of exactly the expired timers, in order and each once; the recurring ones stand in the
set again at `now + m_ms`, the others have lost their callback, and no other timer has
changed. -/
theorem run_listExpiredCb (start : UInt64) {es : List (Event Cb)} {m : TimerManager Cb}
    (run : Run Step (init start) es m) (hne : m.timers ≠ []) (now : UInt64) (sentinel : Nat) :
    ∃ cbs m', m.listExpiredCb now sentinel = .ok (cbs, m') ∧ Listed now m cbs m' :=
  (run_good run).listed hne now sentinel

/-- Three timers at the same time, one of them recurring with the period 0, and one that
is later; the sentinel's address lies between theirs. -/
theorem run_listExpiredCb_ties :
    ∃ es m, Run Step (init 5 : TimerManager Nat) es m ∧ m.timers = [1, 0, 2, 3] ∧
      ∃ cbs m', m.listExpiredCb 10 3 = .ok (cbs, m') ∧ Listed 10 m cbs m' := by
  obtain ⟨es, m, run, htimers⟩ : ∃ es m, Run Step (init 5 : TimerManager Nat) es m ∧
      m.timers = [1, 0, 2, 3] :=
    ⟨[(.addTimer 5 5 7 false 4, _), (.addTimer 10 0 8 true 2, _), (.addTimer 6 4 9 false 6, _),
        (.addTimer 8 8 9 false 1, _)], _,
      .cons ⟨by decide, rfl⟩ (.cons ⟨by decide, rfl⟩ (.cons ⟨by decide, rfl⟩
        (.cons ⟨by decide, rfl⟩ .start))), by decide⟩
  exact ⟨es, m, run, htimers, run_listExpiredCb 5 run (by rw [htimers]; decide) 10 3⟩

end Sylar.TimerManager
