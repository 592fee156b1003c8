import Mathlib.Algebra.Group.Nat.Defs
import Sylar.Timer.Listing

/-! A waiter that sleeps for the time `getNextTimer` answered is woken when an earlier
deadline appears. Only `addTimer` and `reset` announce a timer at the front; the other
operations move deadlines without a word, and are shown to move them later only: a
deadline lies `m_ms` after a reading of the clock, and the clock does not go back. -/
namespace Sylar.TimerManager

open Lib Lib.OrderedSet

variable {Cb : Type} {m m' : TimerManager Cb} {id : Nat} {t : Timer Cb} {c now : UInt64}

def Op.reading : Op Cb → Option UInt64
  | .addTimer now _ _ _ _ | .refresh _ now | .getNextTimer now | .listExpiredCb now _ => some now
  | .reset _ _ fromNow now => if fromNow then some now else none
  | .cancel _ | .release _ => none

/-- The sum of the reading and the period does not wrap where a timer starts anew
without an announcement. The sums of `addTimer` and `reset` may wrap. -/
def Op.NoWrap (m : TimerManager Cb) : Op Cb → Prop
  | .refresh id now => ∀ t ∈ m.objs[id]?, t.cb.isSome → now.toNat + t.ms.toNat < 2 ^ 64
  | .listExpiredCb now _ => ∀ id ∈ m.timers, m.due now (m.detectClockRollover now).1 id = true →
    ∀ t ∈ m.objs[id]?, t.recurring = true → now.toNat + t.ms.toNat < 2 ^ 64
  | .addTimer _ _ _ _ _ | .reset _ _ _ _ | .cancel _ | .getNextTimer _ | .release _ => True

instance (m : TimerManager Cb) : (op : Op Cb) → Decidable (op.NoWrap m)
  | .refresh id now => inferInstanceAs
    (Decidable (∀ t ∈ m.objs[id]?, t.cb.isSome → now.toNat + t.ms.toNat < 2 ^ 64))
  | .listExpiredCb now _ => inferInstanceAs
    (Decidable (∀ id ∈ m.timers, m.due now (m.detectClockRollover now).1 id = true →
      ∀ t ∈ m.objs[id]?, t.recurring = true → now.toNat + t.ms.toNat < 2 ^ 64))
  | .addTimer _ _ _ _ _ | .reset _ _ _ _ | .cancel _ | .getNextTimer _ | .release _ =>
    inferInstanceAs (Decidable True)

def Out.calls : Out Cb → Bool
  | .added _ front | .rearmed _ front => front
  | .answered _ | .timeout _ | .expired _ | .released => false

/-- Every deadline lies its period after a reading of the clock up to `c`. -/
def Clocked (c : UInt64) (m : TimerManager Cb) : Prop :=
  ∀ id ∈ m.timers, ∀ t ∈ m.objs[id]?, t.next - t.ms ≤ c

/-- What an operation does to the deadlines: the flag remembers its call, and without a
call every deadline of the set is at least one that was there before. -/
structure Effect (c : UInt64) (m m' : TimerManager Cb) (front : Bool) : Prop where
  tickled : m'.tickled = (m.tickled || front)
  clocked : Clocked c m'
  late : m'.tickled = false → ∀ id ∈ m'.timers, ∀ t ∈ m'.objs[id]?,
    ∃ j ∈ m.timers, ∃ s ∈ m.objs[j]?, s.next ≤ t.next

theorem Effect.refl (h : Clocked c m) : Effect c m m false :=
  ⟨(Bool.or_false _).symm, h, fun _ id hid t ht => ⟨id, hid, t, ht, UInt64.le_refl _⟩⟩

theorem Clocked.mono (h : Clocked c m) (hle : c ≤ now) : Clocked now m :=
  fun id hid t ht => UInt64.le_trans (h id hid t ht) hle

theorem next_le_of_clocked (h : t.next - t.ms ≤ c) (hle : c ≤ now)
    (hwrap : now.toNat + t.ms.toNat < 2 ^ 64) : t.next ≤ now + t.ms := by
  have hnext := t.next.toNat_lt
  rw [UInt64.le_iff_toNat_le, UInt64.toNat_sub] at h
  rw [UInt64.le_iff_toNat_le] at hle ⊢
  rw [UInt64.toNat_add, Nat.mod_eq_of_lt hwrap]
  omega

/-- A timer that was not put at the front stands behind one with no later deadline. -/
theorem exists_before_of_not_front (hobjs : ∀ j ∈ m.timers, ∃ s, m.objs[j]? = some s)
    (ht : m.objs[id]? = some t) (h : (m.addTimerLocked id).2.tickled = false) :
    ∃ j ∈ m.timers, j ≠ id ∧ ∃ s ∈ m.objs[j]?, s.next ≤ t.next := by
  have hpos : lowerBound (m.less · id) m.timers ≠ 0 := by
    intro hzero
    rw [← insert_snd] at hzero
    unfold addTimerLocked at h
    simp [hzero] at h
  obtain ⟨j, hj, hless⟩ := head_of_lowerBound_ne_zero hpos
  have hkey := (less_iff m j id).mp hless
  obtain ⟨s, hs⟩ := hobjs j hj
  refine ⟨j, hj, ?_, s, hs, ?_⟩
  · rintro rfl
    exact lt_irrefl _ hkey
  · rcases (key_lt_key hs ht).mp hkey with hlt | ⟨heq, -⟩
    · exact UInt64.le_of_lt hlt
    · exact UInt64.le_of_eq heq

theorem Good.get_timers (h : Good [] m) : ∀ j ∈ m.timers, ∃ s, m.objs[j]? = some s := by
  intro j hj
  obtain ⟨s, hs, -⟩ := h.get_mem hj
  exact ⟨s, hs⟩

@[simp] theorem addTimerLocked_tickled (m : TimerManager Cb) (id : Nat) :
    (m.addTimerLocked id).2.tickled = (m.tickled || (m.addTimerLocked id).1) := rfl

theorem Good.effect_addTimerLocked (h : Good [id] m) (ht : m.objs[id]? = some t)
    (hclock : Clocked c m) (hself : t.next - t.ms ≤ c) :
    Effect c m (m.addTimerLocked id).2 (m.addTimerLocked id).1 := by
  have hmem : ∀ j, j ∈ (m.addTimerLocked id).2.timers ↔ j = id ∨ j ∈ m.timers :=
    h.mem_insertTimer
  have hget : ∀ j ∈ m.timers, ∃ s, m.objs[j]? = some s := by
    intro j hj
    obtain ⟨s, hs, -⟩ := h.get_mem hj
    exact ⟨s, hs⟩
  refine ⟨addTimerLocked_tickled m id, ?_, ?_⟩
  · intro j hj s hs
    rcases (hmem j).mp hj with rfl | hj
    · obtain rfl := Option.some.inj (ht.symm.trans hs)
      exact hself
    · exact hclock j hj s hs
  · intro hquiet j hj s hs
    rcases (hmem j).mp hj with rfl | hj
    · obtain rfl := Option.some.inj (ht.symm.trans hs)
      obtain ⟨i, hi, -, u, hu, hle⟩ := exists_before_of_not_front hget ht hquiet
      exact ⟨i, hi, u, hu, hle⟩
    · exact ⟨j, hj, s, hs, UInt64.le_refl _⟩

theorem Good.effect_addTimer (h : Good [] m) (hclock : Clocked c m) (hle : c ≤ now) (ms : UInt64)
    (cb : Cb) (recurring : Bool) {addr : Nat}
    (haddr : ∀ id ∈ m.timers ++ m.held, (m.objs[id]?).map (·.addr) ≠ some addr) :
    Effect now m (m.addTimer now ms (some cb) recurring addr).2
      (m.addTimer now ms (some cb) recurring addr).1.2 := by
  have hgood := h.create (t := { addr, recurring, ms, next := now + ms, cb := some cb }) rfl haddr
  have hold : ∀ j ∈ m.timers, ∀ x : Timer Cb, (m.objs ++ [x])[j]? = m.objs[j]? := by
    intro j hj x
    obtain ⟨s, hs⟩ := h.get_timers j hj
    exact List.getElem?_append_left (List.getElem?_eq_some_iff.mp hs).1
  have heffect := hgood.effect_addTimerLocked (c := now)
    (t := { addr, recurring, ms, next := now + ms, cb := some cb }) (by simp)
    (by
      intro j hj s hs
      rw [hold j hj] at hs
      exact hclock.mono hle j hj s hs)
    (by simp only [UInt64.add_sub_cancel]; exact UInt64.le_refl _)
  refine ⟨heffect.tickled, heffect.clocked, ?_⟩
  intro hquiet j hj s hs
  obtain ⟨i, hi, u, hu, hle⟩ := heffect.late hquiet j hj s hs
  rw [hold i hi] at hu
  exact ⟨i, hi, u, hu, hle⟩

theorem erase_eq_ok {it : Nat} (h : m.erase it = .ok m') :
    m' = { m with timers := m.timers.eraseIdx it } := by
  unfold erase at h
  split at h
  · exact (Except.ok.inj h).symm
  · cases h

theorem get_of_deref (h : m.deref id = .ok t) : m.objs[id]? = some t := by
  unfold deref at h
  split at h
  · rename_i u hu
    cases h
    exact hu
  · cases h

theorem cancel_cases {result : Bool} (h : m.cancel id = .ok (result, m')) :
    m' = m ∨ ∃ t it, m.objs[id]? = some t ∧
      m' = { m.put id { t with cb := none } with timers := m.timers.eraseIdx it } := by
  unfold TimerManager.cancel at h
  obtain ⟨t, ht, h⟩ := bind_eq_ok.mp h
  split at h
  · obtain ⟨n, hn, h⟩ := bind_eq_ok.mp h
    cases h
    exact .inr ⟨t, _, get_of_deref ht, erase_eq_ok hn⟩
  · cases h
    exact .inl rfl

theorem refresh_cases {result : Bool} (h : m.refresh id now = .ok (result, m')) :
    m' = m ∨ ∃ t, m.objs[id]? = some t ∧ t.cb.isSome = true ∧
      m' = (TimerManager.put { m with timers := m.timers.eraseIdx (find m.less id m.timers) } id
        { t with next := now + t.ms }).insertTimer id := by
  unfold TimerManager.refresh at h
  obtain ⟨t, ht, h⟩ := bind_eq_ok.mp h
  split at h
  · cases h
    exact .inl rfl
  case isFalse hcb =>
    dsimp only at h
    split at h
    · cases h
      exact .inl rfl
    · obtain ⟨n, hn, h⟩ := bind_eq_ok.mp h
      obtain rfl := erase_eq_ok hn
      cases h
      exact .inr ⟨t, get_of_deref ht, by simpa [Option.isSome_iff_ne_none] using hcb, rfl⟩

theorem reset_cases {ms : UInt64} {fromNow : Bool} {answer : Bool × Bool}
    (h : m.reset id ms fromNow now = .ok (answer, m')) :
    answer.2 = false ∧ m' = m ∨ ∃ t, m.objs[id]? = some t ∧ t.cb.isSome = true ∧
      (answer.2, m') =
        (TimerManager.put { m with timers := m.timers.eraseIdx (find m.less id m.timers) } id
          { t with
            ms := ms
            next := (if fromNow then now else t.next - t.ms) + ms }).addTimerLocked id := by
  unfold TimerManager.reset at h
  obtain ⟨t, ht, h⟩ := bind_eq_ok.mp h
  split at h
  · cases h
    exact .inl ⟨rfl, rfl⟩
  split at h
  · cases h
    exact .inl ⟨rfl, rfl⟩
  case isFalse hcb =>
    dsimp only at h
    split at h
    · cases h
      exact .inl ⟨rfl, rfl⟩
    · obtain ⟨n, hn, h⟩ := bind_eq_ok.mp h
      obtain rfl := erase_eq_ok hn
      cases h
      exact .inr ⟨t, get_of_deref ht, by simpa [Option.isSome_iff_ne_none] using hcb, rfl⟩

theorem effect_of_kept (hclock : Clocked c m) (htickled : m'.tickled = m.tickled)
    (hsub : ∀ j ∈ m'.timers, j ∈ m.timers)
    (hobjs : ∀ j : Nat, ∀ s ∈ m'.objs[j]?, ∃ u ∈ m.objs[j]?, u.next = s.next ∧ u.ms = s.ms) :
    Effect c m m' false := by
  refine ⟨by rw [htickled, Bool.or_false], ?_, ?_⟩
  · intro j hj s hs
    obtain ⟨u, hu, hnext, hms⟩ := hobjs j s hs
    rw [← hnext, ← hms]
    exact hclock j (hsub j hj) u hu
  · intro _ j hj s hs
    obtain ⟨u, hu, hnext, -⟩ := hobjs j s hs
    exact ⟨j, hsub j hj, u, hu, UInt64.le_of_eq hnext⟩

theorem effect_cancel (hclock : Clocked c m) {result : Bool}
    (h : m.cancel id = .ok (result, m')) : Effect c m m' false := by
  obtain rfl | ⟨t, it, hget, rfl⟩ := cancel_cases h
  · exact Effect.refl hclock
  · apply effect_of_kept hclock
    · rfl
    · intro j hj
      exact List.mem_of_mem_eraseIdx hj
    · intro j s hs
      have hput := (get_put hget { t with cb := none } j).symm.trans hs
      split at hput
      · rename_i hj
        subst hj
        obtain rfl := Option.some.inj hput
        exact ⟨t, hget, rfl, rfl⟩
      · exact ⟨s, hput, rfl, rfl⟩

theorem Good.effect_refresh (h : Good [] m) (hid : id ∈ m.held) (hclock : Clocked c m)
    (hle : c ≤ now) (hwrap : ∀ t ∈ m.objs[id]?, t.cb.isSome → now.toNat + t.ms.toNat < 2 ^ 64)
    {result : Bool} (hrun : m.refresh id now = .ok (result, m')) : Effect now m m' false := by
  obtain ⟨r, n, heq, -, hmem, -⟩ := h.refresh hid now
  obtain ⟨rfl, rfl⟩ := Prod.mk.inj (Except.ok.inj (heq.symm.trans hrun))
  obtain rfl | ⟨t, hget, hcb, rfl⟩ := refresh_cases hrun
  · exact Effect.refl (hclock.mono hle)
  have hobjs : ∀ j, (m.put id { t with next := now + t.ms }).objs[j]? =
      if j = id then some { t with next := now + t.ms } else m.objs[j]? := get_put hget _
  refine ⟨(Bool.or_false _).symm, ?_, ?_⟩
  · intro j hj s hs
    have hput := (hobjs j).symm.trans hs
    split at hput
    · obtain rfl := Option.some.inj hput
      simp only [UInt64.add_sub_cancel]
      exact UInt64.le_refl _
    · exact hclock.mono hle j ((hmem j).mp hj) s hput
  · intro _ j hj s hs
    have hput := (hobjs j).symm.trans hs
    have hin := (hmem j).mp hj
    split at hput
    · rename_i hid
      subst hid
      obtain rfl := Option.some.inj hput
      have hsum := hwrap t hget hcb
      exact ⟨j, hin, t, hget, next_le_of_clocked (hclock j hin t hget) hle hsum⟩
    · exact ⟨j, hin, s, hput, UInt64.le_refl _⟩

theorem Good.effect_reset (h : Good [] m) (hclock : Clocked c m) {ms : UInt64}
    {fromNow : Bool} (hle : fromNow = true → c ≤ now) {answer : Bool × Bool}
    (hrun : m.reset id ms fromNow now = .ok (answer, m')) :
    Effect (if fromNow then now else c) m m' answer.2 := by
  have hclock' : Clocked (if fromNow then now else c) m := by
    split
    · rename_i hnow
      exact hclock.mono (hle hnow)
    · exact hclock
  obtain ⟨hanswer, rfl⟩ | ⟨t, hget, hcb, hadded⟩ := reset_cases hrun
  · rw [hanswer]
    exact Effect.refl hclock'
  obtain ⟨hanswer, rfl⟩ := Prod.mk.inj hadded
  rw [hanswer]
  have hin : id ∈ m.timers := by
    have harmed := (h.armed id).mpr ⟨t, hget, hcb⟩
    simpa using harmed
  obtain ⟨hgood, hmem, -⟩ := h.retime hin hget
    { t with ms := ms, next := (if fromNow then now else t.next - t.ms) + ms } rfl rfl
  have hobjs : ∀ j ≠ id, ∀ t' : Timer Cb, (m.put id t').objs[j]? = m.objs[j]? := by
    intro j hj t'
    rw [get_put hget, if_neg hj]
  have hother : ∀ j ∈ m.timers.eraseIdx (find m.less id m.timers), j ∈ m.timers ∧ j ≠ id := by
    intro j hj
    exact ((h.out hin).2.2 j).mp hj
  have heffect := hgood.effect_addTimerLocked (c := if fromNow then now else c)
    ((get_put hget _ id).trans (if_pos rfl))
    (by
      intro j hj s hs
      obtain ⟨hj, hne⟩ := hother j hj
      exact hclock' j hj s ((hobjs j hne _).symm.trans hs))
    (by
      simp only [UInt64.add_sub_cancel]
      split
      · exact UInt64.le_refl _
      · exact hclock id hin t hget)
  refine ⟨heffect.tickled, heffect.clocked, ?_⟩
  intro hquiet j hj s hs
  obtain ⟨i, hi, u, hu, hle⟩ := heffect.late hquiet j hj s hs
  obtain ⟨hi, hne⟩ := hother i hi
  exact ⟨i, hi, u, (hobjs i hne _).symm.trans hu, hle⟩

theorem frame_deliver {expried : List Nat} {cbs : List (Nat × Timer Cb)}
    (h : deliver now expried m = .ok (cbs, m')) :
    m'.tickled = m.tickled ∧ m'.held = m.held ∧ m'.previouseTime = m.previouseTime := by
  induction expried generalizing m cbs with
  | nil =>
    cases h
    exact ⟨rfl, rfl, rfl⟩
  | cons id expried ih =>
    unfold deliver at h
    obtain ⟨t, -, h⟩ := bind_eq_ok.mp h
    obtain ⟨⟨rest, n⟩, hrest, h⟩ := bind_eq_ok.mp h
    cases h
    obtain ⟨htickled, hheld, htime⟩ := ih hrest
    rw [htickled, hheld, htime]
    unfold settle
    split <;> exact ⟨rfl, rfl, rfl⟩

theorem frame_listExpiredCb {sentinel : Nat} {cbs : List (Nat × Timer Cb)}
    (h : m.listExpiredCb now sentinel = .ok (cbs, m')) :
    m'.tickled = m.tickled ∧ m'.held = m.held ∧
      m'.previouseTime = if m.timers = [] then m.previouseTime else now := by
  unfold TimerManager.listExpiredCb at h
  split at h
  case isTrue hempty =>
    cases h
    rw [if_pos (List.isEmpty_iff.mp hempty)]
    exact ⟨rfl, rfl, rfl⟩
  case isFalse hsome =>
    rw [if_neg (mt List.isEmpty_iff.mpr hsome)]
    unfold TimerManager.collectExpired at h
    obtain ⟨early, -, h⟩ := bind_eq_ok.mp h
    cases early with
    | true =>
      cases h
      exact ⟨rfl, rfl, rfl⟩
    | false =>
      rw [if_neg (by decide)] at h
      have hframe := frame_deliver h
      exact hframe

theorem Good.effect_listExpiredCb (h : Good [] m) (hclock : Clocked c m) (hle : c ≤ now)
    (hwrap : ∀ id ∈ m.timers, m.due now (m.detectClockRollover now).1 id = true →
      ∀ t ∈ m.objs[id]?, t.recurring = true → now.toNat + t.ms.toNat < 2 ^ 64)
    {sentinel : Nat} {cbs : List (Nat × Timer Cb)} (hrun : m.listExpiredCb now sentinel = .ok (cbs, m')) :
    Effect now m m' false := by
  by_cases hne : m.timers = []
  · unfold TimerManager.listExpiredCb at hrun
    rw [if_pos (by rw [hne]; rfl)] at hrun
    cases hrun
    exact Effect.refl (hclock.mono hle)
  obtain ⟨cbs', n, heq, hlisted⟩ := h.listed hne now sentinel
  obtain ⟨rfl, rfl⟩ := Prod.mk.inj (Except.ok.inj (heq.symm.trans hrun))
  -- a timer in the set afterwards was there before, with its deadline or one from now
  have hcases : ∀ j ∈ n.timers, ∀ s ∈ n.objs[j]?, j ∈ m.timers ∧
      (s ∈ m.objs[j]? ∨ ∃ t ∈ m.objs[j]?, s = { t with next := now + t.ms } ∧
        now.toNat + t.ms.toNat < 2 ^ 64) := by
    intro j hj s hs
    obtain ⟨hin, hrec⟩ := (hlisted.timers j).mp hj
    refine ⟨hin, ?_⟩
    by_cases hexp : m.Expired now j
    · obtain ⟨entry, hmem, rfl⟩ := List.mem_map.mp ((hlisted.ids j).mpr ⟨hin, hexp⟩)
      obtain ⟨t, ht, hrec⟩ := hrec hexp
      obtain rfl := Option.some.inj (ht.symm.trans (hlisted.objs entry hmem))
      exact .inr ⟨_, ht, Option.some.inj (hs.symm.trans (hlisted.rearmed entry hmem hrec)),
        hwrap _ hin (due_iff.mpr hexp) _ ht hrec⟩
    · rw [hlisted.kept j (by rintro ⟨-, h⟩; exact hexp h)] at hs
      exact .inl hs
  refine ⟨by rw [(frame_listExpiredCb hrun).1, Bool.or_false], ?_, ?_⟩
  · intro j hj s hs
    obtain ⟨hin, hs | ⟨t, ht, rfl, -⟩⟩ := hcases j hj s hs
    · exact hclock.mono hle j hin s hs
    · simp only [UInt64.add_sub_cancel]
      exact UInt64.le_refl _
  · intro _ j hj s hs
    obtain ⟨hin, hs | ⟨t, ht, rfl, hsum⟩⟩ := hcases j hj s hs
    · exact ⟨j, hin, s, hs, UInt64.le_refl _⟩
    · exact ⟨j, hin, t, ht, next_le_of_clocked (hclock j hin t ht) hle hsum⟩

/-- The manager with a waiter: the last reading of the clock, the deadlines that were in
the set when `getNextTimer` answered the waiter, and whether it was called since. -/
structure Watch (Cb : Type) where
  manager : TimerManager Cb
  clock : UInt64
  deadlines : List UInt64
  woken : Bool

namespace Watch

/-- Before the first `getNextTimer` the waiter waits for any timer. -/
def init (now : UInt64) : Watch Cb := ⟨TimerManager.init now, now, [], false⟩

def deadlinesOf (m : TimerManager Cb) : List UInt64 :=
  m.timers.filterMap fun id => m.objs[id]?.map (·.next)

def after (w : Watch Cb) (e : Event Cb) (m' : TimerManager Cb) : Watch Cb :=
  match e.1 with
  | .getNextTimer now => ⟨m', now, deadlinesOf w.manager, false⟩
  | _ => ⟨m', e.1.reading.getD w.clock, w.deadlines, w.woken || e.2.calls⟩

@[simp] theorem manager_after (w : Watch Cb) (e : Event Cb) (m' : TimerManager Cb) :
    (w.after e m').manager = m' := by
  unfold after
  split <;> rfl

def Step (w : Watch Cb) (e : Event Cb) (w' : Watch Cb) : Prop :=
  TimerManager.Step w.manager e w'.manager ∧ (∀ now ∈ e.1.reading, w.clock ≤ now) ∧
    e.1.NoWrap w.manager ∧ w' = w.after e w'.manager

theorem step_after {w : Watch Cb} {e : Event Cb} (hmanager : TimerManager.Step w.manager e m')
    (hread : e.1.reading.all (w.clock ≤ ·) = true) (hwrap : e.1.NoWrap w.manager) :
    Step w e (w.after e m') := by
  unfold Step
  rw [manager_after]
  refine ⟨hmanager, fun now hnow => ?_, hwrap, rfl⟩
  exact of_decide_eq_true ((Option.all_eq_true _ _).mp hread now hnow)

structure Ok (w : Watch Cb) : Prop where
  good : Good [] w.manager
  clocked : Clocked w.clock w.manager
  tickled : w.manager.tickled = w.woken
  late : w.woken = false → ∀ id ∈ w.manager.timers, ∀ t ∈ w.manager.objs[id]?,
    ∃ d ∈ w.deadlines, d ≤ t.next

theorem ok_init (now : UInt64) : Ok (init now : Watch Cb) := by
  refine ⟨good_init now, ?_, rfl, ?_⟩
  · intro id hid
    cases hid
  · intro _ id hid
    cases hid

variable {w w' : Watch Cb} {e : Event Cb}

theorem Ok.of_effect (h : Ok w) (hgood : Good [] m') {front : Bool}
    (heffect : Effect c w.manager m' front) : Ok ⟨m', c, w.deadlines, w.woken || front⟩ := by
  have htickled : m'.tickled = (w.woken || front) := by rw [heffect.tickled, h.tickled]
  refine ⟨hgood, heffect.clocked, htickled, ?_⟩
  intro hquiet id hid t ht
  obtain ⟨j, hj, s, hs, hle⟩ := heffect.late (htickled.trans hquiet) id hid t ht
  obtain ⟨d, hd, hds⟩ := h.late (Bool.or_eq_false_iff.mp hquiet).1 j hj s hs
  exact ⟨d, hd, UInt64.le_trans hds hle⟩

theorem Ok.step (h : Ok w) (hstep : Step w e w') : Ok w' := by
  obtain ⟨hmanager, hread, hwrap, hafter⟩ := hstep
  have hgood := (Step.good hmanager h.good).1
  obtain ⟨hop, hexec⟩ := hmanager
  obtain ⟨op, out⟩ := e
  rw [hafter]
  cases op with
  | addTimer now ms cb recurring addr =>
    obtain ⟨rfl, hm⟩ := Prod.mk.inj (Except.ok.inj hexec)
    rw [← hm] at hgood ⊢
    exact h.of_effect hgood
      (h.good.effect_addTimer h.clocked (hread now rfl) ms cb recurring hop)
  | cancel id =>
    obtain ⟨⟨result, n⟩, hrun, hexec⟩ := bind_eq_ok.mp hexec
    obtain ⟨rfl, rfl⟩ := Prod.mk.inj (Except.ok.inj hexec)
    exact h.of_effect hgood (effect_cancel h.clocked hrun)
  | refresh id now =>
    obtain ⟨⟨result, n⟩, hrun, hexec⟩ := bind_eq_ok.mp hexec
    obtain ⟨rfl, rfl⟩ := Prod.mk.inj (Except.ok.inj hexec)
    exact h.of_effect hgood (h.good.effect_refresh hop h.clocked (hread now rfl) hwrap hrun)
  | reset id ms fromNow now =>
    obtain ⟨⟨answer, n⟩, hrun, hexec⟩ := bind_eq_ok.mp hexec
    obtain ⟨rfl, rfl⟩ := Prod.mk.inj (Except.ok.inj hexec)
    have heffect := h.good.effect_reset h.clocked
      (fun hnow => hread now (if_pos hnow)) hrun
    have hclock : (Op.reset id ms fromNow now : Op Cb).reading.getD w.clock =
        if fromNow then now else w.clock := by
      cases fromNow <;> rfl
    unfold after
    rw [hclock]
    exact h.of_effect hgood heffect
  | getNextTimer now =>
    obtain ⟨ms, heq⟩ := h.good.getNextTimer now
    obtain ⟨⟨ms', n⟩, hrun, hexec⟩ := bind_eq_ok.mp hexec
    obtain ⟨rfl, rfl⟩ := Prod.mk.inj (Except.ok.inj hexec)
    obtain ⟨rfl, hn⟩ := Prod.mk.inj (Except.ok.inj (heq.symm.trans hrun))
    unfold after
    rw [← hn] at hgood ⊢
    refine ⟨hgood, h.clocked.mono (hread now rfl), rfl, ?_⟩
    intro _ id hid t ht
    refine ⟨t.next, ?_, UInt64.le_refl _⟩
    have ht : w.manager.objs[id]? = some t := ht
    exact List.mem_filterMap.mpr ⟨id, hid, by rw [ht]; rfl⟩
  | listExpiredCb now sentinel =>
    obtain ⟨⟨cbs, n⟩, hrun, hexec⟩ := bind_eq_ok.mp hexec
    obtain ⟨rfl, rfl⟩ := Prod.mk.inj (Except.ok.inj hexec)
    exact h.of_effect hgood (h.good.effect_listExpiredCb h.clocked (hread now rfl) hwrap hrun)
  | release id =>
    obtain ⟨rfl, hm⟩ := Prod.mk.inj (Except.ok.inj hexec)
    rw [← hm] at hgood ⊢
    exact h.of_effect hgood (effect_of_kept h.clocked rfl (fun _ hj => hj)
      fun _ s hs => ⟨s, hs, rfl, rfl⟩)

/-- In every reachable state, a timer whose deadline is before all that the last
`getNextTimer` saw has been announced since. -/
theorem run_earlier_deadline_announced (now : UInt64) {es : List (Event Cb)} {w : Watch Cb}
    (run : Run Step (init now) es w) (id : Nat) (hid : id ∈ w.manager.timers) (t : Timer Cb)
    (ht : w.manager.objs[id]? = some t) (hearly : ∀ d ∈ w.deadlines, t.next < d) :
    w.woken = true := by
  have hok : Ok w := run.invariant (ok_init now) fun _ _ _ h hstep => h.step hstep
  by_contra hquiet
  obtain ⟨d, hd, hle⟩ := hok.late (by simpa using hquiet) id hid t ht
  exact absurd (hearly d hd) (UInt64.not_lt.mpr hle)

/-- A recurring timer is put back without a word while the waiter sleeps, then `reset`
brings another deadline before the one the waiter knows. -/
theorem run_earlier_deadline_announced_reset :
    ∃ es w t, Run Step (init 0 : Watch Nat) es w ∧ w.deadlines = [20, 30] ∧
      w.manager.objs[0]? = some t ∧ t.next < 20 ∧ w.woken = true := by
  obtain ⟨es, w, run, hdeadlines, hid, hnext⟩ :
      ∃ es w, Run Step (init 0 : Watch Nat) es w ∧ w.deadlines = [20, 30] ∧ 0 ∈ w.manager.timers ∧
        w.manager.objs[0]?.map (·.next) = some 15 :=
    ⟨[(.addTimer 0 30 7 false 4, _), (.addTimer 0 10 8 true 2, _), (.listExpiredCb 10 3, _),
        (.getNextTimer 12, _), (.refresh 1 12, _), (.reset 0 3 true 12, _)], _,
      .cons (step_after ⟨by decide, rfl⟩ (by decide) (by decide))
      (.cons (step_after ⟨by decide, rfl⟩ (by decide) (by decide))
      (.cons (step_after ⟨by decide, rfl⟩ (by decide) (by decide))
      (.cons (step_after ⟨by decide, rfl⟩ (by decide) (by decide))
      (.cons (step_after ⟨by decide, rfl⟩ (by decide) (by decide))
      (.cons (step_after ⟨by decide, rfl⟩ (by decide) (by decide)) .start))))), by decide, by decide,
      by decide⟩
  obtain ⟨t, ht, htnext⟩ := Option.map_eq_some_iff.mp hnext
  refine ⟨es, w, t, run, hdeadlines, ht, by rw [htnext]; decide, ?_⟩
  refine run_earlier_deadline_announced 0 run 0 hid t ht ?_
  rw [hdeadlines, htnext, List.forall_mem_cons, List.forall_mem_singleton]
  decide

end Watch

end Sylar.TimerManager
