import Sylar.Lib.Run
import Sylar.Timer.Basic
import Mathlib.Data.Prod.Lex
import Mathlib.Order.WithBot

/-! The timer set stays ordered. Its keys are fields of objects that change
while the set exists, so each operation is followed through the moment at
which a timer is out of the set: `Good pending m` describes the manager while
the timers in `pending` have a callback but stand outside. -/
namespace Sylar.TimerManager

open Lib Lib.OrderedSet

variable {Cb : Type} {m m' : TimerManager Cb} {id : Nat} {t : Timer Cb} {pending : List Nat}

def Timer.key (t : Timer Cb) : ℕ ×ₗ ℕ := toLex (t.next.toNat, t.addr)

def key (m : TimerManager Cb) (id : Nat) : WithBot (ℕ ×ₗ ℕ) :=
  m.objs[id]?.elim ⊥ fun t => ((Timer.key t : ℕ ×ₗ ℕ) : WithBot (ℕ ×ₗ ℕ))

theorem comparator_iff (s t : Timer Cb) :
    Timer.Comparator (some s) (some t) = true ↔ Timer.key s < Timer.key t := by
  simp only [Timer.Comparator, Timer.key, Prod.Lex.toLex_lt_toLex, UInt64.lt_iff_toNat_lt]
  split
  · simp [*]
  · split <;> simp <;> omega

theorem less_iff (m : TimerManager Cb) (a b : Nat) : m.less a b = true ↔ m.key a < m.key b := by
  simp only [less, key]
  cases m.objs[a]? with
  | none =>
    cases m.objs[b]? with
    | none => simp [Timer.Comparator]
    | some t => simp [Timer.Comparator]
  | some s =>
    cases m.objs[b]? with
    | none => simp [Timer.Comparator]
    | some t => simpa using comparator_iff s t

def addr (m : TimerManager Cb) (id : Nat) : Option Nat := m.objs[id]?.map (·.addr)

def armed (m : TimerManager Cb) (id : Nat) : Prop := ∃ t, m.objs[id]? = some t ∧ t.cb.isSome

structure Good (pending : List Nat) (m : TimerManager Cb) : Prop where
  sorted : Sorted m.key m.timers
  nodup : (m.timers ++ pending).Nodup
  armed : ∀ id, id ∈ m.timers ++ pending ↔ m.armed id
  held : ∀ id ∈ m.held, id < m.objs.length
  distinct : ∀ i j, i ∈ m.timers ++ pending ++ m.held → j ∈ m.timers ++ pending ++ m.held →
    m.addr i = m.addr j → i = j

theorem good_init (now : UInt64) : Good [] (init now : TimerManager Cb) := by
  constructor <;> simp [init, Sorted, TimerManager.armed]

theorem key_of_get (h : m.objs[id]? = some t) : m.key id = ((Timer.key t : ℕ ×ₗ ℕ) : WithBot _) := by
  simp [key, h]

theorem key_lt_key {i j : Nat} {s t : Timer Cb} (hs : m.objs[i]? = some s)
    (ht : m.objs[j]? = some t) :
    m.key i < m.key j ↔ s.next < t.next ∨ s.next = t.next ∧ s.addr < t.addr := by
  rw [key_of_get hs, key_of_get ht, WithBot.coe_lt_coe, Timer.key, Timer.key,
    Prod.Lex.toLex_lt_toLex, UInt64.lt_iff_toNat_lt, ← UInt64.toNat_inj]

theorem Good.key_ne (h : Good pending m) {i j : Nat} (hi : i ∈ m.timers ++ pending)
    (hj : j ∈ m.timers ++ pending) (hne : i ≠ j) : m.key i ≠ m.key j := by
  obtain ⟨s, hs, -⟩ := (h.armed i).mp hi
  obtain ⟨t, ht, -⟩ := (h.armed j).mp hj
  intro hkey
  apply hne
  apply h.distinct i j (List.mem_append_left _ hi) (List.mem_append_left _ hj)
  rw [key_of_get hs, key_of_get ht, WithBot.coe_inj] at hkey
  have haddr := congrArg (fun k => (ofLex k).2) hkey
  simpa [addr, hs, ht, Timer.key] using haddr

theorem get_put (ht : m.objs[id]? = some t) (t' : Timer Cb) (j : Nat) :
    (m.put id t').objs[j]? = if j = id then some t' else m.objs[j]? := by
  have hlt : id < m.objs.length := (List.getElem?_eq_some_iff.mp ht).1
  by_cases hj : j = id
  · subst hj
    simp [put, hlt]
  · simp [put, hj, List.getElem?_set_ne (Ne.symm hj)]

theorem addr_put (ht : m.objs[id]? = some t) {t' : Timer Cb} (haddr : t'.addr = t.addr) :
    (m.put id t').addr = m.addr := by
  funext j
  by_cases hj : j = id
  · subst hj
    simp [addr, get_put ht, ht, haddr]
  · simp [addr, get_put ht, hj]

theorem key_put_ne (ht : m.objs[id]? = some t) (t' : Timer Cb) {j : Nat} (hj : j ≠ id) :
    (m.put id t').key j = m.key j := by
  simp [key, get_put ht, hj]

theorem Good.apart (h : Good (id :: pending) m) : id ∉ m.timers ∧ id ∉ pending := by
  have hfront := List.perm_middle.nodup_iff.mp h.nodup
  simpa using (List.nodup_cons.mp hfront).1

/-- Timers may move between the set and `pending` as long as the set stays
ordered: nothing else looks at where they are. -/
theorem Good.regroup (h : Good pending m) {timers pending' : List Nat}
    (hsorted : Sorted m.key timers) (hperm : (timers ++ pending').Perm (m.timers ++ pending)) :
    Good pending' { m with timers } := by
  constructor
  · exact hsorted
  · exact hperm.nodup_iff.mpr h.nodup
  · intro id
    rw [hperm.mem_iff]
    exact h.armed id
  · exact h.held
  · intro i j hi hj
    apply h.distinct i j
    · exact (hperm.append_right m.held).mem_iff.mp hi
    · exact (hperm.append_right m.held).mem_iff.mp hj

theorem Good.out (h : Good pending m) (hid : id ∈ m.timers) :
    find m.less id m.timers < m.timers.length ∧
      Good (id :: pending) { m with timers := m.timers.eraseIdx (find m.less id m.timers) } ∧
      ∀ j, j ∈ m.timers.eraseIdx (find m.less id m.timers) ↔ j ∈ m.timers ∧ j ≠ id := by
  obtain ⟨before, after, heq, hnot, hbefore, -⟩ := h.sorted.split hid
  have hfind : find m.less id m.timers = before.length := by
    rw [heq]
    exact find_of_split (less_iff m) hbefore
  have herase : m.timers.eraseIdx before.length = before ++ after := by
    rw [heq, List.eraseIdx_append_of_length_le le_rfl]
    simp
  rw [hfind, herase]
  refine ⟨by simp [heq], ?_, ?_⟩
  · apply h.regroup
    · apply h.sorted.sublist
      rw [heq]
      simp
    · rw [heq]
      simp only [List.append_assoc, List.cons_append]
      exact List.Perm.append_left before List.perm_middle
  · intro j
    by_cases hj : j = id
    · subst hj
      simpa using hnot
    · simp [heq, hj]

theorem Good.insertTimer_eq (h : Good (id :: pending) m) :
    ∃ it, m.insertTimer id = { m with timers := m.timers.take it ++ id :: m.timers.drop it } ∧
      Sorted m.key (m.timers.take it ++ id :: m.timers.drop it) := by
  obtain ⟨it, hinsert, hsorted⟩ := h.sorted.insert_fresh (less_iff m) (x := id) (by
    intro j hj
    apply h.key_ne (by simp [hj]) (by simp)
    rintro rfl
    exact h.apart.1 hj)
  exact ⟨it, by rw [insertTimer, hinsert], hsorted⟩

theorem Good.back (h : Good (id :: pending) m) : Good pending (m.insertTimer id) := by
  obtain ⟨it, heq, hsorted⟩ := h.insertTimer_eq
  rw [heq]
  apply h.regroup hsorted
  rw [List.append_assoc, List.cons_append]
  refine List.Perm.trans (List.perm_middle) (List.Perm.trans ?_ List.perm_middle.symm)
  rw [← List.append_assoc, List.take_append_drop]

theorem Good.mem_insertTimer (h : Good (id :: pending) m) (j : Nat) :
    j ∈ (m.insertTimer id).timers ↔ j = id ∨ j ∈ m.timers := by
  obtain ⟨it, heq, -⟩ := h.insertTimer_eq
  rw [heq]
  conv_rhs => rw [← List.take_append_drop it m.timers]
  simp only [List.mem_append, List.mem_cons]
  tauto

theorem Good.addTimerLocked (h : Good (id :: pending) m) :
    Good pending (m.addTimerLocked id).2 :=
  ⟨h.back.sorted, h.back.nodup, h.back.armed, h.back.held, h.back.distinct⟩

theorem Good.expire (h : Good [] m) (n : Nat) :
    Good (m.timers.take n) { m with timers := m.timers.drop n } := by
  apply h.regroup (h.sorted.sublist (List.drop_sublist n _))
  rw [List.append_nil]
  exact List.perm_append_comm.trans (List.Perm.of_eq (List.take_append_drop n _))

theorem Good.put (h : Good (id :: pending) m) (ht : m.objs[id]? = some t) {t' : Timer Cb}
    (haddr : t'.addr = t.addr) {pending' : List Nat} (hsub : pending'.Sublist (id :: pending))
    (hother : ∀ j, j ≠ id → (j ∈ pending' ↔ j ∈ pending)) (hself : id ∈ pending' ↔ t'.cb.isSome) :
    Good pending' (m.put id t') := by
  have hsub' : (m.timers ++ pending').Sublist (m.timers ++ id :: pending) := hsub.append_left _
  constructor
  · apply h.sorted.congr
    intro j hj
    apply key_put_ne ht
    rintro rfl
    exact h.apart.1 hj
  · exact List.Nodup.sublist hsub' h.nodup
  · intro j
    by_cases hj : j = id
    · subst hj
      simp [TimerManager.armed, get_put ht, hself, h.apart.1]
    · have harmed : (m.put id t').armed j ↔ m.armed j := by
        simp [TimerManager.armed, get_put ht, hj]
      rw [harmed, ← h.armed j]
      simp [TimerManager.put, hj, hother j hj]
  · intro j hj
    simpa [TimerManager.put] using h.held j hj
  · intro i j hi hj
    rw [addr_put ht haddr]
    have hlive := (hsub'.append_right m.held).subset
    exact h.distinct i j (hlive hi) (hlive hj)

theorem Good.rekey (h : Good (id :: pending) m) (ht : m.objs[id]? = some t) (t' : Timer Cb)
    (haddr : t'.addr = t.addr) (hcb : t'.cb.isSome) : Good (id :: pending) (m.put id t') := by
  apply h.put ht haddr (List.Sublist.refl _)
  · intro j hj
    simp [hj]
  · simp [hcb]

theorem Good.retire (h : Good (id :: pending) m) (ht : m.objs[id]? = some t) (t' : Timer Cb)
    (haddr : t'.addr = t.addr) (hcb : t'.cb = none) : Good pending (m.put id t') := by
  apply h.put ht haddr (List.sublist_cons_self _ _)
  · intro j _
    rfl
  · simp [hcb, h.apart.2]

theorem Good.create (h : Good [] m) (hcb : t.cb.isSome)
    (haddr : ∀ id ∈ m.timers ++ m.held, m.addr id ≠ some t.addr) :
    Good [m.objs.length]
      { m with objs := m.objs ++ [t], held := m.objs.length :: m.held } := by
  have hold : ∀ j ∈ m.timers ++ m.held, j < m.objs.length := by
    intro j hj
    rcases List.mem_append.mp hj with hj | hj
    · obtain ⟨t, ht, -⟩ := (h.armed j).mp (by simpa using hj)
      exact (List.getElem?_eq_some_iff.mp ht).1
    · exact h.held j hj
  have hget : ∀ j < m.objs.length, (m.objs ++ [t])[j]? = m.objs[j]? := fun j hj =>
    List.getElem?_append_left hj
  constructor
  · apply h.sorted.congr
    intro j hj
    simp [key, hget j (hold j (by simp [hj]))]
  · have hnodup : m.timers.Nodup := h.sorted.nodup
    refine List.nodup_append.mpr ⟨hnodup, by simp, ?_⟩
    intro j hj k hk heq
    obtain rfl := List.mem_singleton.mp hk
    exact absurd heq (hold j (by simp [hj])).ne
  · intro j
    by_cases hj : j < m.objs.length
    · have harmed := h.armed j
      simp only [TimerManager.armed, hget j hj, List.append_nil] at harmed ⊢
      rw [← harmed]
      simp [hj.ne]
    · have hout : j ∉ m.timers := fun hin => hj (hold j (by simp [hin]))
      by_cases hlast : j = m.objs.length
      · subst hlast
        simp [TimerManager.armed, hcb]
      · have hnone : (m.objs ++ [t])[j]? = none := by
          simp only [List.getElem?_eq_none_iff, List.length_append, List.length_singleton]
          omega
        simp [TimerManager.armed, hnone, hout, hlast]
  · intro j hj
    rcases List.mem_cons.mp hj with rfl | hj
    · simp
    · have hlt := h.held j hj
      simp only [List.length_append, List.length_singleton]
      omega
  · intro i j hi hj hij
    have hcases : ∀ k, k ∈ m.timers ++ [m.objs.length] ++ m.objs.length :: m.held →
        k = m.objs.length ∨ k ∈ m.timers ++ m.held := by
      intro k hk
      simp only [List.mem_append, List.mem_cons, List.not_mem_nil, or_false] at hk ⊢
      tauto
    have hnew : ((m.objs ++ [t])[m.objs.length]?).map (·.addr) = some t.addr := by simp
    simp only [addr] at hij
    rcases hcases i hi with rfl | hi'
    · rcases hcases j hj with rfl | hj'
      · rfl
      · rw [hnew, hget j (hold j hj')] at hij
        exact absurd hij.symm (haddr j hj')
    · rcases hcases j hj with rfl | hj'
      · rw [hnew, hget i (hold i hi')] at hij
        exact absurd hij (haddr i hi')
      · rw [hget i (hold i hi'), hget j (hold j hj')] at hij
        exact h.distinct i j (by simpa using hi') (by simpa using hj') hij

def dead (m : TimerManager Cb) (id : Nat) : Prop := ∃ t, m.objs[id]? = some t ∧ t.cb = none

theorem dead_put (ht : m.objs[id]? = some t) {t' : Timer Cb} (hcb : t'.cb = none ∨ t.cb.isSome)
    {j : Nat} (hj : m.dead j) : (m.put id t').dead j := by
  obtain ⟨u, hu, hdead⟩ := hj
  by_cases hid : j = id
  · subst hid
    obtain rfl : t = u := Option.some.inj (ht.symm.trans hu)
    refine ⟨t', by simp [get_put ht], ?_⟩
    simpa [hdead] using hcb
  · exact ⟨u, by simp [get_put ht, hid, hu], hdead⟩

theorem Good.get_held (h : Good pending m) (hid : id ∈ m.held) : ∃ t, m.objs[id]? = some t :=
  ⟨_, List.getElem?_eq_getElem (h.held id hid)⟩

@[simp] theorem deref_of_get (ht : m.objs[id]? = some t) : m.deref id = .ok t := by
  simp [deref, ht]

theorem erase_of_lt {it : Nat} (hit : it < m.timers.length) :
    m.erase it = .ok { m with timers := m.timers.eraseIdx it } := by
  simp [erase, hit]

theorem less_put_cb (ht : m.objs[id]? = some t) (cb : Option Cb) :
    (m.put id { t with cb := cb }).less = m.less := by
  funext a b
  rw [Bool.eq_iff_iff, less_iff, less_iff]
  have hkey : (m.put id { t with cb := cb }).key = m.key := by
    funext j
    by_cases hj : j = id
    · subst hj
      simp [key, get_put ht, ht, Timer.key]
    · exact key_put_ne ht _ hj
  rw [hkey]

theorem Good.cancel (h : Good [] m) (hid : id ∈ m.held) :
    ∃ result m', m.cancel id = .ok (result, m') ∧ Good [] m' ∧
      (∀ j, j ∈ m'.timers ↔ j ∈ m.timers ∧ j ≠ id) ∧ (∀ j, m.dead j → m'.dead j) ∧
      (result = true → m'.dead id) ∧ (m.dead id → result = false) := by
  obtain ⟨t, ht⟩ := h.get_held hid
  by_cases hcb : t.cb.isSome
  · have hin : id ∈ m.timers := by simpa using (h.armed id).mpr ⟨t, ht, hcb⟩
    obtain ⟨hlt, hout, hmem⟩ := h.out hin
    have herase := erase_of_lt (m := m.put id { t with cb := none }) hlt
    refine ⟨true, _, ?_, hout.retire ht { t with cb := none } rfl rfl, hmem, ?_, ?_, ?_⟩
    · simp only [TimerManager.cancel, deref_of_get ht, bind, Except.bind, hcb, if_true,
        less_put_cb ht]
      simp only [TimerManager.put] at herase ⊢
      rw [herase]
      rfl
    · intro j hj
      exact dead_put ht (Or.inl rfl) hj
    · intro _
      exact ⟨_, (get_put ht _ id).trans (if_pos rfl), rfl⟩
    · rintro ⟨u, hu, hdead⟩
      obtain rfl : t = u := Option.some.inj (ht.symm.trans hu)
      simp [hdead] at hcb
  · refine ⟨false, m, ?_, h, ?_, fun _ hj => hj, by simp, fun _ => rfl⟩
    · simp only [TimerManager.cancel, deref_of_get ht, bind, Except.bind, hcb]
      rfl
    · intro j
      refine ⟨fun hj => ⟨hj, ?_⟩, And.left⟩
      rintro rfl
      obtain ⟨u, hu, hsome⟩ := (h.armed j).mp (by simpa using hj)
      obtain rfl : t = u := Option.some.inj (ht.symm.trans hu)
      exact hcb hsome

theorem Good.retime (h : Good [] m) (hin : id ∈ m.timers) (ht : m.objs[id]? = some t)
    (t' : Timer Cb) (haddr : t'.addr = t.addr) (hcb : t'.cb = t.cb) :
    let m' := { m with timers := m.timers.eraseIdx (find m.less id m.timers) }.put id t'
    Good [id] m' ∧ (∀ j, j = id ∨ j ∈ m'.timers ↔ j ∈ m.timers) ∧
      ∀ j, m.dead j → m'.dead j := by
  have hsome : t.cb.isSome := by
    obtain ⟨u, hu, hcb⟩ := (h.armed id).mp (by simpa using hin)
    obtain rfl : t = u := Option.some.inj (ht.symm.trans hu)
    exact hcb
  obtain ⟨-, hout, hmem⟩ := h.out hin
  refine ⟨hout.rekey ht t' haddr (hcb ▸ hsome), ?_, ?_⟩
  · intro j
    rw [timers_put, hmem j]
    by_cases hj : j = id
    · simp [hj, hin]
    · simp [hj]
  · intro j hj
    exact dead_put ht (Or.inr hsome) hj

theorem Good.refresh (h : Good [] m) (hid : id ∈ m.held) (now : UInt64) :
    ∃ result m', m.refresh id now = .ok (result, m') ∧ Good [] m' ∧
      (∀ j, j ∈ m'.timers ↔ j ∈ m.timers) ∧ (∀ j, m.dead j → m'.dead j) ∧
      (m.dead id → result = false) := by
  obtain ⟨t, ht⟩ := h.get_held hid
  by_cases hcb : t.cb.isSome
  · have hin : id ∈ m.timers := by simpa using (h.armed id).mpr ⟨t, ht, hcb⟩
    have hlt := (h.out hin).1
    obtain ⟨hgood, hmem, hdead⟩ := h.retime hin ht { t with next := now + t.ms } rfl rfl
    refine ⟨true, _, ?_, hgood.back, fun j => (hgood.mem_insertTimer j).trans (hmem j), hdead, ?_⟩
    · have hnone : ¬ t.cb.isNone := by simpa using Option.isSome_iff_ne_none.mp hcb
      simp only [TimerManager.refresh, deref_of_get ht, bind, Except.bind, hnone, hlt.ne,
        if_false, erase_of_lt hlt, Bool.false_eq_true]
      rfl
    · rintro ⟨u, hu, hdead⟩
      obtain rfl : t = u := Option.some.inj (ht.symm.trans hu)
      simp [hdead] at hcb
  · have hnone : t.cb.isNone := by simpa using hcb
    refine ⟨false, m, ?_, h, fun _ => Iff.rfl, fun _ hj => hj, fun _ => rfl⟩
    simp only [TimerManager.refresh, deref_of_get ht, bind, Except.bind, hnone, if_true]
    rfl

theorem Good.reset (h : Good [] m) (hid : id ∈ m.held) (ms : UInt64) (fromNow : Bool)
    (now : UInt64) :
    ∃ answer m', m.reset id ms fromNow now = .ok (answer, m') ∧ Good [] m' ∧
      (∀ j, j ∈ m'.timers ↔ j ∈ m.timers) ∧ ∀ j, m.dead j → m'.dead j := by
  obtain ⟨t, ht⟩ := h.get_held hid
  by_cases hsame : ms = t.ms ∧ fromNow = false
  · refine ⟨(true, false), m, ?_, h, fun _ => Iff.rfl, fun _ hj => hj⟩
    simp only [TimerManager.reset, deref_of_get ht, bind, Except.bind, hsame, and_self, if_true]
    rfl
  by_cases hcb : t.cb.isSome
  · have hin : id ∈ m.timers := by simpa using (h.armed id).mpr ⟨t, ht, hcb⟩
    have hlt := (h.out hin).1
    have hnone : ¬ t.cb.isNone := by simpa using Option.isSome_iff_ne_none.mp hcb
    obtain ⟨hgood, hmem, hdead⟩ := h.retime hin ht
      { t with ms := ms, next := (if fromNow then now else t.next - t.ms) + ms } rfl rfl
    refine ⟨(true, ?front), _, ?exec, hgood.addTimerLocked,
      fun j => (hgood.mem_insertTimer j).trans (hmem j), hdead⟩
    case exec =>
      simp only [TimerManager.reset, deref_of_get ht, bind, Except.bind, hsame, hnone, hlt.ne,
        if_false, erase_of_lt hlt, Bool.false_eq_true]
      rfl
  · have hnone : t.cb.isNone := by simpa using hcb
    refine ⟨(false, false), m, ?_, h, fun _ => Iff.rfl, fun _ hj => hj⟩
    simp only [TimerManager.reset, deref_of_get ht, bind, Except.bind, hsame, hnone, if_true,
      if_false]
    rfl

theorem Good.getNextTimer (h : Good [] m) (now : UInt64) :
    ∃ ms, m.getNextTimer now = .ok (ms, { m with tickled := false }) := by
  cases htimers : m.timers with
  | nil => exact ⟨_, by simp only [TimerManager.getNextTimer, htimers]; rfl⟩
  | cons id rest =>
    obtain ⟨t, ht, -⟩ := (h.armed id).mp (by simp [htimers])
    simp only [TimerManager.getNextTimer, htimers, List.isEmpty_cons, begin, deref, ht, bind,
      Except.bind, Bool.false_eq_true, if_false]
    by_cases hdue : now ≥ t.next
    · exact ⟨0, if_pos hdue⟩
    · exact ⟨t.next - now, if_neg hdue⟩


end Sylar.TimerManager
