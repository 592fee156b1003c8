import Sylar.FdManager.Basic
import Sylar.Lib.Run

/-! Calls of `get` and `delFd` from several threads. `get(fd, true)` looks under the
read lock and creates under the write lock without looking again, so other calls
can come between. What the calls return and which contexts are deleted is kept in
order. A `get(-1)` returns at once and is left out. -/
namespace Sylar.FdManager

open Lib

/-- Where a call of `get` stands: before its read lock, between its two locks, or
returned. -/
inductive Call where
  | entered (fd : Nat) (autoCreate : Bool) (fstat : Option Bool)
  | creating (fd : Nat) (fstat : Option Bool)
  | returned (ctx : Option Nat)

inductive Event where
  | got (fd ctx : Nat)
  | deleted (fd : Nat)
deriving DecidableEq

structure Calls where
  manager : FdManager
  calls : List Call
  log : List Event

namespace Calls

def init : Calls := { manager := .init, calls := [], log := [] }

def look (i fd : Nat) (autoCreate : Bool) (fstat : Option Bool) (s : Calls) : Calls :=
  match s.manager.lookup fd with
  | some p => { s with calls := s.calls.set i (.returned (some p)), log := s.log ++ [.got fd p] }
  | none =>
    if autoCreate then { s with calls := s.calls.set i (.creating fd fstat) }
    else { s with calls := s.calls.set i (.returned none) }

def make (i fd : Nat) (fstat : Option Bool) (s : Calls) : Option Calls :=
  match s.manager.create fd fstat with
  | .ok (p, manager) =>
    some { manager, calls := s.calls.set i (.returned (some p)), log := s.log ++ [.got fd p] }
  | .error _ => none

inductive Act where
  | call (fd : Nat) (autoCreate : Bool) (fstat : Option Bool)
  | look (i : Nat)
  | make (i : Nat)
  | delFd (fd : Nat)

def exec (s : Calls) : Act → Option Calls
  | .call fd autoCreate fstat => some { s with calls := s.calls ++ [.entered fd autoCreate fstat] }
  | .look i =>
    match s.calls[i]? with
    | some (.entered fd autoCreate fstat) => some (s.look i fd autoCreate fstat)
    | _ => none
  | .make i =>
    match s.calls[i]? with
    | some (.creating fd fstat) => s.make i fd fstat
    | _ => none
  | .delFd fd => some { s with manager := s.manager.delFd fd, log := s.log ++ [.deleted fd] }

def Step (s : Calls) (act : Act) (s' : Calls) : Prop := s.exec act = some s'

def StillNone (s : Calls) : Act → Prop
  | .make i => ∀ fd fstat, s.calls[i]? = some (.creating fd fstat) → s.manager.lookup fd = none
  | _ => True

/-- Between two deletions all calls for a descriptor get one context. -/
def OneObject (log : List Event) : Prop :=
  ∀ fd span, span <:+: log → .deleted fd ∉ span →
    ∀ p q, .got fd p ∈ span → .got fd q ∈ span → p = q

end Calls

section Manager

variable {m m' : FdManager} {fd p : Nat} {fstat : Option Bool}

theorem lookup_append_none (datas : List (Option Nat)) (n fd : Nat) :
    ((datas ++ List.replicate n none)[fd]?).join = (datas[fd]?).join := by
  by_cases hfd : fd < datas.length
  · rw [List.getElem?_append_left hfd]
  · rw [List.getElem?_append_right (by omega), List.getElem?_replicate,
      List.getElem?_eq_none (by omega)]
    split <;> rfl

theorem lookup_set (datas : List (Option Nat)) (fd fd' : Nat) (v : Option Nat)
    (hfd : fd < datas.length) :
    ((datas.set fd v)[fd']?).join = if fd' = fd then v else (datas[fd']?).join := by
  by_cases h : fd' = fd
  · subst h
    rw [List.getElem?_set_self hfd, if_pos rfl]
    rfl
  · rw [List.getElem?_set_ne (Ne.symm h), if_neg h]

theorem create_ok (h : m.create fd fstat = .ok (p, m')) :
    p = m.objects.length ∧ m'.objects.length = m.objects.length + 1 ∧
      ∀ fd', m'.lookup fd' = if fd' = fd then some p else m.lookup fd' := by
  simp only [create, store] at h
  generalize hdatas : (if m.datas.length ≤ fd then
    m.datas ++ List.replicate (fd * 3 / 2 - m.datas.length) none else m.datas) = datas at h
  have hsame : ∀ fd', (datas[fd']?).join = m.lookup fd' := by
    intro fd'
    rw [← hdatas, lookup]
    split
    · exact lookup_append_none _ _ _
    · rfl
  rcases ite_eq_iff.mp h with ⟨hfd, h⟩ | ⟨-, h⟩
  · obtain ⟨rfl, rfl⟩ := Prod.mk.inj (Except.ok.inj h)
    refine ⟨rfl, by simp, fun fd' => ?_⟩
    rw [← hsame]
    exact lookup_set datas fd fd' _ hfd
  · cases h

theorem lookup_delFd (m : FdManager) (fd fd' : Nat) :
    (m.delFd fd).lookup fd' = if fd' = fd then none else m.lookup fd' := by
  rw [delFd]
  split
  · rename_i hlen
    split
    · rename_i heq
      subst heq
      rw [lookup, List.getElem?_eq_none hlen]
      rfl
    · rfl
  · exact lookup_set m.datas fd fd' none (by omega)

@[simp] theorem objects_delFd (m : FdManager) (fd : Nat) : (m.delFd fd).objects = m.objects := by
  rw [delFd]
  split <;> rfl

end Manager

namespace Calls

variable {s s' : Calls} {act : Act}

inductive Effect (s : Calls) (act : Act) (s' : Calls) : Prop where
  | quiet (manager : s'.manager = s.manager) (log : s'.log = s.log) (still : s.StillNone act)
  | found (fd p : Nat) (manager : s'.manager = s.manager) (here : s.manager.lookup fd = some p)
      (log : s'.log = s.log ++ [.got fd p]) (still : s.StillNone act)
  | made (fd : Nat) (objects : s'.manager.objects.length = s.manager.objects.length + 1)
      (lookup : ∀ fd', s'.manager.lookup fd' =
        if fd' = fd then some s.manager.objects.length else s.manager.lookup fd')
      (log : s'.log = s.log ++ [.got fd s.manager.objects.length])
      (still : s.StillNone act ↔ s.manager.lookup fd = none)
  | deleted (fd : Nat) (objects : s'.manager.objects = s.manager.objects)
      (lookup : ∀ fd', s'.manager.lookup fd' = if fd' = fd then none else s.manager.lookup fd')
      (log : s'.log = s.log ++ [.deleted fd]) (still : s.StillNone act)

theorem step_effect (hstep : s.Step act s') : Effect s act s' := by
  cases act with
  | call fd autoCreate fstat =>
    obtain rfl := Option.some.inj hstep
    exact .quiet rfl rfl trivial
  | look i =>
    simp only [Step, exec] at hstep
    split at hstep
    · rename_i fd autoCreate fstat hcall
      obtain rfl := Option.some.inj hstep
      simp only [look]
      split
      · rename_i p hp
        exact .found fd p rfl hp rfl trivial
      · split
        · exact .quiet rfl rfl trivial
        · exact .quiet rfl rfl trivial
    · cases hstep
  | make i =>
    simp only [Step, exec] at hstep
    split at hstep
    · rename_i fd fstat hcall
      simp only [make] at hstep
      split at hstep
      · rename_i p manager hcreate
        obtain rfl := Option.some.inj hstep
        obtain ⟨rfl, hobjects, hlookup⟩ := create_ok hcreate
        refine .made fd hobjects hlookup rfl ⟨fun h => h fd fstat hcall, fun h fd' fstat' hcall' => ?_⟩
        rw [hcall] at hcall'
        cases hcall'
        exact h
      · cases hstep
    · cases hstep
  | delFd fd =>
    obtain rfl := Option.some.inj hstep
    exact .deleted fd (objects_delFd _ _) (lookup_delFd _ _) rfl trivial

/-- A context in the table was returned by some call since the last deletion. -/
def Known (s : Calls) : Prop :=
  ∀ fd p, s.manager.lookup fd = some p → p < s.manager.objects.length ∧
    ∃ span, span <:+ s.log ∧ .got fd p ∈ span ∧ .deleted fd ∉ span

theorem known_init : Known init := by
  intro fd p h
  simp [init, FdManager.init, lookup] at h

theorem Known.append {e : Event} {fd p : Nat}
    (h : ∃ span, span <:+ s.log ∧ .got fd p ∈ span ∧ .deleted fd ∉ span) (he : e ≠ .deleted fd) :
    ∃ span, span <:+ s.log ++ [e] ∧ .got fd p ∈ span ∧ .deleted fd ∉ span := by
  obtain ⟨span, hspan, hgot, hdel⟩ := h
  refine ⟨span ++ [e], ?_, by simp [hgot], by simp [hdel, Ne.symm he]⟩
  obtain ⟨before, hbefore⟩ := hspan
  exact ⟨before, by rw [← hbefore, List.append_assoc]⟩

theorem known_step (h : Known s) (heffect : Effect s act s') : Known s' := by
  intro fd p hp
  cases heffect with
  | quiet manager log _ =>
    rw [manager] at hp ⊢
    rw [log]
    exact h fd p hp
  | found fd' p' manager here log _ =>
    rw [manager] at hp ⊢
    rw [log]
    exact ⟨(h fd p hp).1, Known.append (h fd p hp).2 (by simp)⟩
  | made fd' objects lookup log _ =>
    rw [lookup] at hp
    rw [objects, log]
    split at hp
    · rename_i heq
      subst heq
      obtain rfl := Option.some.inj hp
      exact ⟨Nat.lt_succ_self _, [.got fd _], List.suffix_append _ _, by simp, by simp⟩
    · exact ⟨Nat.lt_succ_of_lt (h fd p hp).1, Known.append (h fd p hp).2 (by simp)⟩
  | deleted fd' objects lookup log _ =>
    rw [lookup] at hp
    rw [objects, log]
    split at hp
    · cases hp
    · rename_i hne
      refine ⟨(h fd p hp).1, Known.append (h fd p hp).2 ?_⟩
      rintro ⟨rfl⟩
      exact hne rfl

/-- All calls since the last deletion got the context that is in the table. -/
def Current (s : Calls) : Prop :=
  ∀ fd span, span <:+ s.log → .deleted fd ∉ span → ∀ p, .got fd p ∈ span →
    s.manager.lookup fd = some p

theorem current_step (h : Current s) (heffect : Effect s act s') (hstill : s.StillNone act) :
    Current s' := by
  -- the events since a deletion are those before the step and then the step's own
  have hsplit : ∀ {e : Event} {fd : Nat} {span : List Event}, span <:+ s.log ++ [e] →
      .deleted fd ∉ span → ∀ p, .got fd p ∈ span →
      e ≠ .deleted fd ∧ (s.manager.lookup fd = some p ∨ e = .got fd p) := by
    intro e fd span hspan hdel p hgot
    obtain rfl | ⟨t, rfl, ht⟩ := List.suffix_concat_iff.mp hspan
    · simp at hgot
    · simp only [List.mem_append, List.mem_singleton, not_or] at hdel hgot
      refine ⟨Ne.symm hdel.2, hgot.imp (h fd t ht hdel.1 p) Eq.symm⟩
  intro fd span hspan hdel p hgot
  cases heffect with
  | quiet manager log _ =>
    rw [log] at hspan
    rw [manager]
    exact h fd span hspan hdel p hgot
  | found fd' p' manager here log _ =>
    rw [log] at hspan
    rw [manager]
    obtain ⟨-, hold | hnew⟩ := hsplit hspan hdel p hgot
    · exact hold
    · cases hnew
      exact here
  | made fd' objects lookup log still =>
    rw [log] at hspan
    rw [lookup]
    obtain ⟨-, hold | hnew⟩ := hsplit hspan hdel p hgot
    · have hne : fd ≠ fd' := by
        rintro rfl
        rw [still.mp hstill] at hold
        cases hold
      rw [if_neg hne]
      exact hold
    · cases hnew
      exact if_pos rfl
  | deleted fd' objects lookup log _ =>
    rw [log] at hspan
    rw [lookup]
    obtain ⟨hne, hold | hnew⟩ := hsplit hspan hdel p hgot
    · have hfd : fd ≠ fd' := fun heq => hne (heq ▸ rfl)
      rw [if_neg hfd]
      exact hold
    · cases hnew

theorem oneObject_concat {log : List Event} {e : Event} (h : OneObject log)
    (hlog : s.log = log ++ [e]) (hcurrent : Current s) : OneObject s.log := by
  intro fd span hspan hdel p q hp hq
  rw [hlog] at hspan
  rcases List.infix_concat_iff.mp hspan with hsuffix | hinfix
  · rw [← hlog] at hsuffix
    exact Option.some.inj
      ((hcurrent fd span hsuffix hdel p hp).symm.trans (hcurrent fd span hsuffix hdel q hq))
  · exact h fd span hinfix hdel p q hp hq

theorem log_step (heffect : Effect s act s') : s'.log = s.log ∨ ∃ e, s'.log = s.log ++ [e] := by
  cases heffect with
  | quiet _ log _ => exact .inl log
  | found _ _ _ _ log _ => exact .inr ⟨_, log⟩
  | made _ _ _ log _ => exact .inr ⟨_, log⟩
  | deleted _ _ _ log _ => exact .inr ⟨_, log⟩

theorem OneObject.of_infix {log log' : List Event} (h : OneObject log') (hlog : log <:+: log') :
    OneObject log :=
  fun fd span hspan => h fd span (hspan.trans hlog)

theorem stillNone_of_oneObject (h : Known s) (heffect : Effect s act s')
    (hone : OneObject s'.log) : s.StillNone act := by
  cases heffect with
  | quiet _ _ still => exact still
  | found _ _ _ _ _ still => exact still
  | deleted _ _ _ _ still => exact still
  | made fd _ _ log still =>
    refine still.mpr (Option.eq_none_iff_forall_ne_some.mpr fun p hp => ?_)
    obtain ⟨hlt, span, ⟨before, hbefore⟩, hgot, hdel⟩ := h fd p hp
    have hspan : span ++ [.got fd s.manager.objects.length] <:+: s'.log :=
      ⟨before, [], by rw [log, ← hbefore]; simp⟩
    have hsame := hone fd _ hspan (by simp [hdel]) p s.manager.objects.length (by simp [hgot])
      (by simp)
    exact absurd hsame (Nat.ne_of_lt hlt)

/-- All calls for a descriptor get one and the same context until it is deleted,
exactly in the runs in which a call that creates one finds that there is still none. -/
theorem run_one_object {acts : List Act} (run : Run Step init acts s) :
    OneObject s.log ↔ Run (fun s act s' => s.StillNone act ∧ s.Step act s') init acts s := by
  constructor
  · intro hone
    induction run with
    | start => exact .start
    | @snoc acts s act s' run hstep ih =>
      have heffect := step_effect hstep
      have hknown : Known s :=
        run.invariant known_init fun _ _ _ h hstep => known_step h (step_effect hstep)
      have hgrows : s.log <:+: s'.log := by
        rcases log_step heffect with hlog | ⟨e, hlog⟩
        · exact hlog ▸ List.infix_refl _
        · exact hlog ▸ (List.prefix_append _ _).isInfix
      exact (ih (hone.of_infix hgrows)).snoc ⟨stillNone_of_oneObject hknown heffect hone, hstep⟩
  · intro hrun
    refine (hrun.invariant (I := fun s => OneObject s.log ∧ Current s) ⟨?_, ?_⟩ ?_).1
    · intro fd span hspan hdel p q hp
      rw [show span = [] from List.infix_nil.mp hspan] at hp
      cases hp
    · intro fd span hspan hdel p hp
      rw [show span = [] from List.suffix_nil.mp hspan] at hp
      cases hp
    · rintro s act s' ⟨hone, hcurrent⟩ ⟨hstill, hstep⟩
      have heffect := step_effect hstep
      have hcurrent' := current_step hcurrent heffect hstill
      rcases log_step heffect with hlog | ⟨e, hlog⟩
      · exact ⟨hlog ▸ hone, hcurrent'⟩
      · exact ⟨oneObject_concat hone hlog hcurrent', hcurrent'⟩

/-- Two first calls one after the other, and one after a deletion. -/
theorem run_one_object_inTurn :
    ∃ s : Calls, Run Step init
      [.call 5 true none, .look 0, .make 0, .call 5 true none, .look 1, .delFd 5,
        .call 5 true none, .look 2, .make 2] s ∧
      s.log = [.got 5 0, .got 5 0, .deleted 5, .got 5 1] ∧ OneObject s.log := by
  obtain ⟨s, run, hstill, hlog⟩ : ∃ s : Calls, Run Step init
      [.call 5 true none, .look 0, .make 0, .call 5 true none, .look 1, .delFd 5,
        .call 5 true none, .look 2, .make 2] s ∧
      Run (fun s act s' => s.StillNone act ∧ s.Step act s') init
      [.call 5 true none, .look 0, .make 0, .call 5 true none, .look 1, .delFd 5,
        .call 5 true none, .look 2, .make 2] s ∧
      s.log = [.got 5 0, .got 5 0, .deleted 5, .got 5 1] :=
    ⟨_, .cons rfl (.cons rfl (.cons rfl (.cons rfl (.cons rfl (.cons rfl (.cons rfl
        (.cons rfl (.cons rfl .start)))))))),
      .cons ⟨trivial, rfl⟩ (.cons ⟨trivial, rfl⟩ (.cons ⟨by rintro _ _ ⟨⟩; rfl, rfl⟩
        (.cons ⟨trivial, rfl⟩ (.cons ⟨trivial, rfl⟩ (.cons ⟨trivial, rfl⟩ (.cons ⟨trivial, rfl⟩
        (.cons ⟨trivial, rfl⟩ (.cons ⟨by rintro _ _ ⟨⟩; rfl, rfl⟩ .start)))))))), rfl⟩
  exact ⟨s, run, hlog, (run_one_object run).mpr hstill⟩

/-- Two first calls that both look before either creates. -/
theorem first_calls_get_two_objects :
    ∃ s : Calls, Run Step init
      [.call 5 true none, .call 5 true none, .look 0, .look 1, .make 0, .make 1] s ∧
      s.calls = [.returned (some 0), .returned (some 1)] ∧ s.log = [.got 5 0, .got 5 1] ∧
      ¬ OneObject s.log :=
  ⟨_, .cons rfl (.cons rfl (.cons rfl (.cons rfl (.cons rfl (.cons rfl .start))))), rfl, rfl,
    fun h => absurd (h 5 _ (List.infix_refl _) (by decide) 0 1 (by decide) (by decide)) (by decide)⟩

end Calls

end Sylar.FdManager
