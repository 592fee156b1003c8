import Sylar.Lib.Run
import Sylar.Lib.Slots

/-! A configuration variable that several threads set. `setValue` compares and tells
the listeners under the read lock and stores under the write lock, so other calls
can come between. The listeners are fixed and each is told the same; what they are
told is kept in order. -/
namespace Sylar

open Lib

/-- Where a call of `setValue` stands: before its read lock, between its two locks,
or returned. -/
inductive ConfigVar.Call (T : Type) where
  | entered (v : T)
  | told (v : T)
  | returned

open ConfigVar in
structure ConfigVar (T : Type) where
  val : T
  calls : List (Call T)
  notified : List (T × T)

namespace ConfigVar

variable {T : Type}

def init (v : T) : ConfigVar T := { val := v, calls := [], notified := [] }

def getValue (s : ConfigVar T) : T := s.val

section Model

variable [DecidableEq T]

def tell (i : Nat) (v : T) (s : ConfigVar T) : ConfigVar T :=
  if v = s.val then { s with calls := s.calls.set i .returned }
  else { s with calls := s.calls.set i (.told v), notified := s.notified ++ [(s.val, v)] }

def store (i : Nat) (v : T) (s : ConfigVar T) : ConfigVar T :=
  { s with val := v, calls := s.calls.set i .returned }

inductive Act (T : Type) where
  | call (v : T)
  | tell (i : Nat)
  | store (i : Nat)

def exec (s : ConfigVar T) : Act T → Option (ConfigVar T)
  | .call v => some { s with calls := s.calls ++ [.entered v] }
  | .tell i =>
    match s.calls[i]? with
    | some (.entered v) => some (s.tell i v)
    | _ => none
  | .store i =>
    match s.calls[i]? with
    | some (.told v) => some (s.store i v)
    | _ => none

def Step (s : ConfigVar T) (act : Act T) (s' : ConfigVar T) : Prop := s.exec act = some s'

end Model

def Call.pending : Call T → Option T
  | .told v => some v
  | _ => none

def pending (s : ConfigVar T) : List T := s.calls.filterMap Call.pending

/-- A call that tells the listeners finds no other call between its two locks. -/
def Alone (s : ConfigVar T) : Act T → Prop
  | .tell i => ∀ v, s.calls[i]? = some (.entered v) → v ≠ s.val → s.pending = []
  | _ => True

def Chained (v : T) : List (T × T) → Prop
  | [] => True
  | (old, new) :: l => old = v ∧ Chained new l

def mirror (v : T) (l : List (T × T)) : T := (l.getLast?.map Prod.snd).getD v

@[simp] theorem mirror_append (v : T) (l : List (T × T)) (old new : T) :
    mirror v (l ++ [(old, new)]) = new := by
  simp [mirror]

@[simp] theorem mirror_cons (v : T) (old new : T) (l : List (T × T)) :
    mirror v ((old, new) :: l) = mirror new l := by
  cases l with
  | nil => rfl
  | cons a l => simp [mirror, List.getLast?_cons]

theorem chained_append (v : T) (l : List (T × T)) (old new : T) :
    Chained v (l ++ [(old, new)]) ↔ Chained v l ∧ old = mirror v l := by
  induction l generalizing v with
  | nil => simp [Chained, mirror]
  | cons a l ih =>
    obtain ⟨o, n⟩ := a
    rw [List.cons_append, Chained, Chained, ih, mirror_cons, and_assoc]

theorem Chained.of_prefix {v₀ : T} {l l' : List (T × T)} (h : Chained v₀ l') (hpre : l <+: l') :
    Chained v₀ l := by
  induction l generalizing v₀ l' with
  | nil => trivial
  | cons a l ih =>
    obtain ⟨t, rfl⟩ := hpre
    obtain ⟨old, new⟩ := a
    exact ⟨h.1, ih h.2 ⟨t, rfl⟩⟩

/-- At most one value is told and not stored, and the mirror has it. -/
inductive Agrees (mirrored val : T) : List T → Prop where
  | stored (same : mirrored = val) : Agrees mirrored val []
  | told (differs : mirrored ≠ val) : Agrees mirrored val [mirrored]

theorem Agrees.perm {mirrored val : T} {l l' : List T} (h : Agrees mirrored val l)
    (hperm : l'.Perm l) : Agrees mirrored val l' := by
  cases h with
  | stored same =>
    obtain rfl := hperm.eq_nil
    exact .stored same
  | told differs =>
    obtain rfl := List.perm_singleton.mp hperm
    exact .told differs

variable {s s' : ConfigVar T} {v₀ v : T} {i : Nat} {act : Act T}

theorem pending_set {c : Call T} (h : s.calls[i]? = some c) (c' : Call T) :
    ((s.calls.set i c').filterMap Call.pending ++ c.pending.toList).Perm
      (s.pending ++ c'.pending.toList) :=
  Slots.filterMap_set_perm h c' Call.pending

structure Consistent (v₀ : T) (s : ConfigVar T) : Prop where
  chained : Chained v₀ s.notified
  agrees : Agrees (mirror v₀ s.notified) s.val s.pending

theorem consistent_init (v₀ : T) : Consistent v₀ (init v₀) := ⟨trivial, .stored rfl⟩

theorem consistent_store (h : Consistent v₀ s) (hcall : s.calls[i]? = some (.told v)) :
    Consistent v₀ (s.store i v) := by
  have hpending := pending_set hcall .returned
  simp only [Call.pending, Option.toList_none, List.append_nil, Option.toList_some] at hpending
  have hagrees := h.agrees.perm hpending
  generalize hl : (s.calls.set i .returned).filterMap Call.pending ++ [v] = l at hagrees
  cases hagrees with
  | stored same => simp at hl
  | told differs =>
    obtain ⟨hnil, hv⟩ :=
      List.append_inj' (show _ ++ [v] = [] ++ [mirror v₀ s.notified] from hl) rfl
    obtain rfl := List.singleton_inj.mp hv
    refine ⟨h.chained, ?_⟩
    simp only [store, pending, hnil]
    exact .stored rfl

section Steps

variable [DecidableEq T]

theorem consistent_tell (h : Consistent v₀ s) (hcall : s.calls[i]? = some (.entered v))
    (halone : v ≠ s.val → s.pending = []) : Consistent v₀ (s.tell i v) := by
  by_cases hv : v = s.val
  · rw [tell, if_pos hv]
    have hpending := pending_set hcall .returned
    simp only [Call.pending, Option.toList_none, List.append_nil] at hpending
    exact ⟨h.chained, h.agrees.perm hpending⟩
  · rw [tell, if_neg hv]
    have hnil := halone hv
    have hpending := pending_set hcall (.told v)
    simp only [Call.pending, Option.toList_none, List.append_nil, Option.toList_some, hnil,
      List.nil_append] at hpending
    have hagrees := h.agrees
    rw [hnil] at hagrees
    cases hagrees with
    | stored same =>
      refine ⟨(chained_append _ _ _ _).mpr ⟨h.chained, same.symm⟩, ?_⟩
      refine Agrees.perm ?_ hpending
      simp only [mirror_append]
      exact .told hv

theorem consistent_step (h : Consistent v₀ s) (halone : s.Alone act) (hstep : s.Step act s') :
    Consistent v₀ s' := by
  cases act with
  | call v =>
    obtain rfl := Option.some.inj hstep
    refine ⟨h.chained, ?_⟩
    have hpending : pending { s with calls := s.calls ++ [.entered v] } = s.pending := by
      simp only [pending, List.filterMap_append]
      exact List.append_nil _
    rw [hpending]
    exact h.agrees
  | tell i =>
    simp only [Step, exec] at hstep
    split at hstep
    · rename_i v hcall
      obtain rfl := Option.some.inj hstep
      exact consistent_tell h hcall (halone v hcall)
    · cases hstep
  | store i =>
    simp only [Step, exec] at hstep
    split at hstep
    · rename_i v hcall
      obtain rfl := Option.some.inj hstep
      exact consistent_store h hcall
    · cases hstep

theorem notified_step (hstep : s.Step act s') : s.notified <+: s'.notified := by
  cases act with
  | call v =>
    obtain rfl := Option.some.inj hstep
    exact List.prefix_rfl
  | tell i =>
    simp only [Step, exec] at hstep
    split at hstep
    · obtain rfl := Option.some.inj hstep
      simp only [tell]
      split
      · exact List.prefix_rfl
      · exact List.prefix_append _ _
    · cases hstep
  | store i =>
    simp only [Step, exec] at hstep
    split at hstep
    · obtain rfl := Option.some.inj hstep
      exact List.prefix_rfl
    · cases hstep

/-- A call that tells the listeners between the two locks of another one breaks the
chain. -/
theorem alone_of_chained (h : Consistent v₀ s) (hstep : s.Step act s')
    (hchained : Chained v₀ s'.notified) : s.Alone act := by
  cases act with
  | call v => trivial
  | store i => trivial
  | tell i =>
    intro v hcall hv
    simp only [Step, exec, hcall, tell, if_neg hv, Option.some.injEq] at hstep
    subst hstep
    have hmirror := ((chained_append _ _ _ _).mp hchained).2
    have hagrees := h.agrees
    generalize s.pending = l at hagrees
    cases hagrees with
    | stored same => rfl
    | told differs => exact absurd hmirror.symm differs

theorem run_consistent {acts : List (Act T)}
    (run : Run (fun s act s' => s.Alone act ∧ s.Step act s') (init v₀) acts s) :
    Consistent v₀ s :=
  run.invariant (consistent_init v₀) fun _ _ _ h hstep => consistent_step h hstep.1 hstep.2

/-- What the listeners are told is a chain that ends in the stored value once all
calls have returned, exactly in the runs in which no call tells them while another
one is between its two locks. -/
theorem run_told_chain (v₀ : T) {acts : List (Act T)} (run : Run Step (init v₀) acts s) :
    (Chained v₀ s.notified ∧
      ((∀ c ∈ s.calls, c = .returned) → s.getValue = mirror v₀ s.notified)) ↔
    Run (fun s act s' => s.Alone act ∧ s.Step act s') (init v₀) acts s := by
  constructor
  · rintro ⟨hchained, -⟩
    induction run with
    | start => exact .start
    | snoc run hstep ih =>
      have halone := ih (hchained.of_prefix (notified_step hstep))
      exact halone.snoc ⟨alone_of_chained (run_consistent halone) hstep hchained, hstep⟩
  · intro halone
    have h := run_consistent halone
    refine ⟨h.chained, fun hreturned => ?_⟩
    have hnil : s.pending = [] := by
      rw [pending, List.filterMap_eq_nil_iff]
      intro c hc
      rw [hreturned c hc]
      rfl
    have hagrees := h.agrees
    rw [hnil] at hagrees
    cases hagrees with
    | stored same => exact same.symm

end Steps

/-- Two calls one after the other, and one that finds its value stored. -/
theorem run_told_chain_inTurn :
    ∃ s : ConfigVar Nat, Run Step (init 0)
      [.call 1, .tell 0, .store 0, .call 2, .call 2, .tell 1, .store 1, .tell 2] s ∧
      s.notified = [(0, 1), (1, 2)] ∧ s.getValue = 2 ∧ Chained 0 s.notified := by
  obtain ⟨s, run, halone, hnotified, hvalue⟩ : ∃ s : ConfigVar Nat, Run Step (init 0)
      [.call 1, .tell 0, .store 0, .call 2, .call 2, .tell 1, .store 1, .tell 2] s ∧
      Run (fun s act s' => s.Alone act ∧ s.Step act s') (init 0)
        [.call 1, .tell 0, .store 0, .call 2, .call 2, .tell 1, .store 1, .tell 2] s ∧
      s.notified = [(0, 1), (1, 2)] ∧ s.getValue = 2 :=
    ⟨_, .cons rfl (.cons rfl (.cons rfl (.cons rfl (.cons rfl (.cons rfl (.cons rfl
        (.cons rfl .start))))))),
      .cons ⟨trivial, rfl⟩ (.cons ⟨fun _ _ _ => rfl, rfl⟩ (.cons ⟨trivial, rfl⟩
        (.cons ⟨trivial, rfl⟩ (.cons ⟨trivial, rfl⟩ (.cons ⟨fun _ _ _ => rfl, rfl⟩
        (.cons ⟨trivial, rfl⟩ (.cons ⟨fun _ _ _ => rfl, rfl⟩ .start))))))), rfl, rfl⟩
  exact ⟨s, run, hnotified, hvalue, ((run_told_chain 0 run).mpr halone).1⟩

/-- Two calls that overlap: a listener is left with 2 and the variable with 1. -/
theorem overlapping_calls_disagree :
    ∃ s : ConfigVar Nat, Run Step (init 0)
      [.call 1, .call 2, .tell 0, .tell 1, .store 1, .store 0] s ∧
      s.calls = [.returned, .returned] ∧ s.notified = [(0, 1), (0, 2)] ∧ s.getValue = 1 ∧
      ¬ Chained 0 s.notified ∧ mirror 0 s.notified = 2 :=
  ⟨_, .cons rfl (.cons rfl (.cons rfl (.cons rfl (.cons rfl (.cons rfl .start))))), rfl, rfl, rfl,
    fun h => absurd h.2.1 (by decide), rfl⟩

end ConfigVar

end Sylar
