import Sylar.IOManager.Registered

/-! The vector `m_fdContexts` under calls from several threads. It holds pointers
to contexts, which live on when the vector loses them. A call looks its pointer up
under the read lock, `addEvent` grows the vector under the write lock if it has to,
and then the call works on the context under the context's own lock. `idle()`
works on the pointers that epoll gives back. -/
namespace Sylar.IOManager

open Lib

variable {Cb : Type}

def Op.fd : Op Cb → Nat
  | .addEvent fd _ _ _ => fd
  | .delEvent fd _ => fd
  | .cancelEvent fd _ => fd
  | .cancelAll fd => fd
  | .dispatch fd _ => fd

def Op.on (p : Nat) : Op Cb → Op Cb
  | .addEvent _ e cb caller => .addEvent p e cb caller
  | .delEvent _ e => .delEvent p e
  | .cancelEvent _ e => .cancelEvent p e
  | .cancelAll _ => .cancelAll p
  | .dispatch _ ev => .dispatch p ev

/-- Where a call stands: before its read lock, before the write lock of `addEvent`,
before the lock of the context, or returned. -/
inductive Call (Cb : Type) where
  | entered (op : Op Cb)
  | growing (op : Op Cb)
  | holding (op : Op Cb) (p : Nat)
  | returned (out : Out)

def Call.out : Call Cb → Option Out
  | .returned out => some out
  | _ => none

/-- `heap` has all contexts that were made, each at its pointer. -/
structure Table (Cb : Type) where
  fdContexts : List Nat
  heap : IOManager Cb
  calls : List (Call Cb)

namespace Table

/-- `ContextResize(size)`: the vector is cut or filled up to `size`, and the new
places get pointers to new contexts. -/
def contextResize (size : Nat) (s : Table Cb) : Table Cb :=
  let more := size - s.fdContexts.length
  { s with
    fdContexts := s.fdContexts.take size ++ List.range' s.heap.contexts.length more
    heap := { s.heap with contexts := s.heap.contexts ++
      (List.range' s.fdContexts.length more).map FdContext.fresh } }

def init : Table Cb :=
  contextResize 32
    { fdContexts := []
      heap :=
        { contexts := [], pendingEventCount := 0, added := 0, scheduled := [], dropped := [] }
      calls := [] }

/-- `m_fdContexts[fd]`, if the vector is that long. -/
def find (s : Table Cb) (fd : Nat) : Option Nat := s.fdContexts[fd]?

def look (i : Nat) (op : Op Cb) (s : Table Cb) : Table Cb :=
  match s.find op.fd, op with
  | some p, op => { s with calls := s.calls.set i (.holding op p) }
  | none, .addEvent fd e cb caller =>
    { s with calls := s.calls.set i (.growing (.addEvent fd e cb caller)) }
  | none, _ => { s with calls := s.calls.set i (.returned (.flag false)) }

/-- The part of `addEvent` under the write lock, which does not look again. -/
def grow (i : Nat) (op : Op Cb) (s : Table Cb) : Option (Table Cb) := do
  let s := s.contextResize (op.fd * 3 / 2)
  let p ← s.find op.fd
  return { s with calls := s.calls.set i (.holding op p) }

/-- The part of a call under the lock of the context. The descriptor for `epoll_ctl`
is the caller's. -/
def apply (i : Nat) (op : Op Cb) (p : Nat) (ctl : EpollCtl) (s : Table Cb) : Option (Table Cb) :=
  match (op.on p).exec s.heap (fun o _ => ctl o op.fd) with
  | .ok (out, heap) => some { s with heap, calls := s.calls.set i (.returned out) }
  | .error _ => none

inductive Act (Cb : Type) where
  | call (op : Op Cb)
  | look (i : Nat)
  | grow (i : Nat)
  | apply (i : Nat) (ctl : EpollCtl)
  | dispatch (p : Nat) (ev : Reported) (ctl : EpollCtl)

def exec (s : Table Cb) : Act Cb → Option (Table Cb)
  | .call (.dispatch _ _) => none
  | .call op => some { s with calls := s.calls ++ [.entered op] }
  | .look i =>
    match s.calls[i]? with
    | some (.entered op) => some (s.look i op)
    | _ => none
  | .grow i =>
    match s.calls[i]? with
    | some (.growing op) => s.grow i op
    | _ => none
  | .apply i ctl =>
    match s.calls[i]? with
    | some (.holding op p) => s.apply i op p ctl
    | _ => none
  | .dispatch p ev ctl =>
    match s.heap.dispatch p ev ctl with
    | .ok heap => some { s with heap }
    | .error _ => none

def Step (s : Table Cb) (act : Act Cb) (s' : Table Cb) : Prop := s.exec act = some s'

/-- A call that resizes the vector does not find it longer than it wants it. -/
def Roomy (s : Table Cb) : Act Cb → Prop
  | .grow i => ∀ op, s.calls[i]? = some (.growing op) → s.fdContexts.length ≤ op.fd * 3 / 2
  | _ => True

instance (s : Table Cb) (act : Act Cb) : Decidable (s.Roomy act) :=
  match act with
  | .grow i =>
    match h : s.calls[i]? with
    | some (.growing op) =>
      decidable_of_iff (s.fdContexts.length ≤ op.fd * 3 / 2) (by simp [Roomy, h])
    | some (.entered _) | some (.holding _ _) | some (.returned _) | none =>
      .isTrue (by simp [Roomy, h])
  | .call _ | .look _ | .apply _ _ | .dispatch _ _ _ => .isTrue trivial

/-- A descriptor with a registered event is found by the calls that take it away. -/
def Reachable (s : Table Cb) : Prop :=
  ∀ p c, s.heap.contexts[p]? = some c → c.events ≠ .none → s.find c.fd = some p

end Table

section Heap

variable {s s' : IOManager Cb} {c c' : FdContext Cb} {p : Nat} {e : Event} {ctl : EpollCtl}

def fds (s : IOManager Cb) : List Nat := s.contexts.map FdContext.fd

theorem fds_set (hc : s.contexts[p]? = some c) (hcontexts : s'.contexts = s.contexts.set p c')
    (hfd : c'.fd = c.fd) : s'.fds = s.fds := by
  have hget : (s.contexts.map FdContext.fd)[p]? = some c.fd := by
    rw [List.getElem?_map, hc]
    rfl
  obtain ⟨hp, hval⟩ := List.getElem?_eq_some_iff.mp hget
  rw [fds, fds, hcontexts, List.map_set, hfd, ← hval]
  exact List.set_getElem_self hp

@[simp] theorem FdContext.fd_setcontext (c : FdContext Cb) (e : Event) (x : EventContext Cb) :
    (c.setcontext e x).fd = c.fd := by
  cases e <;> rfl

theorem FdContext.triggerEvent_fd {task : Option (Scheduled Cb)}
    (h : c.triggerEvent e = .ok (task, c')) : c'.fd = c.fd := by
  simp only [triggerEvent] at h
  split at h
  · cases h
  · split at h
    · cases h
    all_goals
      cases h
      exact fd_setcontext _ e _

theorem trigger_fds (h : s.trigger p e = .ok s') : s'.fds = s.fds := by
  simp only [trigger, bind_eq_ok] at h
  obtain ⟨c, hderef, ⟨task, c'⟩, htrigger, hs'⟩ := h
  obtain rfl := Except.ok.inj hs'
  exact fds_set (get_of_deref hderef) rfl (FdContext.triggerEvent_fd htrigger)

theorem triggerIf_fds {mask : Events} (h : s.triggerIf p mask e = .ok s') : s'.fds = s.fds := by
  simp only [triggerIf] at h
  split at h
  · exact trigger_fds h
  · rw [Except.ok.inj h]

theorem addEvent_fds {cb : Option Cb} {caller : Caller} {r : Int} (hp : p < s.contexts.length)
    (h : s.addEvent p e cb caller ctl = .ok (r, s')) : s'.fds = s.fds := by
  have hreserve : s.reserve p = s := if_pos hp
  rw [addEvent, hreserve] at h
  obtain ⟨c, hderef, h⟩ := bind_eq_ok.mp h
  rcases ite_eq_iff.mp h with ⟨-, h⟩ | ⟨-, h⟩
  · cases h
  rcases ite_eq_iff.mp h with ⟨-, h⟩ | ⟨-, h⟩
  · cases h
    rfl
  rcases ite_eq_iff.mp h with ⟨-, h⟩ | ⟨-, h⟩
  · cases h
  rcases ite_eq_iff.mp h with ⟨-, h⟩ | ⟨-, h⟩
  · cases h
  · cases h
    exact fds_set (get_of_deref hderef) rfl (FdContext.fd_setcontext _ e _)

theorem delEvent_fds {b : Bool} (h : s.delEvent p e ctl = .ok (b, s')) : s'.fds = s.fds := by
  rcases ite_eq_iff.mp h with ⟨-, h⟩ | ⟨-, h⟩
  · cases h
    rfl
  obtain ⟨c, hderef, h⟩ := bind_eq_ok.mp h
  rcases ite_eq_iff.mp h with ⟨-, h⟩ | ⟨-, h⟩
  · cases h
    rfl
  rcases ite_eq_iff.mp h with ⟨-, h⟩ | ⟨-, h⟩
  · cases h
    rfl
  · cases h
    exact fds_set (get_of_deref hderef) rfl (FdContext.fd_setcontext _ e _)

theorem cancelEvent_fds {b : Bool} (h : s.cancelEvent p e ctl = .ok (b, s')) : s'.fds = s.fds := by
  rcases ite_eq_iff.mp h with ⟨-, h⟩ | ⟨-, h⟩
  · cases h
    rfl
  obtain ⟨c, hderef, h⟩ := bind_eq_ok.mp h
  rcases ite_eq_iff.mp h with ⟨-, h⟩ | ⟨-, h⟩
  · cases h
    rfl
  rcases ite_eq_iff.mp h with ⟨-, h⟩ | ⟨-, h⟩
  · cases h
    rfl
  · obtain ⟨s₁, htrigger, h⟩ := bind_eq_ok.mp h
    cases h
    exact trigger_fds htrigger

theorem cancelAll_fds {b : Bool} (h : s.cancelAll p ctl = .ok (b, s')) : s'.fds = s.fds := by
  rcases ite_eq_iff.mp h with ⟨-, h⟩ | ⟨-, h⟩
  · cases h
    rfl
  obtain ⟨c, hderef, h⟩ := bind_eq_ok.mp h
  rcases ite_eq_iff.mp h with ⟨-, h⟩ | ⟨-, h⟩
  · cases h
    rfl
  obtain ⟨s₁, hread, h⟩ := bind_eq_ok.mp h
  obtain ⟨c₁, hderef₁, h⟩ := bind_eq_ok.mp h
  obtain ⟨s₂, hwrite, h⟩ := bind_eq_ok.mp h
  obtain ⟨c₂, hderef₂, h⟩ := bind_eq_ok.mp h
  rcases ite_eq_iff.mp h with ⟨-, h⟩ | ⟨-, h⟩
  · cases h
  · cases h
    exact (triggerIf_fds hwrite).trans (triggerIf_fds hread)

theorem dispatch_fds {ev : Reported} (h : s.dispatch p ev ctl = .ok s') : s'.fds = s.fds := by
  obtain ⟨c, hderef, h⟩ := bind_eq_ok.mp h
  rcases ite_eq_iff.mp h with ⟨-, h⟩ | ⟨-, h⟩
  · cases h
    rfl
  rcases ite_eq_iff.mp h with ⟨-, h⟩ | ⟨-, h⟩
  · cases h
    rfl
  · obtain ⟨s₁, hread, h⟩ := bind_eq_ok.mp h
    exact (triggerIf_fds h).trans (triggerIf_fds hread)

theorem exec_fds {op : Op Cb} {out : Out} (hp : p < s.contexts.length)
    (h : (op.on p).exec s ctl = .ok (out, s')) : s'.fds = s.fds := by
  cases op with
  | addEvent fd e cb caller =>
    obtain ⟨⟨r, s₁⟩, hadd, h⟩ := bind_eq_ok.mp h
    cases h
    exact addEvent_fds hp hadd
  | delEvent fd e =>
    obtain ⟨⟨b, s₁⟩, hdel, h⟩ := bind_eq_ok.mp h
    cases h
    exact delEvent_fds hdel
  | cancelEvent fd e =>
    obtain ⟨⟨b, s₁⟩, hcancel, h⟩ := bind_eq_ok.mp h
    cases h
    exact cancelEvent_fds hcancel
  | cancelAll fd =>
    obtain ⟨⟨b, s₁⟩, hcancel, h⟩ := bind_eq_ok.mp h
    cases h
    exact cancelAll_fds hcancel
  | dispatch fd ev =>
    obtain ⟨s₁, hdispatch, h⟩ := bind_eq_ok.mp h
    cases h
    exact dispatch_fds hdispatch

end Heap

namespace Table

variable {s s' : Table Cb} {act : Act Cb} {i p : Nat} {op : Op Cb} {ctl : EpollCtl}

/-- The pointer to the context of a descriptor is the descriptor itself, as long as
the vector loses none. -/
structure Flat (s : Table Cb) : Prop where
  table : s.fdContexts = List.range s.heap.contexts.length
  heap : s.heap.fds = List.range s.heap.contexts.length
  held : ∀ op p, .holding op p ∈ s.calls → p < s.heap.contexts.length

theorem Flat.contextResize {size : Nat} (h : Flat s) (hsize : s.fdContexts.length ≤ size) :
    Flat (s.contextResize size) ∧ s.fdContexts <+: (s.contextResize size).fdContexts := by
  have hlen : s.fdContexts.length = s.heap.contexts.length := by
    rw [h.table, List.length_range]
  have hsplit : List.range size = List.range s.heap.contexts.length ++
      List.range' s.heap.contexts.length (size - s.heap.contexts.length) := by
    have happend := List.range'_append_1 (s := 0) (m := s.heap.contexts.length)
      (n := size - s.heap.contexts.length)
    rw [Nat.zero_add, Nat.add_sub_cancel' (hlen ▸ hsize)] at happend
    rw [List.range_eq_range', List.range_eq_range', happend]
  have hnew : (s.contextResize size).heap.contexts.length = size := by
    simp only [Table.contextResize, List.length_append, List.length_map, List.length_range']
    omega
  have hfresh : ∀ l : List Nat, (l.map (FdContext.fresh : Nat → FdContext Cb)).map FdContext.fd = l := by
    intro l
    rw [List.map_map]
    exact List.map_id l
  refine ⟨⟨?_, ?_, ?_⟩, ?_⟩
  · rw [hnew, hsplit]
    simp only [Table.contextResize]
    rw [List.take_of_length_le hsize, hlen, h.table]
  · rw [hnew, hsplit]
    simp only [Table.contextResize, fds, List.map_append, hfresh, hlen]
    rw [← fds, h.heap]
  · intro op p hp
    have hlt := h.held op p hp
    rw [hnew]
    omega
  · simp only [Table.contextResize]
    rw [List.take_of_length_le hsize]
    exact List.prefix_append _ _

theorem flat_init : Flat (init : Table Cb) := by
  refine (Flat.contextResize ⟨rfl, rfl, ?_⟩ (Nat.zero_le _)).1
  simp

theorem Flat.set (h : Flat s) {call : Call Cb}
    (hcall : ∀ op p, call = .holding op p → p < s.heap.contexts.length) :
    Flat { s with calls := s.calls.set i call } := by
  refine ⟨h.table, h.heap, fun op p hp => ?_⟩
  rcases List.mem_or_eq_of_mem_set hp with hp | hp
  · exact h.held op p hp
  · exact hcall op p hp.symm

theorem Flat.find (h : Flat s) {fd : Nat} (hp : s.find fd = some p) :
    p < s.heap.contexts.length := by
  rw [Table.find, h.table] at hp
  obtain ⟨hfd, rfl⟩ := List.getElem?_eq_some_iff.mp hp
  simpa using hfd

theorem Flat.look (h : Flat s) : Flat (s.look i op) ∧ (s.look i op).fdContexts = s.fdContexts := by
  simp only [Table.look]
  split
  · rename_i p _ _ hp
    refine ⟨h.set ?_, rfl⟩
    rintro _ _ ⟨⟩
    exact h.find hp
  · exact ⟨h.set (by simp), rfl⟩
  · exact ⟨h.set (by simp), rfl⟩

theorem Flat.of_fds (h : Flat s) {heap : IOManager Cb} (hfds : heap.fds = s.heap.fds) :
    Flat { s with heap } := by
  have hlen : heap.contexts.length = s.heap.contexts.length := by
    have := congrArg List.length hfds
    simpa [fds] using this
  refine ⟨?_, ?_, ?_⟩
  · rw [hlen]
    exact h.table
  · rw [hlen, hfds]
    exact h.heap
  · intro op p hp
    rw [hlen]
    exact h.held op p hp

theorem Flat.step (h : Flat s) (hroomy : s.Roomy act) (hstep : s.Step act s') :
    Flat s' ∧ s.fdContexts <+: s'.fdContexts := by
  cases act with
  | call op =>
    have hs' : s' = { s with calls := s.calls ++ [.entered op] } := by
      cases op with
      | dispatch => cases hstep
      | _ => exact (Option.some.inj hstep).symm
    subst hs'
    refine ⟨⟨h.table, h.heap, fun op' p hp => ?_⟩, List.prefix_rfl⟩
    rcases List.mem_append.mp hp with hp | hp
    · exact h.held op' p hp
    · simp at hp
  | look i =>
    simp only [Step, exec] at hstep
    split at hstep
    · obtain rfl := Option.some.inj hstep
      exact ⟨h.look.1, h.look.2 ▸ List.prefix_rfl⟩
    · cases hstep
  | grow i =>
    simp only [Step, exec] at hstep
    split at hstep
    · rename_i op hcall
      obtain ⟨hflat, hgrows⟩ := h.contextResize (hroomy op hcall)
      obtain ⟨p, hp, hstep⟩ := Option.bind_eq_some_iff.mp hstep
      obtain rfl := Option.some.inj hstep
      refine ⟨hflat.set ?_, hgrows⟩
      rintro _ _ ⟨⟩
      exact hflat.find hp
    · cases hstep
  | apply i ctl =>
    simp only [Step, exec] at hstep
    split at hstep
    · rename_i op p hcall
      have hp := h.held op p (List.mem_of_getElem? hcall)
      simp only [apply] at hstep
      split at hstep
      · rename_i out heap hexec
        obtain rfl := Option.some.inj hstep
        exact ⟨(h.of_fds (exec_fds hp hexec)).set (by simp), List.prefix_rfl⟩
      · cases hstep
    · cases hstep
  | dispatch p ev ctl =>
    simp only [Step, exec] at hstep
    split at hstep
    · rename_i heap hdispatch
      obtain rfl := Option.some.inj hstep
      exact ⟨h.of_fds (dispatch_fds hdispatch), List.prefix_rfl⟩
    · cases hstep

theorem Flat.reachable (h : Flat s) : Reachable s := by
  intro p c hc _
  have hp := (List.getElem?_eq_some_iff.mp hc).1
  have hfd : s.heap.fds[p]? = some c.fd := by
    rw [fds, List.getElem?_map, hc]
    rfl
  rw [h.heap, List.getElem?_range hp] at hfd
  rw [Table.find, h.table, ← Option.some.inj hfd]
  exact List.getElem?_range hp

/-- A call that finds the vector longer than it wants it cuts it. -/
theorem roomy_of_grows (hstep : s.Step act s') (hgrows : s.fdContexts <+: s'.fdContexts) :
    s.Roomy act := by
  cases act with
  | grow i =>
    intro op hcall
    simp only [Step, exec, hcall] at hstep
    obtain ⟨p, hp, hstep⟩ := Option.bind_eq_some_iff.mp hstep
    obtain rfl := Option.some.inj hstep
    have hle := hgrows.length_le
    simp only [contextResize, List.length_append, List.length_take, List.length_range'] at hle
    omega
  | _ => trivial

/-- The vector keeps every pointer it has had, and what is registered is reachable,
exactly in the runs in which no call finds the vector longer than it resizes it to. -/
theorem run_table_kept {acts : List (Act Cb)} (run : Run Step init acts s) :
    (∀ before upto s₁ s₂, before <+: upto → upto <+: acts →
      Run Step init before s₁ → Run Step init upto s₂ →
      s₁.fdContexts <+: s₂.fdContexts ∧ Reachable s₂) ↔
    Run (fun s act s' => s.Roomy act ∧ s.Step act s') init acts s := by
  constructor
  · intro hkept
    refine run.guarded fun upto act t t' hupto run hstep => roomy_of_grows hstep ?_
    exact (hkept upto _ t t' (List.prefix_append _ _) hupto run (run.snoc hstep)).1
  · rintro hroomy before upto s₁ s₂ ⟨middle, rfl⟩ ⟨after, rfl⟩ run₁ run₂
    -- the states on the way are those of the run itself
    have det : ∀ (s : Table Cb) act t t', s.Step act t → s.Step act t' → t = t' :=
      fun s act t t' h h' => Option.some.inj (h.symm.trans h')
    obtain ⟨hroomy₂, -⟩ := hroomy.guarded_upto det run₂
    obtain ⟨hroomy₁, hmiddle⟩ := hroomy₂.guarded_upto det run₁
    have hflat : Flat s₁ :=
      hroomy₁.invariant flat_init fun _ _ _ h hstep => (h.step hstep.1 hstep.2).1
    have hkept : Flat s₂ ∧ s₁.fdContexts <+: s₂.fdContexts := by
      refine hmiddle.invariant (I := fun s => Flat s ∧ s₁.fdContexts <+: s.fdContexts)
        ⟨hflat, List.prefix_rfl⟩ ?_
      rintro s act s' ⟨hs, hgrows⟩ ⟨hroomy, hstep⟩
      obtain ⟨hs', hgrows'⟩ := hs.step hroomy hstep
      exact ⟨hs', hgrows.trans hgrows'⟩
    exact ⟨hkept.2, hkept.1.reachable⟩

/-- One call grows the vector and registers, another one finds its pointer there. -/
theorem run_table_kept_oneGrows :
    ∃ s : Table Nat, Run Step init
      [.call (.addEvent 40 .READ (some 5) ⟨0, 7, .EXEC, rfl⟩),
        .call (.addEvent 3 .WRITE none ⟨0, 7, .EXEC, rfl⟩), .look 0, .look 1, .grow 0,
        .apply 0 fun _ _ _ => true] s ∧
      s.fdContexts.length = 60 ∧ s.heap.pendingEventCount = 1 ∧ Reachable s := by
  have hexec : (runAll (fun s act => if Roomy s act then exec s act else none) (init : Table Nat)
      [.call (.addEvent 40 .READ (some 5) ⟨0, 7, .EXEC, rfl⟩),
        .call (.addEvent 3 .WRITE none ⟨0, 7, .EXEC, rfl⟩), .look 0, .look 1, .grow 0,
        .apply 0 fun _ _ _ => true]).map
      (fun s => (s.fdContexts.length, s.heap.pendingEventCount)) = some (60, 1) := by
    decide
  obtain ⟨s, hs, hfacts⟩ := Option.map_eq_some_iff.mp hexec
  obtain ⟨hlen, hcount⟩ := Prod.mk.inj hfacts
  have hroomy := Run.of_runAll_guarded hs
  have run : Run Step init _ s := hroomy.unguarded
  exact ⟨s, run, hlen, hcount,
    ((run_table_kept run).mpr hroomy _ _ s s List.prefix_rfl List.prefix_rfl run run).2⟩

/-- Both calls find the vector too short; the one for descriptor 100 grows it and
registers, then the one for descriptor 40 cuts it, and `delEvent` finds nothing. -/
theorem smaller_resize_loses_context :
    ∃ s₁ s₂ : Table Nat, Run Step init
      [.call (.addEvent 100 .READ (some 5) ⟨0, 7, .EXEC, rfl⟩),
        .call (.addEvent 40 .READ (some 6) ⟨0, 7, .EXEC, rfl⟩), .look 0, .look 1, .grow 0,
        .apply 0 fun _ _ _ => true] s₁ ∧
      Run Step s₁ [.grow 1, .call (.delEvent 100 .READ), .look 2] s₂ ∧
      s₁.fdContexts.length = 150 ∧ s₁.find 100 = some 100 ∧
      s₂.fdContexts.length = 60 ∧ s₂.find 100 = none ∧
      (s₂.heap.contexts[100]?).map FdContext.events = some ⟨true, false⟩ ∧
      s₂.calls[2]?.bind Call.out = some (.flag false) := by
  have hexec₁ : ((runAll exec (init : Table Nat)
      [.call (.addEvent 100 .READ (some 5) ⟨0, 7, .EXEC, rfl⟩),
        .call (.addEvent 40 .READ (some 6) ⟨0, 7, .EXEC, rfl⟩), .look 0, .look 1, .grow 0,
        .apply 0 fun _ _ _ => true]).bind fun s₁ =>
        (runAll exec s₁ [.grow 1, .call (.delEvent 100 .READ), .look 2]).map fun s₂ =>
        decide (s₁.fdContexts.length = 150 ∧ s₁.find 100 = some 100 ∧
          s₂.fdContexts.length = 60 ∧ s₂.find 100 = none ∧
          (s₂.heap.contexts[100]?).map FdContext.events = some ⟨true, false⟩ ∧
          s₂.calls[2]?.bind Call.out = some (.flag false))) = some true := by
    decide +kernel
  obtain ⟨s₁, hs₁, hexec₂⟩ := Option.bind_eq_some_iff.mp hexec₁
  obtain ⟨s₂, hs₂, hfacts⟩ := Option.map_eq_some_iff.mp hexec₂
  exact ⟨s₁, s₂, Run.of_runAll hs₁, Run.of_runAll hs₂, of_decide_eq_true hfacts⟩

end Table

end Sylar.IOManager
