import Sylar.Http.Pool

/-! Runs of the connection pool. Every connection that was made is in one place: idle
in the list or in a call, lent or just released, about to be deleted, or deleted. All
invariants count one connection at a time, and a step moves it from one place to
another. -/
namespace Sylar.Http.HttpConnectionPool

open Lib

variable {s s' : HttpConnectionPool} {i ptr : Nat} {c c' : Call} {act : Act}

def idle (s : HttpConnectionPool) (id : Nat) : Nat :=
  s.conns.count id + (s.calls.flatMap Call.idle).count id

def out (s : HttpConnectionPool) (id : Nat) : Nat :=
  s.lent.count id + (s.calls.flatMap Call.out).count id

def doomed (s : HttpConnectionPool) (id : Nat) : Nat := (s.calls.flatMap Call.doomed).count id

def owed (s : HttpConnectionPool) : Int := (s.calls.map Call.owed).sum

/-- A connection has been released as often as it was handed out, the holder it has
now apart, and one that may be handed out again has not reached the limit. -/
structure Sound (s : HttpConnectionPool) : Prop where
  places : ∀ id, s.idle id + s.out id + s.doomed id + s.deleted.count id =
    (List.range s.objects.length).count id
  total : s.total = Int32.ofInt (s.objects.length - s.deleted.length + s.owed)
  handed : ∀ id, s.handed.count id = (s.connection id).request + s.out id
  bound : ∀ id, (s.connection id).request + s.out id + s.idle id ≤ s.maxRequest

theorem sound_init (maxSize maxAliveTime maxRequest : Nat) :
    Sound (init maxSize maxAliveTime maxRequest) := by
  refine ⟨fun id => by rfl, by rfl, fun id => by rfl, fun id => Nat.zero_le _⟩

theorem count_cons_eq (a : Nat) (l : List Nat) (id : Nat) :
    (a :: l).count id = [a].count id + l.count id := by
  rw [← List.count_append]
  rfl

theorem count_range_le_one (n id : Nat) : (List.range n).count id ≤ 1 :=
  List.nodup_iff_count_le_one.mp List.nodup_range id

/-- A call goes on from `c` to `c'` while the rest of the pool goes from `s` to `t`. Only
what the call has in hand and the lists outside of the calls have to be compared; a
connection that comes to be idle has to be below the limit. -/
theorem Sound.goto {t : HttpConnectionPool} (h : Sound s) (hcall : s.calls[i]? = some c)
    (hcalls : t.calls = s.calls) (hmax : t.maxRequest = s.maxRequest)
    (hplaces : ∀ id, t.conns.count id + c'.idle.count id + (t.lent.count id + c'.out.count id) +
        c'.doomed.count id + t.deleted.count id + (List.range s.objects.length).count id =
      s.conns.count id + c.idle.count id + (s.lent.count id + c.out.count id) +
        c.doomed.count id + s.deleted.count id + (List.range t.objects.length).count id)
    (htotal : t.total = s.total + Int32.ofInt (t.objects.length - s.objects.length -
      (t.deleted.length - s.deleted.length) + (c'.owed - c.owed)))
    (hhanded : ∀ id, t.handed.count id +
        ((s.connection id).request + (s.lent.count id + c.out.count id)) =
      s.handed.count id + ((t.connection id).request + (t.lent.count id + c'.out.count id)))
    (hbound : ∀ id, (t.connection id).request + (t.lent.count id + c'.out.count id) +
        (t.conns.count id + c'.idle.count id) ≤ (s.connection id).request +
        (s.lent.count id + c.out.count id) + (s.conns.count id + c.idle.count id) ∨
      (t.connection id).request < s.maxRequest) : Sound (t.goto i c') := by
  have hcall' : t.calls[i]? = some c := hcalls ▸ hcall
  have hidle : ∀ id, (t.goto i c').idle id + c.idle.count id + s.conns.count id =
      s.idle id + c'.idle.count id + t.conns.count id := by
    intro id
    have hset := Slots.count_flatMap_set hcall' c' Call.idle id
    simp only [idle, HttpConnectionPool.goto, hcalls] at hset ⊢
    omega
  have hout : ∀ id, (t.goto i c').out id + c.out.count id + s.lent.count id =
      s.out id + c'.out.count id + t.lent.count id := by
    intro id
    have hset := Slots.count_flatMap_set hcall' c' Call.out id
    simp only [out, HttpConnectionPool.goto, hcalls] at hset ⊢
    omega
  have hdoomed : ∀ id, (t.goto i c').doomed id + c.doomed.count id =
      s.doomed id + c'.doomed.count id := by
    intro id
    have hset := Slots.count_flatMap_set hcall' c' Call.doomed id
    simp only [doomed, HttpConnectionPool.goto, hcalls] at hset ⊢
    omega
  have howed : (t.goto i c').owed = s.owed - c.owed + c'.owed := by
    have hset := Slots.sum_map_set hcall' c' Call.owed
    simp only [owed, HttpConnectionPool.goto, hcalls] at hset ⊢
    omega
  have hnew : ∀ id, (t.goto i c').idle id + (t.goto i c').out id + (t.goto i c').doomed id +
      t.deleted.count id = (List.range t.objects.length).count id := by
    intro id
    have := h.places id
    have := hplaces id
    have := hidle id
    have := hout id
    have := hdoomed id
    omega
  refine ⟨hnew, ?_, fun id => ?_, fun id => ?_⟩
  · change t.total = Int32.ofInt (t.objects.length - t.deleted.length + (t.goto i c').owed)
    rw [htotal, h.total, ← Int32.ofInt_add, howed]
    congr 1
    omega
  · have := h.handed id
    have := hhanded id
    have := hout id
    change t.handed.count id = (t.connection id).request + (t.goto i c').out id
    omega
  · have hid := hidle id
    have hod := hout id
    change (t.connection id).request + (t.goto i c').out id + (t.goto i c').idle id ≤ t.maxRequest
    rcases hbound id with hless | hlimit
    · have := h.bound id
      omega
    · have := hnew id
      have := count_range_le_one t.objects.length id
      omega

theorem popIdle_count (s : HttpConnectionPool) (connected : Nat → Bool) (now : Nat)
    (conns : List Nat) (id : Nat) :
    (s.popIdle connected now conns).1.count id +
      (s.popIdle connected now conns).2.1.toList.count id +
      (s.popIdle connected now conns).2.2.count id = conns.count id := by
  induction conns with
  | nil => rfl
  | cons conn rest ih =>
    simp only [popIdle]
    split
    · generalize s.popIdle connected now rest = result at ih ⊢
      obtain ⟨invalid, taken, left⟩ := result
      simp only [List.count_cons] at ih ⊢
      omega
    · simp only [Option.toList_some, List.count_nil, List.count_cons]
      omega

theorem Sound.pop (h : Sound s) {now : Nat} (hcall : s.calls[i]? = some (.entered now))
    (connected : Nat → Bool) : Sound (s.pop i connected now) := by
  have hpop := s.popIdle_count connected now s.conns
  simp only [HttpConnectionPool.pop]
  generalize s.popIdle connected now s.conns = result at hpop ⊢
  obtain ⟨invalid, taken, rest⟩ := result
  refine h.goto hcall rfl rfl (fun id => ?_) ?_ (fun id => ?_) (fun id => .inl ?_)
  · have := hpop id
    simp only [Call.idle, Call.out, Call.doomed, List.count_nil] at *
    omega
  · simp [Call.owed]
  · rfl
  · have := hpop id
    simp only [Call.idle, Call.out, List.count_nil, connection] at *
    omega

@[simp] theorem connection_append (s : HttpConnectionPool) (id : Nat) :
    ({ s with objects := s.objects ++ [HttpConnection.fresh] } : HttpConnectionPool).connection id =
      s.connection id := by
  simp only [connection]
  rcases Nat.lt_trichotomy id s.objects.length with hid | rfl | hid
  · rw [List.getElem?_append_left hid]
  · simp
  · rw [List.getElem?_eq_none (by simpa using Nat.succ_le_of_lt hid),
      List.getElem?_eq_none (by omega)]

theorem Sound.connect (h : Sound s) (hcall : s.calls[i]? = some .connecting) (ok : Bool)
    (hmax : 1 ≤ s.maxRequest) : Sound (s.connect i ok) := by
  simp only [HttpConnectionPool.connect]
  split
  · refine h.goto hcall rfl rfl (fun id => ?_) ?_ (fun id => ?_) (fun id => ?_)
    · simp only [Call.idle, Call.out, Call.doomed, List.count_nil, List.length_append,
        List.length_singleton, List.range_succ, List.count_append]
      omega
    · simp [Call.owed]
    · rw [connection_append]
      rfl
    · rw [connection_append]
      by_cases hid : id = s.objects.length
      · -- the number is new, so the connection has not been used
        subst hid
        right
        simp only [connection, List.getElem?_eq_none (le_refl s.objects.length)]
        exact hmax
      · left
        simp [Call.idle, Call.out, Ne.symm hid]
  · refine h.goto hcall rfl rfl (fun id => rfl) ?_ (fun id => rfl) (fun id => .inl le_rfl)
    simp [Call.owed]

theorem request_modify (s : HttpConnectionPool) (hptr : ptr < s.objects.length) (id : Nat) :
    (({ s with objects := s.objects.modify ptr fun c => { c with request := c.request + 1 } } :
      HttpConnectionPool).connection id).request = (s.connection id).request + [ptr].count id := by
  simp only [connection, List.getElem?_modify]
  by_cases hid : ptr = id
  · subst hid
    rw [List.getElem?_eq_getElem hptr]
    simp
  · simp [hid]

theorem Sound.lt_of_releasing (h : Sound s) (hcall : s.calls[i]? = some (.releasing ptr)) :
    ptr < s.objects.length := by
  have hplaces := h.places ptr
  have hout := Slots.count_flatMap_set hcall .returned Call.out ptr
  simp only [Call.out, List.count_singleton_self, List.count_nil] at hout
  rw [← List.mem_range, ← List.count_pos_iff, ← hplaces, out]
  omega

theorem Sound.test (h : Sound s) (hcall : s.calls[i]? = some (.releasing ptr)) (connected : Bool)
    (now : Nat) : Sound (s.test i ptr connected now) := by
  have hrequest := s.request_modify (h.lt_of_releasing hcall)
  simp only [HttpConnectionPool.test]
  split
  · refine h.goto hcall rfl rfl (fun id => ?_) ?_ (fun id => ?_) (fun id => .inl ?_)
    · simp only [Call.idle, Call.out, Call.doomed, List.count_nil, List.length_modify]
      omega
    · simp [Call.owed]
    · rw [hrequest]
      simp only [Call.out, List.count_nil]
      omega
    · rw [hrequest]
      simp only [Call.out, Call.idle, List.count_nil]
      omega
  · rename_i htest
    simp only [Bool.or_eq_true, decide_eq_true_eq, not_or] at htest
    refine h.goto hcall rfl rfl (fun id => ?_) ?_ (fun id => ?_) (fun id => ?_)
    · simp only [Call.idle, Call.out, Call.doomed, List.count_nil, List.length_modify]
      omega
    · simp [Call.owed]
    · rw [hrequest]
      simp only [Call.out, List.count_nil]
      omega
    · by_cases hid : id = ptr
      · subst hid
        exact .inr (Nat.lt_of_not_le htest.2)
      · left
        rw [hrequest]
        simp [Call.out, Call.idle, Ne.symm hid]

theorem Sound.drop (h : Sound s) (hptr : ptr ∈ s.lent) :
    Sound { s with lent := s.lent.erase ptr, calls := s.calls ++ [.releasing ptr] } := by
  have hlent : ∀ id, (s.lent.erase ptr).count id + [ptr].count id = s.lent.count id := by
    intro id
    have hperm := (List.perm_cons_erase hptr).count_eq id
    rw [hperm, count_cons_eq ptr (s.lent.erase ptr), Nat.add_comm]
  refine ⟨fun id => ?_, ?_, fun id => ?_, fun id => ?_⟩
  · have := h.places id
    have := hlent id
    simp only [idle, out, doomed, List.flatMap_append, List.flatMap_singleton, Call.idle, Call.out,
      Call.doomed, List.count_append, List.count_nil] at *
    omega
  · simp only [owed, List.map_append, List.map_singleton, Call.owed, List.sum_append,
      List.sum_singleton, add_zero]
    exact h.total
  · have := h.handed id
    have := hlent id
    simp only [out, connection, List.flatMap_append, List.flatMap_singleton, Call.out,
      List.count_append] at *
    omega
  · have := h.bound id
    have := hlent id
    simp only [idle, out, connection, List.flatMap_append, List.flatMap_singleton, Call.idle,
      Call.out, List.count_append, List.count_nil] at *
    omega

theorem Sound.getConnection (h : Sound s) (now : Nat) :
    Sound { s with calls := s.calls ++ [.entered now] } := by
  refine ⟨fun id => ?_, ?_, fun id => ?_, fun id => ?_⟩
  · have hplaces := h.places id
    simpa [idle, out, doomed, Call.idle, Call.out, Call.doomed] using hplaces
  · have htotal := h.total
    simpa [owed, Call.owed] using htotal
  · have hhanded := h.handed id
    simpa [out, Call.out, connection] using hhanded
  · have hbound := h.bound id
    simpa [idle, out, Call.idle, Call.out, connection] using hbound

inductive Effect (s : HttpConnectionPool) : Act → HttpConnectionPool → Prop
  | getConnection (now : Nat) :
    Effect s (.getConnection now) { s with calls := s.calls ++ [.entered now] }
  | pop {i now : Nat} (connected : Nat → Bool) (call : s.calls[i]? = some (.entered now)) :
    Effect s (.pop i connected) (s.pop i connected now)
  | remove {i conn size : Nat} {taken : Option Nat} {invalid : List Nat}
    (call : s.calls[i]? = some (.removing taken (conn :: invalid) size)) :
    Effect s (.delete i)
      ({ s with deleted := s.deleted ++ [conn] }.goto i (.removing taken invalid size))
  | delete {i ptr : Nat} (call : s.calls[i]? = some (.deleting ptr)) :
    Effect s (.delete i) ({ s with deleted := s.deleted ++ [ptr] }.goto i .decrementing)
  | found {i ptr size : Nat} (call : s.calls[i]? = some (.removing (some ptr) [] size)) :
    Effect s (.count i) ({ s with total := s.total - Int32.ofNat size }.goto i (.handing ptr))
  | missed {i size : Nat} (call : s.calls[i]? = some (.removing none [] size)) :
    Effect s (.count i) ({ s with total := s.total - Int32.ofNat size }.goto i .connecting)
  | increment {i ptr : Nat} (call : s.calls[i]? = some (.created ptr)) :
    Effect s (.count i) ({ s with total := s.total + 1 }.goto i (.handing ptr))
  | decrement {i : Nat} (call : s.calls[i]? = some .decrementing) :
    Effect s (.count i) ({ s with total := s.total - 1 }.goto i .returned)
  | connect {i : Nat} (ok : Bool) (call : s.calls[i]? = some .connecting) :
    Effect s (.connect i ok) (s.connect i ok)
  | hand {i ptr : Nat} (call : s.calls[i]? = some (.handing ptr)) :
    Effect s (.hand i)
      ({ s with lent := s.lent ++ [ptr], handed := s.handed ++ [ptr] }.goto i .returned)
  | drop {ptr : Nat} (mem : ptr ∈ s.lent) :
    Effect s (.drop ptr)
      { s with lent := s.lent.erase ptr, calls := s.calls ++ [.releasing ptr] }
  | test {i ptr : Nat} (connected : Bool) (now : Nat)
    (call : s.calls[i]? = some (.releasing ptr)) :
    Effect s (.test i connected now) (s.test i ptr connected now)
  | push {i ptr : Nat} (call : s.calls[i]? = some (.pushing ptr)) :
    Effect s (.push i) ({ s with conns := s.conns ++ [ptr] }.goto i .returned)

theorem step_effect (hstep : s.Step act s') : Effect s act s' := by
  cases act with
  | getConnection now =>
    obtain rfl := Option.some.inj hstep
    exact .getConnection now
  | drop ptr =>
    obtain ⟨hptr, hstep⟩ := Option.ite_none_right_eq_some.mp hstep
    obtain rfl := Option.some.inj hstep
    exact .drop hptr
  | _ =>
    -- every other step belongs to a call, and is taken only where the call stands
    simp only [Step, exec] at hstep
    split at hstep
    all_goals cases hstep
    all_goals constructor
    all_goals assumption

theorem Sound.step (h : Sound s) (hmax : 1 ≤ s.maxRequest) (hstep : s.Step act s') : Sound s' := by
  cases step_effect hstep with
  | getConnection now => exact h.getConnection now
  | pop connected call => exact h.pop call connected
  | @remove i conn size taken invalid call =>
    refine h.goto call rfl rfl (fun id => ?_) ?_ (fun id => rfl) (fun id => .inl le_rfl)
    · simp only [Call.idle, Call.out, Call.doomed, List.count_append, List.count_nil]
      rw [count_cons_eq conn invalid]
      omega
    · simp [Call.owed]
  | delete call =>
    refine h.goto call rfl rfl (fun id => ?_) ?_ (fun id => rfl) (fun id => .inl le_rfl)
    · simp only [Call.idle, Call.out, Call.doomed, List.count_append, List.count_nil]
      omega
    · simp [Call.owed]
  | found call =>
    refine h.goto call rfl rfl (fun id => rfl) ?_ (fun id => rfl) (fun id => .inl le_rfl)
    simp [Call.owed, Int32.sub_eq_add_neg, Int32.ofInt_eq_ofNat]
  | missed call =>
    refine h.goto call rfl rfl (fun id => rfl) ?_ (fun id => rfl) (fun id => .inl le_rfl)
    simp [Call.owed, Int32.sub_eq_add_neg, Int32.ofInt_eq_ofNat]
  | increment call =>
    refine h.goto call rfl rfl (fun id => rfl) ?_ (fun id => rfl) (fun id => .inl le_rfl)
    simp [Call.owed]
  | decrement call =>
    refine h.goto call rfl rfl (fun id => rfl) ?_ (fun id => rfl) (fun id => .inl le_rfl)
    simp [Call.owed, Int32.sub_eq_add_neg]
  | connect ok call => exact h.connect call ok hmax
  | hand call =>
    refine h.goto call rfl rfl (fun id => ?_) ?_ (fun id => ?_) (fun id => .inl ?_)
    · simp only [Call.idle, Call.out, Call.doomed, List.count_append, List.count_nil]
      omega
    · simp [Call.owed]
    · simp only [Call.out, List.count_append, List.count_nil, connection]
      omega
    · simp only [Call.idle, Call.out, List.count_append, List.count_nil, connection]
      omega
  | drop mem => exact h.drop mem
  | test connected now call => exact h.test call connected now
  | push call =>
    refine h.goto call rfl rfl (fun id => ?_) ?_ (fun id => rfl) (fun id => .inl ?_)
    · simp only [Call.idle, Call.out, Call.doomed, List.count_append, List.count_nil]
      omega
    · simp [Call.owed]
    · simp only [Call.idle, Call.out, List.count_append, List.count_nil, connection]
      omega

theorem limits_step (hstep : s.Step act s') :
    s'.maxRequest = s.maxRequest ∧ s'.maxSize = s.maxSize := by
  cases step_effect hstep with
  | connect ok call =>
    simp only [connect]
    split <;> exact ⟨rfl, rfl⟩
  | test connected now call =>
    simp only [test]
    split <;> exact ⟨rfl, rfl⟩
  | _ => exact ⟨rfl, rfl⟩

theorem run_sound {maxSize maxAliveTime maxRequest : Nat} (hmax : 1 ≤ maxRequest)
    {acts : List Act} (run : Run Step (init maxSize maxAliveTime maxRequest) acts s) :
    Sound s ∧ s.maxRequest = maxRequest := by
  refine run.invariant (I := fun s => Sound s ∧ s.maxRequest = maxRequest)
    ⟨sound_init _ _ _, rfl⟩ ?_
  rintro s act s' ⟨h, hlimit⟩ hstep
  exact ⟨h.step (hlimit ▸ hmax) hstep, (limits_step hstep).1.trans hlimit⟩

theorem count_inCalls (s : HttpConnectionPool) (id : Nat) :
    s.conns.count id + s.lent.count id + s.inCalls.count id = s.idle id + s.out id + s.doomed id := by
  have hcalls : s.inCalls.count id = (s.calls.flatMap Call.idle).count id +
      (s.calls.flatMap Call.out).count id + (s.calls.flatMap Call.doomed).count id := by
    rw [inCalls]
    induction s.calls with
    | nil => rfl
    | cons c calls ih =>
      simp only [List.flatMap_cons, List.count_append, Call.owns] at ih ⊢
      omega
  simp only [idle, out, doomed]
  omega

theorem Sound.count_deleted (h : Sound s) (id : Nat) :
    s.conns.count id + s.lent.count id + s.inCalls.count id + s.deleted.count id =
      (List.range s.objects.length).count id := by
  rw [count_inCalls]
  exact h.places id

theorem Sound.length_live (h : Sound s) :
    (s.live.length : Int) = s.objects.length - s.deleted.length := by
  have hsplit := List.length_eq_length_filter_add (l := List.range s.objects.length)
    fun id => decide (id ∉ s.deleted)
  have hle : ∀ id, s.deleted.count id ≤ (List.range s.objects.length).count id := by
    intro id
    have := h.count_deleted id
    omega
  have hperm : ((List.range s.objects.length).filter fun id => !decide (id ∉ s.deleted)).Perm
      s.deleted := by
    rw [List.perm_ext_iff_of_nodup (List.nodup_range.filter _)
      (List.nodup_iff_count_le_one.mpr fun id => (hle id).trans (count_range_le_one _ id))]
    intro id
    simp only [List.mem_filter, decide_not, Bool.not_not, decide_eq_true_eq, and_iff_right_iff_imp]
    intro hid
    exact List.count_pos_iff.mp ((List.count_pos_iff.mpr hid).trans_le (hle id))
  rw [List.length_range, hperm.length_eq] at hsplit
  rw [live]
  omega

theorem Sound.idle_calls (h : Sound s) (hreturned : ∀ c ∈ s.calls, c = .returned) :
    s.inCalls = [] ∧ s.total = Int32.ofNat s.live.length := by
  have hnil : s.inCalls = [] := by
    rw [inCalls, List.flatMap_eq_nil_iff]
    intro c hc
    rw [hreturned c hc]
    rfl
  have howed : s.owed = 0 := by
    rw [owed]
    refine List.sum_eq_zero fun x hx => ?_
    obtain ⟨c, hc, rfl⟩ := List.mem_map.mp hx
    rw [hreturned c hc]
    rfl
  refine ⟨hnil, ?_⟩
  rw [h.total, howed, add_zero, ← h.length_live, Int32.ofInt_eq_ofNat]

/-- Every connection that was not deleted is idle in the list, lent, or in the hands of
one call, and in one of them only once; a deleted one is nowhere. Between calls
`m_total` counts them, and none is handed out more often than the limit says. -/
theorem run_connections_accounted {maxSize maxAliveTime maxRequest : Nat}
    (hmax : 1 ≤ maxRequest) {acts : List Act}
    (run : Run Step (init maxSize maxAliveTime maxRequest) acts s) :
    (∀ ptr, s.Live ptr → s.conns.count ptr + s.lent.count ptr + s.inCalls.count ptr = 1) ∧
      (∀ ptr, ¬ s.Live ptr → ptr ∉ s.conns ∧ ptr ∉ s.lent ∧ ptr ∉ s.inCalls) ∧
      ((∀ c ∈ s.calls, c = .returned) → s.inCalls = [] ∧
        s.total = Int32.ofNat s.live.length ∧
        (s.live.length < 2 ^ 31 → s.total.toInt = s.live.length)) ∧
      ∀ ptr, s.handed.count ptr ≤ maxRequest := by
  obtain ⟨h, hlimit⟩ := run_sound hmax run
  refine ⟨?_, ?_, ?_, ?_⟩
  · rintro ptr ⟨hptr, hdeleted⟩
    have hcount := h.count_deleted ptr
    rw [List.count_eq_zero_of_not_mem hdeleted,
      List.count_eq_one_of_mem List.nodup_range (List.mem_range.mpr hptr)] at hcount
    exact hcount
  · intro ptr hlive
    have hcount := h.count_deleted ptr
    have hle := count_range_le_one s.objects.length ptr
    have hzero : s.conns.count ptr + s.lent.count ptr + s.inCalls.count ptr = 0 := by
      by_cases hdeleted : ptr ∈ s.deleted
      · have := List.count_pos_iff.mpr hdeleted
        omega
      · have hrange : ptr ∉ List.range s.objects.length :=
          fun hmem => hlive ⟨List.mem_range.mp hmem, hdeleted⟩
        rw [List.count_eq_zero_of_not_mem hrange] at hcount
        omega
    simp only [← List.count_eq_zero]
    omega
  · intro hreturned
    obtain ⟨hnil, htotal⟩ := h.idle_calls hreturned
    refine ⟨hnil, htotal, fun hlt => ?_⟩
    rw [htotal, Int32.toInt_ofNat_of_lt hlt]
  · intro ptr
    have := h.handed ptr
    have := h.bound ptr
    omega

/-- A connection is made, put back, handed out again and deleted at the limit of two. -/
theorem run_connections_accounted_twice :
    ∃ s, Run Step (init 1 0 2)
      [.getConnection 5, .pop 0 fun _ => true, .count 0, .connect 0 true, .count 0, .hand 0, .drop 0,
        .test 1 true 5, .push 1, .getConnection 6, .pop 2 fun _ => true, .count 2, .hand 2,
        .drop 0, .test 3 true 7, .delete 3, .count 3] s ∧
      s.handed.count 0 = 2 ∧ s.deleted = [0] ∧ s.total = Int32.ofNat s.live.length := by
  have hexec : ((runAll exec (init 1 0 2)
      [.getConnection 5, .pop 0 fun _ => true, .count 0, .connect 0 true, .count 0, .hand 0, .drop 0,
        .test 1 true 5, .push 1, .getConnection 6, .pop 2 fun _ => true, .count 2, .hand 2,
        .drop 0, .test 3 true 7, .delete 3, .count 3]).map fun s =>
      decide ((∀ c ∈ s.calls, c = .returned) ∧ s.handed.count 0 = 2 ∧ s.deleted = [0])) =
      some true := by
    decide
  obtain ⟨s, hs, hfacts⟩ := Option.map_eq_some_iff.mp hexec
  obtain ⟨hreturned, hhanded, hdeleted⟩ := of_decide_eq_true hfacts
  have run : Run Step (init 1 0 2) _ s := Run.of_runAll hs
  exact ⟨s, run, hhanded, hdeleted,
    ((run_connections_accounted (by decide) run).2.2.1 hreturned).2.1⟩

/-- A connection that `ReleasePtr` keeps finds room in the list. -/
def HasRoom (s : HttpConnectionPool) : Act → Prop
  | .push _ => s.conns.length < s.maxSize
  | _ => True

instance (s : HttpConnectionPool) (act : Act) : Decidable (s.HasRoom act) :=
  match act with
  | .push _ => inferInstanceAs (Decidable (s.conns.length < s.maxSize))
  | .getConnection _ | .pop _ _ | .delete _ | .count _ | .connect _ _ | .hand _ | .drop _
  | .test _ _ _ => .isTrue trivial

theorem popIdle_length (s : HttpConnectionPool) (connected : Nat → Bool) (now : Nat)
    (conns : List Nat) : (s.popIdle connected now conns).2.2.length ≤ conns.length := by
  induction conns with
  | nil => exact Nat.le_refl _
  | cons conn rest ih =>
    simp only [popIdle]
    split
    · exact Nat.le_succ_of_le ih
    · exact Nat.le_succ _

theorem conns_step (hstep : s.Step act s') :
    s'.conns.length ≤ s.conns.length ∨
      (∃ i, act = .push i) ∧ s'.conns.length = s.conns.length + 1 := by
  cases step_effect hstep with
  | push call => exact .inr ⟨⟨_, rfl⟩, List.length_append⟩
  | pop connected call => exact .inl (s.popIdle_length connected _ s.conns)
  | connect ok call =>
    simp only [connect]
    split <;> exact .inl le_rfl
  | test connected now call =>
    simp only [test]
    split <;> exact .inl le_rfl
  | _ => exact .inl le_rfl

theorem run_maxSize {maxSize maxAliveTime maxRequest : Nat} {acts : List Act}
    (run : Run Step (init maxSize maxAliveTime maxRequest) acts s) : s.maxSize = maxSize :=
  run.invariant (I := fun s => s.maxSize = maxSize) rfl
    fun _ _ _ h hstep => (limits_step hstep).2.trans h

/-- The list stays within the maximum size exactly in the runs in which a connection
that `ReleasePtr` keeps finds room. -/
theorem run_idle_bounded {maxSize maxAliveTime maxRequest : Nat} {acts : List Act}
    (run : Run Step (init maxSize maxAliveTime maxRequest) acts s) :
    (∀ upto s₁, upto <+: acts → Run Step (init maxSize maxAliveTime maxRequest) upto s₁ →
      s₁.conns.length ≤ maxSize) ↔
    Run (fun s act s' => s.HasRoom act ∧ s.Step act s') (init maxSize maxAliveTime maxRequest)
      acts s := by
  constructor
  · intro hbounded
    refine run.guarded fun upto act t t' hupto run hstep => ?_
    have hlast := hbounded _ t' hupto (run.snoc hstep)
    cases step_effect hstep with
    | push call =>
      rw [HasRoom, run_maxSize run]
      simp only [goto, List.length_append, List.length_singleton] at hlast
      exact hlast
    | _ => trivial
  · rintro hroom upto s₁ ⟨after, rfl⟩ run₁
    have det : ∀ (s : HttpConnectionPool) act t t', s.Step act t → s.Step act t' → t = t' :=
      fun s act t t' h h' => Option.some.inj (h.symm.trans h')
    obtain ⟨hroom₁, -⟩ := hroom.guarded_upto det run₁
    have hinv : s₁.conns.length ≤ maxSize ∧ s₁.maxSize = maxSize := by
      refine hroom₁.invariant (I := fun s => s.conns.length ≤ maxSize ∧ s.maxSize = maxSize)
        ⟨Nat.zero_le _, rfl⟩ ?_
      rintro s act s' ⟨hle, hsize⟩ ⟨hroom, hstep⟩
      refine ⟨?_, (limits_step hstep).2.trans hsize⟩
      rcases conns_step hstep with hless | ⟨⟨i, rfl⟩, hmore⟩
      · exact hless.trans hle
      · rw [hmore, ← hsize]
        exact hroom
    exact hinv.1

/-- One connection, put back into a pool of one. -/
theorem run_idle_bounded_one :
    ∃ s, Run Step (init 1 0 2)
      [.getConnection 5, .pop 0 fun _ => true, .count 0, .connect 0 true, .count 0, .hand 0, .drop 0,
        .test 1 true 5, .push 1] s ∧
      s.conns = [0] ∧ s.conns.length ≤ 1 := by
  have hexec : ((runAll (fun s act => if HasRoom s act then exec s act else none) (init 1 0 2)
      [.getConnection 5, .pop 0 fun _ => true, .count 0, .connect 0 true, .count 0, .hand 0, .drop 0,
        .test 1 true 5, .push 1]).map conns) = some [0] := by
    decide
  obtain ⟨s, hs, hconns⟩ := Option.map_eq_some_iff.mp hexec
  have hroom := Run.of_runAll_guarded hs
  have run : Run Step (init 1 0 2) _ s := hroom.unguarded
  exact ⟨s, run, hconns, (run_idle_bounded run).mpr hroom _ s List.prefix_rfl run⟩

/-- Two connections are lent from a pool of one; both are put back. -/
theorem two_released_exceed_one :
    ∃ s, Run Step (init 1 0 2)
      [.getConnection 5, .pop 0 fun _ => true, .count 0, .connect 0 true, .count 0, .hand 0,
        .getConnection 5, .pop 1 fun _ => true, .count 1, .connect 1 true, .count 1, .hand 1,
        .drop 0, .test 2 true 5, .push 2, .drop 1, .test 3 true 5, .push 3] s ∧
      s.maxSize = 1 ∧ s.conns = [0, 1] := by
  have hexec : ((runAll exec (init 1 0 2)
      [.getConnection 5, .pop 0 fun _ => true, .count 0, .connect 0 true, .count 0, .hand 0,
        .getConnection 5, .pop 1 fun _ => true, .count 1, .connect 1 true, .count 1, .hand 1,
        .drop 0, .test 2 true 5, .push 2, .drop 1, .test 3 true 5, .push 3]).map
      fun s => (s.maxSize, s.conns)) = some (1, [0, 1]) := by
    decide
  obtain ⟨s, hs, hfacts⟩ := Option.map_eq_some_iff.mp hexec
  obtain ⟨hsize, hconns⟩ := Prod.mk.inj hfacts
  exact ⟨s, Run.of_runAll hs, hsize, hconns⟩

end Sylar.Http.HttpConnectionPool
