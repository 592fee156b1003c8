import Sylar.Lib.Run
import Sylar.Lib.Slots
import Sylar.IOManager.Basic

/-! What the operations on the event table keep: the mask of a descriptor says
which of its contexts are filled, and every registration is pending, handed to
a scheduler or dropped, in exactly one of these places. -/
namespace Sylar

namespace Events

@[simp] theorem has_set (m : Events) (e e' : Event) (b : Bool) :
    (m.set e b).has e' = if e' = e then b else m.has e' := by
  cases e <;> cases e' <;> simp [set, has]

theorem eq_none_iff (m : Events) : m = none ↔ ∀ e, m.has e = false := by
  constructor
  · rintro rfl e
    cases e <;> rfl
  · intro h
    have hr := h .READ
    have hw := h .WRITE
    cases m
    simp_all [has, none]

@[simp] theorem has_none (e : Event) : none.has e = false := by
  cases e <;> rfl

def size (m : Events) : Nat := m.READ.toNat + m.WRITE.toNat

@[simp] theorem has_inter (m k : Events) (e : Event) :
    (m.inter k).has e = (m.has e && k.has e) := by
  cases e <;> rfl

@[simp] theorem has_diff (m k : Events) (e : Event) :
    (m.diff k).has e = (m.has e && !k.has e) := by
  cases e <;> rfl

end Events

namespace IOManager

open Lib

variable {Cb : Type} {s s' : IOManager Cb} {c : FdContext Cb} {fd : Nat} {e : Event}

namespace FdContext

/-- A registered event has a scheduler and exactly one of fiber and callback;
without a registration the context is empty. -/
structure Ok (c : FdContext Cb) : Prop where
  registered : ∀ e, c.events.has e = true → (c.getcontext e).scheduler.isSome = true ∧
    (c.getcontext e).fiber.isSome = !(c.getcontext e).cb.isSome
  vacant : ∀ e, c.events.has e = false → (c.getcontext e).scheduler = none ∧
    (c.getcontext e).fiber = none ∧ (c.getcontext e).cb = none

theorem ok_fresh (fd : Nat) : Ok (fresh fd : FdContext Cb) := by
  constructor
  · intro e he
    cases e <;> simp [fresh, Events.none, Events.has] at he
  · intro e _
    cases e <;> exact ⟨rfl, rfl, rfl⟩

def pending (c : FdContext Cb) : List Nat :=
  (if c.events.READ then [c.read.serial] else []) ++
    if c.events.WRITE then [c.write.serial] else []

@[simp] theorem length_pending (c : FdContext Cb) :
    c.pending.length = c.events.size := by
  cases hr : c.events.READ <;> cases hw : c.events.WRITE <;> simp [pending, Events.size, hr, hw]

def fill (c : FdContext Cb) (e : Event) (x : EventContext Cb) : FdContext Cb :=
  { c with events := c.events.set e true }.setcontext e x

def clear (c : FdContext Cb) (e : Event) : FdContext Cb :=
  { c with events := c.events.set e false }.setcontext e (resetContext (c.getcontext e))

@[simp] theorem events_fill (c : FdContext Cb) (e : Event) (x : EventContext Cb) :
    (c.fill e x).events = c.events.set e true := by
  cases e <;> rfl

@[simp] theorem getcontext_fill (c : FdContext Cb) (e e' : Event) (x : EventContext Cb) :
    (c.fill e x).getcontext e' = if e' = e then x else c.getcontext e' := by
  cases e <;> cases e' <;> rfl

@[simp] theorem events_clear (c : FdContext Cb) (e : Event) :
    (c.clear e).events = c.events.set e false := by
  cases e <;> rfl

@[simp] theorem getcontext_clear (c : FdContext Cb) (e e' : Event) :
    (c.clear e).getcontext e' =
      if e' = e then resetContext (c.getcontext e) else c.getcontext e' := by
  cases e <;> cases e' <;> rfl

theorem pending_fill (h : c.events.has e = false) (x : EventContext Cb) :
    (c.fill e x).pending.Perm (x.serial :: c.pending) := by
  obtain ⟨read, write, fd, ⟨r, w⟩⟩ := c
  cases e with
  | READ =>
    obtain rfl : r = false := h
    cases w <;> exact List.Perm.refl _
  | WRITE =>
    obtain rfl : w = false := h
    cases r with
    | false => exact List.Perm.refl _
    | true => exact List.Perm.swap _ _ _

theorem pending_clear (h : c.events.has e = true) :
    c.pending.Perm ((c.getcontext e).serial :: (c.clear e).pending) := by
  obtain ⟨read, write, fd, ⟨r, w⟩⟩ := c
  cases e with
  | READ =>
    obtain rfl : r = true := h
    cases w <;> exact List.Perm.refl _
  | WRITE =>
    obtain rfl : w = true := h
    cases r with
    | false => exact List.Perm.refl _
    | true => exact List.Perm.swap _ _ _

theorem Ok.fill (h : c.Ok) {x : EventContext Cb} (hs : x.scheduler.isSome = true)
    (hx : x.fiber.isSome = !x.cb.isSome) : (c.fill e x).Ok := by
  constructor
  · intro e' he'
    by_cases heq : e' = e
    · simp [heq, hs, hx]
    · have hold : c.events.has e' = true := by simpa [heq] using he'
      simpa [heq] using h.registered e' hold
  · intro e' he'
    have heq : e' ≠ e := by
      rintro rfl
      simp at he'
    have hold : c.events.has e' = false := by simpa [heq] using he'
    simpa [heq] using h.vacant e' hold

theorem Ok.clear (h : c.Ok) (e : Event) : (c.clear e).Ok := by
  constructor
  · intro e' he'
    have heq : e' ≠ e := by
      rintro rfl
      simp at he'
    have hold : c.events.has e' = true := by simpa [heq] using he'
    simpa [heq] using h.registered e' hold
  · intro e' he'
    by_cases heq : e' = e
    · simp [heq, resetContext]
    · have hold : c.events.has e' = false := by simpa [heq] using he'
      simpa [heq] using h.vacant e' hold

/-- Triggering a registered event hands over its one task and empties the
context. -/
theorem Ok.triggerEvent (h : c.Ok) (he : c.events.has e = true) :
    ∃ scheduler task, (c.getcontext e).scheduler = some scheduler ∧
      c.triggerEvent e =
        .ok (some { serial := (c.getcontext e).serial, scheduler, task }, c.clear e) := by
  obtain ⟨hsched, hone⟩ := h.registered e he
  obtain ⟨scheduler, hscheduler⟩ := Option.isSome_iff_exists.mp hsched
  have hsame : ({ c with events := c.events.set e false } : FdContext Cb).getcontext e =
      c.getcontext e := by
    cases e <;> rfl
  cases hcb : (c.getcontext e).cb with
  | some cb =>
    have hfiber : (c.getcontext e).fiber = none := by simpa [hcb] using hone
    refine ⟨scheduler, .cb (some cb), hscheduler, ?_⟩
    simp only [FdContext.triggerEvent, he, hsame, hscheduler, hcb, Bool.true_eq_false, if_false]
    simp [FdContext.clear, resetContext, hfiber]
  | none =>
    obtain ⟨f, hfiber⟩ := Option.isSome_iff_exists.mp (show (c.getcontext e).fiber.isSome = true by
      simpa [hcb] using hone)
    refine ⟨scheduler, .fiber (some f), hscheduler, ?_⟩
    simp only [FdContext.triggerEvent, he, hsame, hscheduler, hcb, hfiber, Bool.true_eq_false,
      if_false]
    simp [FdContext.clear, resetContext]

end FdContext

def pending (s : IOManager Cb) : List Nat := s.contexts.flatMap FdContext.pending

structure Sound (s : IOManager Cb) : Prop where
  ok : ∀ c ∈ s.contexts, c.Ok
  count : s.pendingEventCount = s.pending.length
  serials : (s.pending ++ (s.scheduled.map Scheduled.serial ++ s.dropped)).Perm
    (List.range s.added)
  size : 32 ≤ s.contexts.length

/-- The context of a descriptor; one the table has not reached is as new. -/
def context (s : IOManager Cb) (fd : Nat) : FdContext Cb := s.contexts[fd]?.getD (.fresh fd)

theorem context_of_get (hc : s.contexts[fd]? = some c) : s.context fd = c := by
  simp [context, hc]

/-- The same registrations, records and counter, in a table that may be
longer. -/
structure Same (s s' : IOManager Cb) : Prop where
  context : ∀ fd, s'.context fd = s.context fd
  count : s'.pendingEventCount = s.pendingEventCount
  added : s'.added = s.added
  scheduled : s'.scheduled = s.scheduled
  dropped : s'.dropped = s.dropped
  grows : s.contexts.length ≤ s'.contexts.length

theorem Same.refl (s : IOManager Cb) : Same s s := ⟨fun _ => rfl, rfl, rfl, rfl, rfl, le_rfl⟩

private theorem flatMap_pending_fresh (fds : List Nat) :
    (fds.map (FdContext.fresh : Nat → FdContext Cb)).flatMap FdContext.pending = [] := by
  induction fds with
  | nil => rfl
  | cons fd fds ih => simp [FdContext.pending, FdContext.fresh, Events.none]

theorem contextResize_grow (size : Nat) (hsize : s.contexts.length ≤ size) :
    Same s (s.contextResize size) ∧ (s.contextResize size).contexts.length = size ∧
      (s.contextResize size).pending = s.pending ∧
      ∀ c ∈ (s.contextResize size).contexts, c ∈ s.contexts ∨ ∃ fd, c = .fresh fd := by
  have htake : s.contexts.take size = s.contexts := List.take_of_length_le hsize
  have hlen : (s.contextResize size).contexts.length = size := by
    simp only [contextResize, htake, List.length_append, List.length_map, List.length_range']
    omega
  refine ⟨⟨?_, rfl, rfl, rfl, rfl, by omega⟩, hlen, ?_, ?_⟩
  · intro fd
    simp only [context, contextResize, htake]
    by_cases hfd : fd < s.contexts.length
    · rw [List.getElem?_append_left hfd]
    · rw [List.getElem?_append_right (by omega), List.getElem?_map,
        List.getElem?_eq_none (show s.contexts.length ≤ fd by omega)]
      by_cases hnew : fd - s.contexts.length < size - s.contexts.length
      · rw [List.getElem?_range' hnew]
        simp only [Option.map_some, Option.getD_some, Option.getD_none]
        congr 1
        omega
      · rw [List.getElem?_eq_none (by simpa using hnew)]
        rfl
  · simp only [pending, contextResize, htake, List.flatMap_append, flatMap_pending_fresh,
      List.append_nil]
  · intro c hc
    simp only [contextResize, htake, List.mem_append, List.mem_map] at hc
    rcases hc with hc | ⟨fd, -, rfl⟩
    · exact Or.inl hc
    · exact Or.inr ⟨fd, rfl⟩

theorem Sound.reserve (h : Sound s) (fd : Nat) :
    Sound (s.reserve fd) ∧ Same s (s.reserve fd) ∧ fd < (s.reserve fd).contexts.length := by
  simp only [IOManager.reserve]
  split
  · exact ⟨h, .refl s, ‹_›⟩
  · have hsize := h.size
    obtain ⟨hsame, hlen, hpending, hmem⟩ :=
      contextResize_grow (s := s) (fd * 3 / 2) (by omega)
    refine ⟨⟨?_, ?_, ?_, ?_⟩, hsame, ?_⟩
    · intro c hc
      rcases hmem c hc with hc | ⟨fd, rfl⟩
      · exact h.ok c hc
      · exact FdContext.ok_fresh fd
    · rw [hpending]
      exact h.count
    · rw [hpending]
      exact h.serials
    · omega
    · omega

theorem sound_init : Sound (init : IOManager Cb) := by
  constructor
  · intro c hc
    simp only [init, contextResize, List.take_nil, List.nil_append, List.mem_map] at hc
    obtain ⟨fd, -, rfl⟩ := hc
    exact FdContext.ok_fresh fd
  · rfl
  · exact List.Perm.refl []
  · exact le_refl 32

theorem mem_set_ok (h : ∀ c ∈ s.contexts, c.Ok) {c' : FdContext Cb} (hc' : c'.Ok) :
    ∀ x ∈ s.contexts.set fd c', x.Ok := by
  intro x hx
  rcases List.mem_or_eq_of_mem_set hx with hx | rfl
  · exact h x hx
  · exact hc'

theorem Sound.fill (h : Sound s) (hc : s.contexts[fd]? = some c) (he : c.events.has e = false)
    {x : EventContext Cb} (hs : x.scheduler.isSome = true) (hx : x.fiber.isSome = !x.cb.isSome)
    (hserial : x.serial = s.added) :
    Sound { s.put fd (c.fill e x) with
      pendingEventCount := s.pendingEventCount + 1
      added := s.added + 1 } := by
  have hgain : (s.put fd (c.fill e x)).pending.Perm (s.added :: s.pending) :=
    Slots.flatMap_set_gain hc (hserial ▸ FdContext.pending_fill he x)
  constructor
  · exact mem_set_ok h.ok ((h.ok c (List.mem_of_getElem? hc)).fill hs hx)
  · exact (congrArg (· + 1) h.count).trans hgain.length_eq.symm
  · rw [List.range_succ]
    refine (hgain.append_right _).trans ?_
    exact (List.Perm.cons _ h.serials).trans (List.perm_append_singleton _ _).symm
  · simpa [put] using h.size

theorem Sound.clear (h : Sound s) (hc : s.contexts[fd]? = some c) (he : c.events.has e = true)
    {scheduled : List (Scheduled Cb)} {dropped : List Nat}
    (hrecord : (scheduled.map Scheduled.serial ++ dropped).Perm
      ((c.getcontext e).serial :: (s.scheduled.map Scheduled.serial ++ s.dropped))) :
    Sound { s.put fd (c.clear e) with
      pendingEventCount := s.pendingEventCount - 1
      scheduled, dropped } := by
  have hlose : ((c.getcontext e).serial :: (s.put fd (c.clear e)).pending).Perm s.pending :=
    Slots.flatMap_set_lose hc (FdContext.pending_clear he)
  constructor
  · exact mem_set_ok h.ok ((h.ok c (List.mem_of_getElem? hc)).clear e)
  · have hlen := hlose.length_eq
    rw [List.length_cons, ← h.count] at hlen
    show s.pendingEventCount - 1 = (s.put fd (c.clear e)).pending.length
    omega
  · refine List.Perm.trans ?_ h.serials
    refine (hrecord.append_left _).trans (List.perm_middle.trans ?_)
    exact hlose.append_right _
  · simpa [put] using h.size

@[simp] theorem deref_of_get (hc : s.contexts[fd]? = some c) : s.deref fd = .ok c := by
  simp [deref, hc]

theorem get_put (hc : s.contexts[fd]? = some c) (c' : FdContext Cb) :
    (s.put fd c').contexts[fd]? = some c' := by
  have hlt := (List.getElem?_eq_some_iff.mp hc).1
  simp [put, hlt]

/-- The table after `n` registrations were handed to their schedulers. -/
structure Triggers (s s' : IOManager Cb) (n : Nat) : Prop where
  sound : Sound s'
  count : s'.pendingEventCount + n = s.pendingEventCount
  added : s'.added = s.added
  dropped : s'.dropped = s.dropped
  size : s'.contexts.length = s.contexts.length
  scheduled : ∃ entries, s'.scheduled = s.scheduled ++ entries ∧ entries.length = n

theorem Triggers.refl (h : Sound s) : Triggers s s 0 :=
  ⟨h, rfl, rfl, rfl, rfl, [], (List.append_nil _).symm, rfl⟩

theorem Triggers.trans {s t u : IOManager Cb} {m n : Nat} (h : Triggers s t m)
    (h' : Triggers t u n) : Triggers s u (m + n) := by
  obtain ⟨entries, hentries, hm⟩ := h.scheduled
  obtain ⟨entries', hentries', hn⟩ := h'.scheduled
  refine ⟨h'.sound, ?_, h'.added.trans h.added, h'.dropped.trans h.dropped,
    h'.size.trans h.size, entries ++ entries', ?_, by simp [hm, hn]⟩
  · have := h.count
    have := h'.count
    omega
  · rw [hentries', hentries, List.append_assoc]

theorem Sound.count_pos (h : Sound s) (hc : s.contexts[fd]? = some c)
    (he : c.events.has e = true) : 0 < s.pendingEventCount := by
  rw [h.count]
  apply List.length_pos_of_mem (a := (c.getcontext e).serial)
  apply List.mem_flatMap.mpr
  exact ⟨c, List.mem_of_getElem? hc, (FdContext.pending_clear he).mem_iff.mpr (by simp)⟩

theorem Sound.trigger (h : Sound s) (hc : s.contexts[fd]? = some c)
    (he : c.events.has e = true) :
    ∃ s', s.trigger fd e = .ok s' ∧ Triggers s s' 1 ∧ s'.contexts[fd]? = some (c.clear e) := by
  obtain ⟨scheduler, task, -, htrigger⟩ := (h.ok c (List.mem_of_getElem? hc)).triggerEvent he
  let entry : Scheduled Cb := { serial := (c.getcontext e).serial, scheduler, task }
  refine ⟨{ s.put fd (c.clear e) with
      pendingEventCount := s.pendingEventCount - 1
      scheduled := s.scheduled ++ [entry] }, ?_, ⟨?_, ?_, rfl, rfl, List.length_set,
    [entry], rfl, rfl⟩, get_put hc _⟩
  · simp only [IOManager.trigger, deref_of_get hc, htrigger, bind, Except.bind]
    rfl
  · apply h.clear hc he
    simp only [List.map_append, List.map_cons, List.map_nil, List.append_assoc]
    exact List.perm_middle
  · have := h.count_pos hc he
    show s.pendingEventCount - 1 + 1 = s.pendingEventCount
    omega

theorem Sound.triggerIf (h : Sound s) (hc : s.contexts[fd]? = some c) (e : Event) (mask : Events)
    (hsub : mask.has e = true → c.events.has e = true) :
    ∃ s' c', s.triggerIf fd mask e = .ok s' ∧ Triggers s s' (mask.has e).toNat ∧
      s'.contexts[fd]? = some c' ∧ c'.events = c.events.diff (Events.none.set e (mask.has e)) := by
  cases hm : mask.has e with
  | true =>
    obtain ⟨s', heq, htrig, hc'⟩ := h.trigger hc (hsub hm)
    refine ⟨s', c.clear e, ?_, htrig, hc', ?_⟩
    · simp only [IOManager.triggerIf, hm, if_true, heq]
    · rw [FdContext.events_clear]
      cases e <;> simp [Events.set, Events.diff, Events.none]
  | false =>
    refine ⟨s, c, ?_, .refl h, hc, ?_⟩
    · simp [IOManager.triggerIf, hm]
    · cases e <;> simp [Events.set, Events.diff, Events.none]

end IOManager

end Sylar
