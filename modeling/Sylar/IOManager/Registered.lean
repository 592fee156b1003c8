import Sylar.IOManager.Runs

/-! Which fibers wait for which events. Every operation but `addEvent` only
takes registrations away, and `addEvent` adds the one it is called for. -/
namespace Sylar.IOManager

open Lib

variable {Cb : Type} {s s' : IOManager Cb} {c c' : FdContext Cb} {fd : Nat} {e : Event}
  {ctl : EpollCtl}

def Registered (s : IOManager Cb) (fd : Nat) (e : Event) (f : Nat) : Prop :=
  (s.context fd).events.has e = true ∧ ((s.context fd).getcontext e).fiber = some f

def Shrinks (s s' : IOManager Cb) : Prop :=
  ∀ fd e, (s'.context fd).events.has e = true →
    (s.context fd).events.has e = true ∧
      (s'.context fd).getcontext e = (s.context fd).getcontext e

theorem Shrinks.refl (s : IOManager Cb) : Shrinks s s := fun _ _ he => ⟨he, rfl⟩

theorem Shrinks.trans {s t u : IOManager Cb} (h : Shrinks s t) (h' : Shrinks t u) :
    Shrinks s u := by
  intro fd e he
  obtain ⟨he', hctx'⟩ := h' fd e he
  obtain ⟨he'', hctx''⟩ := h fd e he'
  exact ⟨he'', hctx'.trans hctx''⟩

theorem Shrinks.registered (h : Shrinks s s') {f : Nat} (hreg : Registered s' fd e f) :
    Registered s fd e f := by
  obtain ⟨he, hctx⟩ := h fd e hreg.1
  exact ⟨he, hctx ▸ hreg.2⟩

theorem context_set (hcontexts : s'.contexts = s.contexts.set fd c')
    (hc : s.contexts[fd]? = some c) (fd' : Nat) :
    s'.context fd' = if fd' = fd then c' else s.context fd' := by
  have hlt := (List.getElem?_eq_some_iff.mp hc).1
  by_cases hfd : fd' = fd
  · subst hfd
    simp [context, hcontexts, hlt]
  · simp [context, hcontexts, hfd, List.getElem?_set_ne (Ne.symm hfd)]

theorem Shrinks.of_set (hcontexts : s'.contexts = s.contexts.set fd c')
    (hc : s.contexts[fd]? = some c)
    (h : ∀ e, c'.events.has e = true → c.events.has e = true ∧ c'.getcontext e = c.getcontext e) :
    Shrinks s s' := by
  intro fd' e he
  rw [context_set hcontexts hc] at he ⊢
  by_cases hfd : fd' = fd
  · subst hfd
    rw [if_pos rfl] at he ⊢
    rw [context_of_get hc]
    exact h e he
  · rw [if_neg hfd] at he ⊢
    exact ⟨he, rfl⟩

theorem get_of_deref (h : s.deref fd = .ok c) : s.contexts[fd]? = some c := by
  simp only [deref] at h
  split at h
  · rename_i x hx
    rw [hx, Except.ok.inj h]
  · cases h

theorem FdContext.triggerEvent_ok {task : Option (Scheduled Cb)}
    (h : c.triggerEvent e = .ok (task, c')) :
    c'.events = c.events.set e false ∧ ∀ e', e' ≠ e → c'.getcontext e' = c.getcontext e' := by
  simp only [triggerEvent] at h
  split at h
  · cases h
  · split at h
    · cases h
    all_goals
      cases h
      constructor
      · cases e <;> rfl
      · intro e' he'
        cases e <;> cases e' <;> first | rfl | exact absurd rfl he'

theorem trigger_shrinks (h : s.trigger fd e = .ok s') :
    Shrinks s s' ∧ (s'.context fd).events.has e = false := by
  simp only [trigger, bind_eq_ok] at h
  obtain ⟨c, hderef, ⟨task, c'⟩, htrigger, hs'⟩ := h
  obtain rfl := Except.ok.inj hs'
  have hc := get_of_deref hderef
  obtain ⟨hevents, hother⟩ := FdContext.triggerEvent_ok htrigger
  constructor
  · apply Shrinks.of_set rfl hc
    intro e' he'
    rw [hevents, Events.has_set] at he'
    by_cases heq : e' = e
    · simp [heq] at he'
    · rw [if_neg heq] at he'
      exact ⟨he', hother e' heq⟩
  · rw [context_set rfl hc, if_pos rfl, hevents]
    simp

theorem triggerIf_shrinks {mask : Events} (h : s.triggerIf fd mask e = .ok s') : Shrinks s s' := by
  simp only [triggerIf] at h
  split at h
  · exact (trigger_shrinks h).1
  · obtain rfl := Except.ok.inj h
    exact .refl s

theorem delEvent_shrinks {b : Bool} (h : s.delEvent fd e ctl = .ok (b, s')) : Shrinks s s' := by
  rcases ite_eq_iff.mp h with ⟨-, h⟩ | ⟨-, h⟩
  · cases h
    exact .refl s
  obtain ⟨c, hderef, h⟩ := bind_eq_ok.mp h
  rcases ite_eq_iff.mp h with ⟨-, h⟩ | ⟨-, h⟩
  · cases h
    exact .refl s
  rcases ite_eq_iff.mp h with ⟨-, h⟩ | ⟨-, h⟩
  · cases h
    exact .refl s
  · cases h
    apply Shrinks.of_set (show _ = s.contexts.set fd (c.clear e) from rfl) (get_of_deref hderef)
    intro e' he'
    rw [FdContext.events_clear, Events.has_set] at he'
    by_cases heq : e' = e
    · simp [heq] at he'
    · rw [if_neg heq] at he'
      exact ⟨he', by rw [FdContext.getcontext_clear, if_neg heq]⟩

theorem cancelEvent_shrinks {b : Bool} (h : s.cancelEvent fd e ctl = .ok (b, s')) :
    Shrinks s s' ∧ ((∀ op fd events, ctl op fd events = true) →
      (s'.context fd).events.has e = false) := by
  rcases ite_eq_iff.mp h with ⟨hfd, h⟩ | ⟨-, h⟩
  · cases h
    refine ⟨.refl s, fun _ => ?_⟩
    rw [context, List.getElem?_eq_none hfd]
    cases e <;> rfl
  obtain ⟨c, hderef, h⟩ := bind_eq_ok.mp h
  rcases ite_eq_iff.mp h with ⟨he, h⟩ | ⟨-, h⟩
  · cases h
    refine ⟨.refl s, fun _ => ?_⟩
    rw [context_of_get (get_of_deref hderef), he]
  rcases ite_eq_iff.mp h with ⟨hctl, h⟩ | ⟨-, h⟩
  · cases h
    refine ⟨.refl s, fun hall => ?_⟩
    rw [hall] at hctl
    cases hctl
  · obtain ⟨s₁, htrigger, h⟩ := bind_eq_ok.mp h
    cases h
    exact ⟨(trigger_shrinks htrigger).1, fun _ => (trigger_shrinks htrigger).2⟩

theorem cancelAll_shrinks {b : Bool} (h : s.cancelAll fd ctl = .ok (b, s')) : Shrinks s s' := by
  rcases ite_eq_iff.mp h with ⟨-, h⟩ | ⟨-, h⟩
  · cases h
    exact .refl s
  obtain ⟨c, -, h⟩ := bind_eq_ok.mp h
  rcases ite_eq_iff.mp h with ⟨-, h⟩ | ⟨-, h⟩
  · cases h
    exact .refl s
  obtain ⟨s₁, hread, h⟩ := bind_eq_ok.mp h
  obtain ⟨c₁, -, h⟩ := bind_eq_ok.mp h
  obtain ⟨s₂, hwrite, h⟩ := bind_eq_ok.mp h
  obtain ⟨c₂, -, h⟩ := bind_eq_ok.mp h
  rcases ite_eq_iff.mp h with ⟨-, h⟩ | ⟨-, h⟩
  · cases h
  · cases h
    exact (triggerIf_shrinks hread).trans (triggerIf_shrinks hwrite)

theorem dispatch_shrinks {ev : Reported} (h : s.dispatch fd ev ctl = .ok s') : Shrinks s s' := by
  obtain ⟨c, -, h⟩ := bind_eq_ok.mp h
  rcases ite_eq_iff.mp h with ⟨-, h⟩ | ⟨-, h⟩
  · cases h
    exact .refl s
  rcases ite_eq_iff.mp h with ⟨-, h⟩ | ⟨-, h⟩
  · cases h
    exact .refl s
  · obtain ⟨s₁, hread, h⟩ := bind_eq_ok.mp h
    exact (triggerIf_shrinks hread).trans (triggerIf_shrinks h)

theorem same_reserve (s : IOManager Cb) (fd : Nat) : Same s (s.reserve fd) := by
  simp only [reserve]
  split
  · exact .refl s
  · exact (contextResize_grow (fd * 3 / 2) (by omega)).1

theorem addEvent_registers {cb : Option Cb} {caller : Caller} {r : Int} {fd' f : Nat} {e' : Event}
    (h : s.addEvent fd e cb caller ctl = .ok (r, s')) (hreg : Registered s' fd' e' f) :
    Registered s fd' e' f ∨ (fd' = fd ∧ e' = e ∧ cb = none ∧ f = caller.fiber) := by
  have hsame := s.same_reserve fd
  obtain ⟨c, hderef, h⟩ := bind_eq_ok.mp h
  have hc := get_of_deref hderef
  rcases ite_eq_iff.mp h with ⟨-, h⟩ | ⟨-, h⟩
  · cases h
  rcases ite_eq_iff.mp h with ⟨-, h⟩ | ⟨-, h⟩
  · cases h
    rw [Registered, hsame.context] at hreg
    exact .inl hreg
  rcases ite_eq_iff.mp h with ⟨-, h⟩ | ⟨-, h⟩
  · cases h
  rcases ite_eq_iff.mp h with ⟨-, h⟩ | ⟨-, h⟩
  · cases h
  · cases h
    rw [Registered, context_set rfl hc] at hreg
    by_cases hfd : fd' = fd
    · subst hfd
      rw [if_pos rfl, ← FdContext.fill, FdContext.events_fill, Events.has_set,
        FdContext.getcontext_fill] at hreg
      by_cases heq : e' = e
      · subst heq
        rw [if_pos rfl, if_pos rfl] at hreg
        cases cb with
        | none => exact .inr ⟨rfl, rfl, rfl, (Option.some.inj hreg.2).symm⟩
        | some _ => cases hreg.2
      · rw [if_neg heq, if_neg heq, ← context_of_get hc, hsame.context] at hreg
        exact .inl hreg
    · rw [if_neg hfd, hsame.context] at hreg
      exact .inl hreg

/-- An operation that does not register a fiber leaves no fiber waiting that did
not wait before. -/
theorem exec_registered {op : Op Cb} {out : Out} {f : Nat}
    (hop : ∀ fd e caller, op ≠ .addEvent fd e none caller) (h : op.exec s ctl = .ok (out, s'))
    (hreg : Registered s' fd e f) : Registered s fd e f := by
  cases op with
  | addEvent fd₀ e₀ cb caller =>
    obtain ⟨⟨r, s₁⟩, hadd, h⟩ := bind_eq_ok.mp h
    cases h
    rcases addEvent_registers hadd hreg with hreg | ⟨-, -, rfl, -⟩
    · exact hreg
    · exact absurd rfl (hop fd₀ e₀ caller)
  | delEvent fd₀ e₀ =>
    obtain ⟨⟨b, s₁⟩, hdel, h⟩ := bind_eq_ok.mp h
    cases h
    exact (delEvent_shrinks hdel).registered hreg
  | cancelEvent fd₀ e₀ =>
    obtain ⟨⟨b, s₁⟩, hcancel, h⟩ := bind_eq_ok.mp h
    cases h
    exact (cancelEvent_shrinks hcancel).1.registered hreg
  | cancelAll fd₀ =>
    obtain ⟨⟨b, s₁⟩, hcancel, h⟩ := bind_eq_ok.mp h
    cases h
    exact (cancelAll_shrinks hcancel).registered hreg
  | dispatch fd₀ ev =>
    obtain ⟨s₁, hdispatch, h⟩ := bind_eq_ok.mp h
    cases h
    exact (dispatch_shrinks hdispatch).registered hreg

section Waking

theorem FdContext.triggerEvent_has {x : Option (Scheduled Cb) × FdContext Cb}
    (h : c.triggerEvent e = .ok x) : c.events.has e = true := by
  by_contra hno
  rw [triggerEvent, if_pos (Bool.eq_false_of_not_eq_true hno)] at h
  cases h

theorem Sound.of_trigger (h : Sound s) (htrigger : s.trigger fd e = .ok s') :
    Sound s' ∧ s.scheduled <+: s'.scheduled := by
  obtain ⟨c, hderef, htask⟩ := bind_eq_ok.mp htrigger
  obtain ⟨x, hevent, -⟩ := bind_eq_ok.mp htask
  have hhas := FdContext.triggerEvent_has hevent
  obtain ⟨t, ht, htriggers, -⟩ := h.trigger (get_of_deref hderef) hhas
  obtain rfl := Except.ok.inj (ht.symm.trans htrigger)
  obtain ⟨entries, hentries, -⟩ := htriggers.scheduled
  exact ⟨htriggers.sound, hentries ▸ List.prefix_append _ _⟩

theorem Sound.of_triggerIf {mask : Events} (h : Sound s)
    (htrigger : s.triggerIf fd mask e = .ok s') : Sound s' ∧ s.scheduled <+: s'.scheduled := by
  rcases ite_eq_iff.mp htrigger with ⟨-, htrigger⟩ | ⟨-, hsame⟩
  · exact h.of_trigger htrigger
  · obtain rfl := Except.ok.inj hsame
    exact ⟨h, List.prefix_rfl⟩

theorem Sound.of_addEvent {cb : Option Cb} {caller : Caller} {r : Int} (h : Sound s)
    (hadd : s.addEvent fd e cb caller ctl = .ok (r, s')) :
    Sound s' ∧ s.scheduled <+: s'.scheduled := by
  have hvacant : (s.context fd).events.has e = false := by
    obtain ⟨c, hderef, hrest⟩ := bind_eq_ok.mp hadd
    rcases ite_eq_iff.mp hrest with ⟨-, hfails⟩ | ⟨hno, -⟩
    · cases hfails
    · rw [← (s.same_reserve fd).context, context_of_get (get_of_deref hderef)]
      exact Bool.eq_false_of_not_eq_true hno
  obtain ⟨r', t, ht, hsound, hscheduled, -⟩ := h.addEvent hvacant cb caller ctl
  obtain ⟨-, rfl⟩ := Prod.mk.inj (Except.ok.inj (ht.symm.trans hadd))
  exact ⟨hsound, hscheduled ▸ List.prefix_rfl⟩

theorem Sound.of_cancelEvent {b : Bool} (h : Sound s)
    (hcancel : s.cancelEvent fd e ctl = .ok (b, s')) : Sound s' ∧ s.scheduled <+: s'.scheduled := by
  obtain ⟨b', t, n, ht, htriggers, -⟩ := h.cancelEvent fd e ctl
  obtain ⟨-, rfl⟩ := Prod.mk.inj (Except.ok.inj (ht.symm.trans hcancel))
  obtain ⟨entries, hentries, -⟩ := htriggers.scheduled
  exact ⟨htriggers.sound, hentries ▸ List.prefix_append _ _⟩

theorem Sound.of_cancelAll {b : Bool} (h : Sound s)
    (hcancel : s.cancelAll fd ctl = .ok (b, s')) : Sound s' ∧ s.scheduled <+: s'.scheduled := by
  obtain ⟨b', t, n, ht, htriggers⟩ := h.cancelAll fd ctl
  obtain ⟨-, rfl⟩ := Prod.mk.inj (Except.ok.inj (ht.symm.trans hcancel))
  obtain ⟨entries, hentries, -⟩ := htriggers.scheduled
  exact ⟨htriggers.sound, hentries ▸ List.prefix_append _ _⟩

/-- Every operation that does not fail keeps the table sound, whether a report is stale or not. -/
theorem Sound.of_exec {op : Op Cb} {out : Out} (h : Sound s)
    (hexec : op.exec s ctl = .ok (out, s')) : Sound s' ∧ s.scheduled <+: s'.scheduled := by
  cases op with
  | addEvent fd e cb caller =>
    obtain ⟨⟨r, t⟩, hadd, ht⟩ := bind_eq_ok.mp hexec
    obtain ⟨-, rfl⟩ := Prod.mk.inj (Except.ok.inj ht)
    exact h.of_addEvent hadd
  | delEvent fd e =>
    obtain ⟨⟨b, t⟩, hdel, ht⟩ := bind_eq_ok.mp hexec
    obtain ⟨-, rfl⟩ := Prod.mk.inj (Except.ok.inj ht)
    obtain ⟨b', t', ht', hsound, hscheduled, -⟩ := h.delEvent fd e ctl
    obtain ⟨-, rfl⟩ := Prod.mk.inj (Except.ok.inj (ht'.symm.trans hdel))
    exact ⟨hsound, hscheduled ▸ List.prefix_rfl⟩
  | cancelEvent fd e =>
    obtain ⟨⟨b, t⟩, hcancel, ht⟩ := bind_eq_ok.mp hexec
    obtain ⟨-, rfl⟩ := Prod.mk.inj (Except.ok.inj ht)
    exact h.of_cancelEvent hcancel
  | cancelAll fd =>
    obtain ⟨⟨b, t⟩, hcancel, ht⟩ := bind_eq_ok.mp hexec
    obtain ⟨-, rfl⟩ := Prod.mk.inj (Except.ok.inj ht)
    exact h.of_cancelAll hcancel
  | dispatch fd ev =>
    obtain ⟨t, hdispatch, ht⟩ := bind_eq_ok.mp hexec
    obtain ⟨-, rfl⟩ := Prod.mk.inj (Except.ok.inj ht)
    obtain ⟨c, -, hdispatch⟩ := bind_eq_ok.mp hdispatch
    rcases ite_eq_iff.mp hdispatch with ⟨-, hsame⟩ | ⟨-, hdispatch⟩
    · cases hsame
      exact ⟨h, List.prefix_rfl⟩
    rcases ite_eq_iff.mp hdispatch with ⟨-, hsame⟩ | ⟨-, hdispatch⟩
    · cases hsame
      exact ⟨h, List.prefix_rfl⟩
    obtain ⟨s₁, hread, hwrite⟩ := bind_eq_ok.mp hdispatch
    obtain ⟨h₁, hgrows⟩ := h.of_triggerIf hread
    exact (h₁.of_triggerIf hwrite).imp_right hgrows.trans

theorem Sound.scheduled_nodup (h : Sound s) : (s.scheduled.map Scheduled.serial).Nodup :=
  (List.nodup_append.mp (List.nodup_append.mp
    (h.serials.nodup_iff.mpr List.nodup_range)).2.1).1

theorem get_of_has (he : (s.context fd).events.has e = true) :
    s.contexts[fd]? = some (s.context fd) := by
  cases hc : s.contexts[fd]? with
  | none =>
    rw [context, hc] at he
    cases e <;> cases he
  | some c => rw [context_of_get hc]

theorem Sound.serial_fresh (h : Sound s) (he : (s.context fd).events.has e = true) :
    ((s.context fd).getcontext e).serial ∉ s.scheduled.map Scheduled.serial := by
  have hmem : ((s.context fd).getcontext e).serial ∈ s.pending :=
    List.mem_flatMap.mpr ⟨_, List.mem_of_getElem? (get_of_has he),
      (FdContext.pending_clear he).mem_iff.mpr (List.mem_cons_self ..)⟩
  intro hscheduled
  have hdisjoint := (List.nodup_append.mp (h.serials.nodup_iff.mpr List.nodup_range)).2.2
  exact hdisjoint _ hmem _ (List.mem_append_left _ hscheduled) rfl

theorem trigger_wakes {f : Nat} (h : Sound s) (hreg : Registered s fd e f)
    (htrigger : s.trigger fd e = .ok s') :
    ∃ x ∈ s'.scheduled, x.task = .fiber (some f) ∧
      x.serial = ((s.context fd).getcontext e).serial := by
  obtain ⟨he, hfiber⟩ := hreg
  have hget := get_of_has he
  obtain ⟨hsched, hone⟩ := (h.ok _ (List.mem_of_getElem? hget)).registered e he
  obtain ⟨scheduler, hscheduler⟩ := Option.isSome_iff_exists.mp hsched
  have hcb : ((s.context fd).getcontext e).cb = none := by simpa [hfiber] using hone
  have hsame : ({ s.context fd with events := (s.context fd).events.set e false } :
      FdContext Cb).getcontext e = (s.context fd).getcontext e := by
    cases e <;> rfl
  simp only [trigger, deref_of_get hget, FdContext.triggerEvent, he, hsame, hscheduler, hcb, hfiber,
    Bool.true_eq_false, if_false, bind, Except.bind] at htrigger
  obtain rfl := Except.ok.inj htrigger
  exact ⟨_, List.mem_append_right _ (List.mem_singleton_self _), rfl, rfl⟩

theorem triggerIf_keeps {mask : Events} {e' : Event} (hne : e' ≠ e)
    (htrigger : s.triggerIf fd mask e = .ok s') :
    (s'.context fd).events.has e' = (s.context fd).events.has e' ∧
      (s'.context fd).getcontext e' = (s.context fd).getcontext e' := by
  rcases ite_eq_iff.mp htrigger with ⟨-, htrigger⟩ | ⟨-, hsame⟩
  · obtain ⟨c, hderef, hrest⟩ := bind_eq_ok.mp htrigger
    obtain ⟨⟨task, c'⟩, hevent, hs'⟩ := bind_eq_ok.mp hrest
    obtain rfl := Except.ok.inj hs'
    have hc := get_of_deref hderef
    obtain ⟨hevents, hother⟩ := FdContext.triggerEvent_ok hevent
    rw [context_set rfl hc, if_pos rfl, context_of_get hc, hevents, Events.has_set, if_neg hne]
    exact ⟨rfl, hother e' hne⟩
  · obtain rfl := Except.ok.inj hsame
    exact ⟨rfl, rfl⟩

theorem cancelAll_wakes {b : Bool} {f : Nat} (h : Sound s) (hreg : Registered s fd e f)
    (hcancel : s.cancelAll fd ctl = .ok (b, s')) :
    ∃ x ∈ s'.scheduled, x.task = .fiber (some f) ∧
      x.serial ∉ s.scheduled.map Scheduled.serial := by
  have hget := get_of_has hreg.1
  rcases ite_eq_iff.mp hcancel with ⟨hshort, -⟩ | ⟨-, hcancel⟩
  · exact absurd (List.getElem?_eq_some_iff.mp hget).1 (Nat.not_lt.mpr hshort)
  obtain ⟨c, hderef, hcancel⟩ := bind_eq_ok.mp hcancel
  obtain rfl := Option.some.inj (hget.symm.trans (get_of_deref hderef))
  rcases ite_eq_iff.mp hcancel with ⟨hnone, -⟩ | ⟨-, hcancel⟩
  · have he := hreg.1
    rw [hnone] at he
    cases e <;> cases he
  obtain ⟨s₁, hread, hcancel⟩ := bind_eq_ok.mp hcancel
  obtain ⟨c₁, hderef₁, hcancel⟩ := bind_eq_ok.mp hcancel
  obtain ⟨s₂, hwrite, hcancel⟩ := bind_eq_ok.mp hcancel
  obtain ⟨c₂, -, hcancel⟩ := bind_eq_ok.mp hcancel
  rcases ite_eq_iff.mp hcancel with ⟨-, hfails⟩ | ⟨-, hs'⟩
  · cases hfails
  obtain ⟨-, rfl⟩ := Prod.mk.inj (Except.ok.inj hs')
  obtain ⟨h₁, -⟩ := h.of_triggerIf hread
  cases e with
  | READ =>
    rw [triggerIf, if_pos hreg.1] at hread
    obtain ⟨x, hx, htask, hserial⟩ := trigger_wakes h hreg hread
    exact ⟨x, (h₁.of_triggerIf hwrite).2.subset hx, htask, hserial ▸ h.serial_fresh hreg.1⟩
  | WRITE =>
    obtain ⟨hhas, hctx⟩ := triggerIf_keeps (show Event.WRITE ≠ .READ by decide) hread
    have hreg₁ : Registered s₁ fd .WRITE f := ⟨hhas.trans hreg.1, hctx ▸ hreg.2⟩
    rw [← context_of_get (get_of_deref hderef₁), triggerIf, if_pos hreg₁.1] at hwrite
    obtain ⟨x, hx, htask, hserial⟩ := trigger_wakes h₁ hreg₁ hwrite
    refine ⟨x, hx, htask, ?_⟩
    rw [hserial, hctx]
    exact h.serial_fresh hreg.1

end Waking

end Sylar.IOManager
