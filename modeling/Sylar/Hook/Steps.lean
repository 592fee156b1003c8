import Sylar.IOManager.Registered
import Sylar.Hook.Basic

/-! What one step of the hooked calls does to the invocations, the timers, the
registrations and the descriptor table. -/
namespace Sylar.Hook

open IOManager (Registered)

variable {Cb : Type} {s s' : Hook Cb} {f : Nat} {inv inv' : Invocation} {m : Move}

/-- The invocation has not registered its event since it began or last looked
at `tinfo->cancelled`. -/
def Pc.approaching : Pc → Bool
  | .enter | .call | .arm | .register => true
  | _ => false

def Pc.waiting : Pc → Bool
  | .yield | .suspended => true
  | _ => false

def Pc.returned : Pc → Bool
  | .ret _ => true
  | _ => false

structure CondTimer.Same (t t' : CondTimer) : Prop where
  fiber : t'.fiber = t.fiber
  inv : t'.inv = t.inv
  fd : t'.fd = t.fd
  event : t'.event = t.event

theorem CondTimer.same_cancel (t : CondTimer) : t.Same t.cancel := by
  simp only [CondTimer.cancel]
  split <;> exact ⟨rfl, rfl, rfl, rfl⟩

@[simp] theorem CondTimer.cancel_of_marked {t : CondTimer} (h : t.state = .marked) :
    t.cancel = t := by
  simp [CondTimer.cancel, h]

structure CondTimer.Of (t : CondTimer) (f : Nat) (inv : Invocation) : Prop where
  fiber : t.fiber = f
  id : t.inv = inv.id
  fd : t.fd = inv.fd
  event : t.event = inv.kind.event

def Opens (s : Hook Cb) : Act Cb → Nat → Prop
  | .socket _ n, fd => fd = n
  | .move f (.call (.ok n)), fd =>
    fd = n ∧ ∃ inv, s.frames f = .invocation inv ∧ inv.kind = .doIo .accept
  | _, _ => False

structure Follows (inv inv' : Invocation) : Prop where
  id : inv'.id = inv.id
  kind : inv'.kind = inv.kind
  fd : inv'.fd = inv.fd
  started : inv'.started = inv.started
  cancelled : inv'.cancelled = inv.cancelled
  running : inv.pc.returned = false
  approaching : inv'.pc.approaching = true → inv.pc.approaching = true ∨ inv.cancelled = none
  waiting : inv'.pc.waiting = true → inv.pc.waiting = true ∨ inv.pc.approaching = true

theorem Follows.of_pc {pc : Pc} (hrunning : inv.pc.returned = false)
    (happroach : pc.approaching = true → inv.pc.approaching = true ∨ inv.cancelled = none)
    (hwait : pc.waiting = true → inv.pc.waiting = true ∨ inv.pc.approaching = true) :
    Follows inv { inv with pc } :=
  ⟨rfl, rfl, rfl, rfl, rfl, hrunning, happroach, hwait⟩

theorem follows_enter (hpc : inv.pc = .enter) (hookEnable : Bool) (ctx : Option FdCtx) :
    Follows inv (inv.enter hookEnable ctx) := by
  have happroach : inv.pc.approaching = true := by rw [hpc]; rfl
  simp only [Invocation.enter]
  repeat' split
  all_goals exact ⟨rfl, rfl, rfl, rfl, rfl, by rw [hpc]; rfl, fun _ => .inl happroach,
    fun _ => .inr happroach⟩

theorem frame_cases {x : Frame} {g : Nat} (hframes : s'.frames = Function.update s.frames f x)
    (h : s'.frames g = .invocation inv') :
    g = f ∧ x = .invocation inv' ∨ g ≠ f ∧ s.frames g = .invocation inv' := by
  rw [hframes] at h
  by_cases hg : g = f
  · rw [hg, Function.update_self] at h
    exact .inl ⟨hg, h⟩
  · rw [Function.update_of_ne hg] at h
    exact .inr ⟨hg, h⟩

theorem lock_eq_some {t : CondTimer} (h : s.lock t = some inv) :
    s.frames t.fiber = .invocation inv ∧ inv.id = t.inv := by
  simp only [lock] at h
  split at h
  · rename_i inv' hframe
    obtain ⟨hid, heq⟩ := Option.ite_none_right_eq_some.mp h
    obtain rfl := Option.some.inj heq
    exact ⟨hframe, hid⟩
  · cases h

structure Moved (m : Move) (s : Hook Cb) (f : Nat) (inv : Invocation) (s' : Hook Cb) : Prop where
  ids : s'.ids = s.ids
  frames : ∃ x, s'.frames = Function.update s.frames f x ∧
    ∀ inv', x = .invocation inv' → Follows inv inv'
  marked : ∀ t ∈ s.timers, t.state = .marked → t ∈ s'.timers
  captured : ∀ t' ∈ s'.timers, (∃ t ∈ s.timers, t.Same t') ∨ t'.Of f inv
  registered : ∀ fd e g, Registered s'.io fd e g →
    Registered s.io fd e g ∨ g = f ∧ inv.pc.approaching = true
  table : (s'.sockets = s.sockets ∧ s'.calls = s.calls) ∨
    ∃ a, m = .call a ∧ inv.pc.returned = false ∧ (s.sockets inv.fd = none → a = .err .EBADF) ∧
      s'.calls = s.calls ++ [⟨inv.id, inv.kind, inv.started, s.sockets inv.fd, a⟩] ∧
      (s'.sockets = s.sockets ∨ ∃ fd, inv.kind = .doIo .accept ∧ a = .ok fd ∧
        s'.sockets = Function.update s.sockets fd (some s.identities))

theorem Moved.of_frame {x : Frame} (hx : ∀ inv', x = .invocation inv' → Follows inv inv') :
    Moved m s f inv (s.frame f x) where
  ids := rfl
  frames := ⟨x, rfl, hx⟩
  marked := fun _ ht _ => ht
  captured := fun t ht => .inl ⟨t, ht, rfl, rfl, rfl, rfl⟩
  registered := fun _ _ _ hreg => .inl hreg
  table := .inl ⟨rfl, rfl⟩

theorem Moved.of_put (h : Follows inv inv') : Moved m s f inv (s.put f inv') :=
  .of_frame fun _ heq => Frame.invocation.inj heq ▸ h

theorem perform_spec {a : Answer} (h : s.perform inv a = some s') :
    s'.frames = s.frames ∧ s'.timers = s.timers ∧ s'.io = s.io ∧ s'.ids = s.ids ∧
      (s.sockets inv.fd = none → a = .err .EBADF) ∧
      s'.calls = s.calls ++ [⟨inv.id, inv.kind, inv.started, s.sockets inv.fd, a⟩] ∧
      (s'.sockets = s.sockets ∨ ∃ fd, inv.kind = .doIo .accept ∧ a = .ok fd ∧
        s'.sockets = Function.update s.sockets fd (some s.identities)) := by
  simp only [perform] at h
  split at h
  · cases h
  rename_i hbad
  have hbad : s.sockets inv.fd = none → a = .err .EBADF := by simpa using hbad
  split at h
  · rename_i kind a fd hkind ha
    simp only [assign] at h
    split at h
    · cases h
      exact ⟨rfl, rfl, rfl, rfl, hbad, rfl, .inr ⟨fd, hkind, rfl, rfl⟩⟩
    · cases h
  · cases h
    exact ⟨rfl, rfl, rfl, rfl, hbad, rfl, .inl rfl⟩

theorem moved_perform {a : Answer} {t : Hook Cb} (h : s.perform inv a = some t)
    (hinv : Follows inv inv') : Moved (.call a) s f inv (t.put f inv') := by
  obtain ⟨hframes, htimers, hio, hids, hbad, hcalls, hsockets⟩ := perform_spec h
  refine ⟨hids, ⟨.invocation inv', congrArg (Function.update · f _) hframes, ?_⟩, ?_, ?_, ?_,
    .inr ⟨a, rfl, hinv.running, hbad, hcalls, hsockets⟩⟩
  · intro x hx
    exact Frame.invocation.inj hx ▸ hinv
  · intro t' ht' _
    exact htimers ▸ ht'
  · intro t' ht'
    exact .inl ⟨t', htimers ▸ ht', rfl, rfl, rfl, rfl⟩
  · intro fd e g hreg
    exact .inl (hio ▸ hreg)

theorem moved_arm (hpc : inv.pc = .arm) : Moved m s f inv (s.arm f inv) := by
  have happroach : inv.pc.approaching = true := by rw [hpc]; rfl
  have hinv : ∀ timer, Follows inv { inv with timer, pc := .register } := fun _ =>
    ⟨rfl, rfl, rfl, rfl, rfl, by rw [hpc]; rfl, fun _ => .inl happroach, nofun⟩
  simp only [arm]
  split
  · exact .of_put (hinv _)
  · have hput : Moved m s f inv (s.put f { inv with timer := some s.timers.length, pc := .register }) :=
      .of_put (hinv _)
    refine { hput with marked := ?_, captured := ?_ }
    · intro t ht _
      exact List.mem_append_left _ ht
    · intro t ht
      rcases List.mem_append.mp ht with ht | ht
      · exact .inl ⟨t, ht, rfl, rfl, rfl, rfl⟩
      · obtain rfl := List.mem_singleton.mp ht
        exact .inr ⟨rfl, rfl, rfl, rfl⟩

theorem moved_disarm (hinv : Follows inv inv') : Moved m s f inv ((s.disarm inv).put f inv') := by
  have hput : Moved m s f inv (s.put f inv') := .of_put hinv
  simp only [disarm]
  split
  · exact hput
  · rename_i i hi
    refine { hput with marked := ?_, captured := ?_ }
    · intro t ht hmarked
      obtain ⟨j, hj⟩ := List.mem_iff_getElem?.mp ht
      apply List.mem_of_getElem? (i := j)
      show (s.timers.modify i CondTimer.cancel)[j]? = some t
      rw [List.getElem?_modify, hj]
      split
      · exact congrArg some (CondTimer.cancel_of_marked hmarked)
      · rfl
    · intro t' ht'
      obtain ⟨j, hj⟩ := List.mem_iff_getElem?.mp ht'
      replace hj : (s.timers.modify i CondTimer.cancel)[j]? = some t' := hj
      rw [List.getElem?_modify, Option.map_eq_map, Option.map_eq_some_iff] at hj
      obtain ⟨t, ht, heq⟩ := hj
      refine .inl ⟨t, List.mem_of_getElem? ht, ?_⟩
      rw [← heq]
      split
      · exact t.same_cancel
      · exact ⟨rfl, rfl, rfl, rfl⟩

theorem moved_register {ctl : EpollCtl} (hpc : inv.pc = .register) {rt : Int} {io : IOManager Cb}
    (h : s.io.addEvent inv.fd inv.kind.event none ⟨0, f, .EXEC, rfl⟩ ctl = .ok (rt, io)) :
    Moved m s f inv
      ({ s with io }.put f { inv with pc := if rt = 0 then .yield else .refused }) := by
  have happroach : inv.pc.approaching = true := by rw [hpc]; rfl
  have hput : Moved m s f inv (s.put f { inv with pc := if rt = 0 then .yield else .refused }) :=
    .of_put (.of_pc (by rw [hpc]; rfl) (fun _ => .inl happroach) fun _ => .inr happroach)
  refine { hput with registered := ?_ }
  intro fd e g hreg
  rcases IOManager.addEvent_registers h hreg with hreg | ⟨-, -, -, hg⟩
  · exact .inl hreg
  · exact .inr ⟨hg, happroach⟩

@[simp] theorem Invocation.waiting_answered (inv : Invocation) (a : Answer) :
    (inv.answered a).waiting = false := by
  simp only [Invocation.answered]
  split <;> rfl

@[simp] theorem Invocation.approaching_gaveUp (inv : Invocation) :
    inv.gaveUp.approaching = false := by
  simp only [Invocation.gaveUp]
  split <;> rfl

@[simp] theorem Invocation.waiting_gaveUp (inv : Invocation) : inv.gaveUp.waiting = false := by
  simp only [Invocation.gaveUp]
  split <;> rfl

@[simp] theorem Invocation.waiting_checked (inv : Invocation) : inv.checked.waiting = false := by
  simp only [Invocation.checked]
  split
  · rfl
  · split <;> rfl

theorem Invocation.approaching_checked (inv : Invocation) (h : inv.checked.approaching = true) :
    inv.cancelled = none := by
  simp only [Invocation.checked] at h
  split at h
  · cases h
  · rename_i hnone
    exact Option.not_isSome_iff_eq_none.mp hnone

theorem move_spec (h : s.move f inv m = some s') : Moved m s f inv s' := by
  cases m with
  | enter hookEnable =>
    obtain ⟨hpc, h⟩ := Option.ite_none_right_eq_some.mp h
    obtain rfl := Option.some.inj h
    exact .of_put (follows_enter hpc _ _)
  | call a =>
    simp only [move] at h
    split at h
    · rename_i hpc
      obtain ⟨t, hperform, h⟩ := Option.bind_eq_some_iff.mp h
      obtain rfl := Option.some.inj h
      exact moved_perform hperform (.of_pc (by rw [hpc]; rfl) nofun nofun)
    · rename_i hpc
      obtain ⟨t, hperform, h⟩ := Option.bind_eq_some_iff.mp h
      obtain rfl := Option.some.inj h
      refine moved_perform hperform (.of_pc (by rw [hpc]; rfl) (fun _ => .inl (by rw [hpc]; rfl)) ?_)
      intro hwait
      rw [inv.waiting_answered] at hwait
      cases hwait
    · cases h
  | arm =>
    obtain ⟨hpc, h⟩ := Option.ite_none_right_eq_some.mp h
    obtain rfl := Option.some.inj h
    exact moved_arm hpc
  | register ctl =>
    obtain ⟨hpc, h⟩ := Option.ite_none_right_eq_some.mp h
    split at h
    · rename_i rt io hadd
      obtain rfl := Option.some.inj h
      exact moved_register hpc hadd
    · cases h
  | hold =>
    obtain ⟨hpc, h⟩ := Option.ite_none_right_eq_some.mp h
    obtain rfl := Option.some.inj h
    exact .of_put (.of_pc (by rw [hpc]; rfl) nofun fun _ => .inl (by rw [hpc]; rfl))
  | resume serial =>
    obtain ⟨⟨hpc, -⟩, h⟩ := Option.ite_none_right_eq_some.mp h
    obtain rfl := Option.some.inj h
    have hput : Moved (.resume serial) s f inv (s.put f { inv with pc := .resumed }) :=
      .of_put (.of_pc (by rw [hpc]; rfl) nofun nofun)
    exact { hput with }
  | disarm =>
    simp only [move] at h
    split at h
    · rename_i hpc
      obtain rfl := Option.some.inj h
      exact moved_disarm (.of_pc (by rw [hpc]; rfl) nofun nofun)
    · rename_i hpc
      obtain rfl := Option.some.inj h
      apply moved_disarm (.of_pc (by rw [hpc]; rfl) _ _)
      · rw [inv.approaching_gaveUp]
        exact nofun
      · rw [inv.waiting_gaveUp]
        exact nofun
    · cases h
  | check =>
    obtain ⟨hpc, h⟩ := Option.ite_none_right_eq_some.mp h
    obtain rfl := Option.some.inj h
    apply Moved.of_put (.of_pc (by rw [hpc]; rfl) (fun happroach => .inr (inv.approaching_checked happroach)) _)
    rw [inv.waiting_checked]
    exact nofun
  | sockopt error =>
    obtain ⟨hpc, h⟩ := Option.ite_none_right_eq_some.mp h
    obtain rfl := Option.some.inj h
    exact .of_put (.of_pc (by rw [hpc]; rfl) nofun nofun)
  | leave =>
    simp only [move] at h
    split at h
    · obtain rfl := Option.some.inj h
      exact .of_frame fun _ hx => Frame.noConfusion hx
    · obtain rfl := Option.some.inj h
      exact .of_frame fun _ hx => Frame.noConfusion hx
    · cases h

structure Elsewhere (s : Hook Cb) (act : Act Cb) (s' : Hook Cb) : Prop where
  frames : ∀ g inv, s'.frames g = .invocation inv → s.frames g = .invocation inv
  ids : s'.ids = s.ids
  timers : s'.timers = s.timers
  calls : s'.calls = s.calls
  registered : ∀ fd e g, Registered s'.io fd e g → Registered s.io fd e g
  sockets : s'.sockets = s.sockets ∨ (∃ fd, s'.sockets = Function.update s.sockets fd none) ∨
    ∃ fd k, Opens s act fd ∧ s'.sockets = Function.update s.sockets fd (some k)

theorem Elsewhere.of_frame {act : Act Cb} {x : Frame} (hx : x.isInvocation = false)  :
    Elsewhere s act (s.frame f x) := by
  refine ⟨?_, rfl, rfl, rfl, fun _ _ _ hreg => hreg, .inl rfl⟩
  intro g inv hinv
  rcases frame_cases rfl hinv with ⟨-, rfl⟩ | ⟨-, hinv⟩
  · cases hx
  · exact hinv

theorem elsewhere_closeStep {act : Act Cb} {fd : Nat} {hasIom : Bool} {ctl : EpollCtl}
    {pc : ClosePc} (h : s.closeStep f fd hasIom ctl pc = some s') : Elsewhere s act s' := by
  have hframe : ∀ x : Frame, x.isInvocation = false → Elsewhere s act (s.frame f x) :=
    fun _ hx => .of_frame hx
  cases pc with
  | get =>
    obtain rfl := Option.some.inj h
    exact hframe _ rfl
  | cancelAll =>
    rcases ite_eq_iff.mp h with ⟨-, hs'⟩ | ⟨-, hs'⟩
    · split at hs'
      · rename_i b io hcancel
        obtain rfl := Option.some.inj hs'
        exact { hframe (.closing fd .delFd) rfl with
          registered := fun _ _ _ => (IOManager.cancelAll_shrinks hcancel).registered }
      · cases hs'
    · obtain rfl := Option.some.inj hs'
      exact hframe _ rfl
  | delFd =>
    obtain rfl := Option.some.inj h
    exact { hframe (.closing fd .close_f) rfl with }
  | close_f =>
    obtain rfl := Option.some.inj h
    exact { hframe .idle rfl with sockets := .inr (.inl ⟨fd, rfl⟩) }

theorem exec_cases {act : Act Cb} (h : s.exec act = some s') :
    (∃ f kind fd, act = .start f kind fd ∧ s' = { s with ids := s.ids + 1 }.put f {
      id := s.ids, kind, fd, started := s.sockets fd, timeout := none, cancelled := none,
      timer := none, pc := .enter }) ∨
    (∃ f m inv, act = .move f m ∧ s.frames f = .invocation inv ∧ s.move f inv m = some s') ∨
    (∃ i m t, act = .timer i m ∧ s.timers[i]? = some t ∧ s.timerMove i t m = some s') ∨
    Elsewhere s act s' := by
  cases act with
  | start f kind fd =>
    simp only [exec] at h
    split at h
    · exact .inl ⟨f, kind, fd, rfl, (Option.some.inj h).symm⟩
    · cases h
  | move f m =>
    simp only [exec] at h
    split at h
    · rename_i inv hinv
      exact .inr (.inl ⟨f, m, inv, rfl, hinv, h⟩)
    · cases h
  | timer i m =>
    simp only [exec] at h
    split at h
    · rename_i t ht
      exact .inr (.inr (.inl ⟨i, m, t, rfl, ht, h⟩))
    · cases h
  | socket f fd =>
    simp only [exec, assign] at h
    split at h
    · obtain ⟨t, hassign, hs'⟩ := Option.bind_eq_some_iff.mp h
      obtain ⟨-, ht⟩ := Option.ite_none_right_eq_some.mp hassign
      obtain rfl := Option.some.inj ht
      obtain rfl := Option.some.inj hs'
      have hframe : Elsewhere s (.socket f fd) (s.frame f (.opened fd)) := .of_frame rfl
      exact .inr (.inr (.inr { hframe with
        sockets := .inr (.inr ⟨fd, s.identities, rfl, rfl⟩) }))
    · cases h
  | get f fstat =>
    simp only [exec] at h
    split at h
    · obtain rfl := Option.some.inj h
      exact .inr (.inr (.inr (.of_frame (by split <;> rfl))))
    · split at h
      · obtain rfl := Option.some.inj h
        have hframe : Elsewhere s (.get f fstat) (s.frame f .idle) := .of_frame rfl
        exact .inr (.inr (.inr { hframe with }))
      · cases h
    · cases h
  | close f fd hookEnable =>
    simp only [exec] at h
    split at h
    · obtain rfl := Option.some.inj h
      exact .inr (.inr (.inr (.of_frame rfl)))
    · cases h
  | closeStep f hasIom ctl =>
    simp only [exec] at h
    split at h
    · exact .inr (.inr (.inr (elsewhere_closeStep h)))
    · cases h
  | event op ctl =>
    simp only [exec] at h
    split at h
    · cases h
    · rename_i hop hexec
      obtain rfl := Option.some.inj h
      exact .inr (.inr (.inr ⟨fun _ _ hinv => hinv, rfl, rfl, rfl,
        fun _ _ _ => IOManager.exec_registered hop hexec, .inl rfl⟩))
    · cases h
  | setsockopt fd type ms =>
    obtain rfl := Option.some.inj h
    exact .inr (.inr (.inr ⟨fun _ _ hinv => hinv, rfl, rfl, rfl, fun _ _ _ hreg => hreg, .inl rfl⟩))

end Sylar.Hook
