import Sylar.Lib.Run
import Sylar.Hook.Wake

/-! Which socket the calls of `do_io` act on. The descriptor is looked up again
on every retry, so the answer depends on what became of the number while the
fiber was suspended. -/
namespace Sylar.Hook

open Lib
open IOManager (Registered)

variable {Cb : Type} {s s' : Hook Cb} {f : Nat} {inv inv' : Invocation} {act : Act Cb}

def Kind.isDoIo : Kind → Bool
  | .doIo _ => true
  | .connect _ => false

def Invocation.inDoIo (inv : Invocation) : Bool := inv.kind.isDoIo && !inv.pc.returned

/-- No number is handed out while an invocation of `do_io` on it is in progress. -/
def Unrecycled (s : Hook Cb) (act : Act Cb) : Prop :=
  ∀ fd, Opens s act fd → ∀ g inv, s.frames g = .invocation inv → inv.inDoIo = true → inv.fd ≠ fd

/-- No fiber comes back to a `do_io` on a number that is still open while a
`close` of it is past its `cancelAll`. -/
def Undisturbed (s : Hook Cb) : Act Cb → Prop
  | .move f (.resume _) => ∀ inv, s.frames f = .invocation inv → inv.kind.isDoIo = true →
    s.sockets inv.fd = none ∨
      ∀ g, s.frames g ≠ .closing inv.fd .delFd ∧ s.frames g ≠ .closing inv.fd .close_f
  | _ => True

structure Orderly (s : Hook Cb) (act : Act Cb) : Prop where
  unrecycled : Unrecycled s act
  undisturbed : Undisturbed s act

structure Continues (inv inv' : Invocation) : Prop where
  id : inv'.id = inv.id
  kind : inv'.kind = inv.kind
  fd : inv'.fd = inv.fd
  started : inv'.started = inv.started
  running : inv'.pc.returned = false → inv.pc.returned = false

theorem Continues.refl (inv : Invocation) : Continues inv inv := ⟨rfl, rfl, rfl, rfl, fun h => h⟩

theorem Follows.continues (h : Follows inv inv') : Continues inv inv' :=
  ⟨h.id, h.kind, h.fd, h.started, fun _ => h.running⟩

theorem Continues.inDoIo (h : Continues inv inv') (hin : inv'.inDoIo = true) :
    inv.inDoIo = true := by
  simp only [Invocation.inDoIo, Bool.and_eq_true, Bool.not_eq_true'] at hin ⊢
  exact ⟨h.kind ▸ hin.1, h.running hin.2⟩

/-- What a step may do to the invocations, the descriptor table and the list of
calls. -/
structure Effect (s : Hook Cb) (act : Act Cb) (s' : Hook Cb) : Prop where
  frames : ∀ g inv', s'.frames g = .invocation inv' →
    (∃ inv, s.frames g = .invocation inv ∧ Continues inv inv' ∧
      (inv'.pc = inv.pc ∨ ∃ m, s.move g inv m = some s')) ∨
      inv'.id = s.ids ∧ s.ids < s'.ids ∧ s'.sockets = s.sockets ∧ inv'.started = s.sockets inv'.fd
  ids : s.ids ≤ s'.ids
  sockets : s'.sockets = s.sockets ∨ (∃ fd, s'.sockets = Function.update s.sockets fd none) ∨
    ∃ fd k, Opens s act fd ∧ s'.sockets = Function.update s.sockets fd (some k)
  calls : s'.calls = s.calls ∨
    ∃ f inv a, s.frames f = .invocation inv ∧ inv.pc.returned = false ∧
      (s.sockets inv.fd = none → a = .err .EBADF) ∧
      s'.calls = s.calls ++ [⟨inv.id, inv.kind, inv.started, s.sockets inv.fd, a⟩]

theorem Effect.same (hframes : s'.frames = s.frames) (hids : s'.ids = s.ids)
    (hsockets : s'.sockets = s.sockets) (hcalls : s'.calls = s.calls) : Effect s act s' :=
  ⟨fun _ inv' hinv' => .inl ⟨inv', hframes ▸ hinv', .refl inv', .inl rfl⟩, hids.ge, .inl hsockets, .inl hcalls⟩

theorem effect_move {m : Move} (hinv : s.frames f = .invocation inv)
    (hmove : s.move f inv m = some s') : Effect s (.move f m) s' := by
  have hmoved := move_spec hmove
  obtain ⟨x, hframes, hfollows⟩ := hmoved.frames
  constructor
  · intro g inv' hinv'
    rcases frame_cases hframes hinv' with ⟨rfl, hx⟩ | ⟨-, hinv'⟩
    · exact .inl ⟨inv, hinv, (hfollows inv' hx).continues, .inr ⟨m, hmove⟩⟩
    · exact .inl ⟨inv', hinv', .refl inv', .inl rfl⟩
  · exact hmoved.ids.ge
  · rcases hmoved.table with ⟨hsockets, -⟩ | ⟨a, rfl, -, -, -, hsockets | ⟨fd, hkind, rfl, hsockets⟩⟩
    · exact .inl hsockets
    · exact .inl hsockets
    · exact .inr (.inr ⟨fd, s.identities, ⟨rfl, inv, hinv, hkind⟩, hsockets⟩)
  · rcases hmoved.table with ⟨-, hcalls⟩ | ⟨a, -, hrunning, hbad, hcalls, -⟩
    · exact .inl hcalls
    · exact .inr ⟨f, inv, a, hinv, hrunning, hbad, hcalls⟩

theorem effect_start (f : Nat) (kind : Kind) (fd : Nat) :
    Effect s act ({ s with ids := s.ids + 1 }.put f {
      id := s.ids, kind, fd, started := s.sockets fd, timeout := none, cancelled := none,
      timer := none, pc := .enter }) := by
  refine ⟨?_, Nat.le_succ _, .inl rfl, .inl rfl⟩
  intro g inv' hinv'
  rcases frame_cases rfl hinv' with ⟨-, hx⟩ | ⟨-, hinv'⟩
  · cases hx
    exact .inr ⟨rfl, Nat.lt_succ_self _, rfl, rfl⟩
  · exact .inl ⟨inv', hinv', .refl inv', .inl rfl⟩

theorem effect_timerMove {i : Nat} {t : CondTimer} {m : TimerMove}
    (hmove : s.timerMove i t m = some s') : Effect s act s' := by
  cases m with
  | extract =>
    obtain ⟨-, hs'⟩ := Option.ite_none_right_eq_some.mp hmove
    obtain rfl := Option.some.inj hs'
    exact .same rfl rfl rfl rfl
  | test =>
    obtain ⟨-, hs'⟩ := Option.ite_none_right_eq_some.mp hmove
    split at hs'
    all_goals
      obtain rfl := Option.some.inj hs'
      exact .same rfl rfl rfl rfl
  | mark =>
    obtain ⟨-, hs'⟩ := Option.ite_none_right_eq_some.mp hmove
    split at hs'
    · obtain rfl := Option.some.inj hs'
      exact .same rfl rfl rfl rfl
    · rename_i inv hlock
      obtain rfl := Option.some.inj hs'
      refine ⟨?_, le_rfl, .inl rfl, .inl rfl⟩
      intro g inv' hinv'
      rcases frame_cases rfl hinv' with ⟨rfl, hx⟩ | ⟨-, hinv'⟩
      · cases hx
        exact .inl ⟨inv, (lock_eq_some hlock).1, ⟨rfl, rfl, rfl, rfl, fun h => h⟩, .inl rfl⟩
      · exact .inl ⟨inv', hinv', .refl inv', .inl rfl⟩
  | cancel ctl =>
    obtain ⟨-, hs'⟩ := Option.ite_none_right_eq_some.mp hmove
    split at hs'
    · obtain rfl := Option.some.inj hs'
      exact .same rfl rfl rfl rfl
    · cases hs'

theorem exec_effect (hstep : s.exec act = some s') : Effect s act s' := by
  rcases exec_cases hstep with ⟨f, kind, fd, rfl, rfl⟩ | ⟨f, m, inv, rfl, hinv, hmove⟩ |
    ⟨i, m, t, rfl, ht, hmove⟩ | helse
  · exact effect_start f kind fd
  · exact effect_move hinv hmove
  · exact effect_timerMove hmove
  · refine ⟨?_, helse.ids.ge, helse.sockets, .inl helse.calls⟩
    intro g inv hinv
    exact .inl ⟨inv, helse.frames g inv hinv, .refl inv, .inl rfl⟩

theorem Effect.keeps_socket (h : Effect s act s') (hact : Unrecycled s act) {g : Nat}
    (hinv : s.frames g = .invocation inv) (hin : inv.inDoIo = true) :
    s'.sockets inv.fd = none ∨ s'.sockets inv.fd = s.sockets inv.fd := by
  rcases h.sockets with hsame | ⟨fd, hfreed⟩ | ⟨fd, k, hopens, hopened⟩
  · exact .inr (congrFun hsame _)
  · by_cases hfd : inv.fd = fd
    · left
      rw [hfreed, hfd, Function.update_self]
    · right
      rw [hfreed, Function.update_of_ne hfd]
  · right
    rw [hopened, Function.update_of_ne (hact fd hopens g inv hinv hin)]

structure Steady (s : Hook Cb) : Prop where
  ids : ∀ g inv, s.frames g = .invocation inv → inv.id < s.ids
  sockets : ∀ g inv, s.frames g = .invocation inv → inv.inDoIo = true →
    s.sockets inv.fd = none ∨ s.sockets inv.fd = inv.started
  calls : ∀ c ∈ s.calls, c.kind.isDoIo = true →
    (∀ k, c.acted = some k → c.started = some k) ∧ (c.acted = none → c.answer = .err .EBADF)

theorem steady_init : Steady (init : Hook Cb) := by
  constructor <;> simp [init]

theorem Steady.step (h : Steady s) (hact : Unrecycled s act) (heffect : Effect s act s') :
    Steady s' := by
  constructor
  · intro g inv' hinv'
    rcases heffect.frames g inv' hinv' with ⟨inv, hinv, hcont, -⟩ | ⟨hid, hlt, -, -⟩
    · rw [hcont.id]
      exact (h.ids g inv hinv).trans_le heffect.ids
    · rw [hid]
      exact hlt
  · intro g inv' hinv' hin'
    rcases heffect.frames g inv' hinv' with ⟨inv, hinv, hcont, -⟩ | ⟨-, -, hsame, hstarted⟩
    · rw [hcont.fd, hcont.started]
      have hin := hcont.inDoIo hin'
      rcases heffect.keeps_socket hact hinv hin with hfree | hsame
      · exact .inl hfree
      · rw [hsame]
        exact h.sockets g inv hinv hin
    · exact .inr ((congrFun hsame _).trans hstarted.symm)
  · rcases heffect.calls with hcalls | ⟨f, inv, a, hinv, hrunning, hbad, hcalls⟩
    · rw [hcalls]
      exact h.calls
    · intro c hc hkind
      rw [hcalls] at hc
      rcases List.mem_append.mp hc with hc | hc
      · exact h.calls c hc hkind
      obtain rfl := List.mem_singleton.mp hc
      have hin : inv.inDoIo = true := by
        simp only [Invocation.inDoIo, hrunning, show inv.kind.isDoIo = true from hkind]
        rfl
      refine ⟨?_, hbad⟩
      intro k hk
      rcases h.sockets f inv hinv hin with hfree | hsame
      · exact absurd (hfree.symm.trans hk) (by simp)
      · exact hsame.symm.trans hk

@[simp] theorem answered_EBADF (inv : Invocation) : inv.answered (.err .EBADF) = .ret (-1) := by
  simp only [Invocation.answered]
  split <;> simp_all [Answer.value]

theorem perform_EBADF (s : Hook Cb) (inv : Invocation) :
    ∃ t, s.perform inv (.err .EBADF) = some t := by
  simp [perform]

theorem checked_doIo (h : inv.kind.isDoIo = true) :
    inv.checked = .call ∨ inv.checked = .ret (-1) := by
  simp only [Invocation.checked]
  split
  · exact .inr rfl
  · split
    · exact .inl rfl
    · rename_i hkind
      rw [hkind] at h
      cases h

section Moves

variable {m : Move}

theorem move_yield (hpc : inv.pc = .yield) (h : s.move f inv m = some s') :
    s' = s.put f { inv with pc := .suspended } := by
  cases m <;> simp [move, hpc] at h
  exact h.symm

theorem move_suspended (hpc : inv.pc = .suspended) (h : s.move f inv m = some s') :
    ∃ k, m = .resume k ∧
      s' = { s with resumed := k :: s.resumed }.put f { inv with pc := .resumed } := by
  cases m <;> simp [move, hpc] at h
  exact ⟨_, rfl, h.2.symm⟩

theorem move_resumed (hpc : inv.pc = .resumed) (h : s.move f inv m = some s') :
    s' = (s.disarm inv).put f { inv with pc := .check } := by
  cases m <;> simp [move, hpc] at h
  exact h.symm

theorem move_check (hpc : inv.pc = .check) (h : s.move f inv m = some s') :
    s' = s.put f { inv with pc := inv.checked } := by
  cases m <;> simp [move, hpc] at h
  exact h.symm

theorem move_call (hpc : inv.pc = .call) (hfree : s.sockets inv.fd = none)
    (h : s.move f inv m = some s') : s'.frames f = .invocation { inv with pc := .ret (-1) } := by
  cases m <;> simp only [move, hpc, reduceCtorEq, false_and, if_false] at h
  obtain ⟨t, hperform, hs'⟩ := Option.bind_eq_some_iff.mp h
  obtain rfl := Option.some.inj hs'
  obtain ⟨-, -, -, -, hbad, -, -⟩ := perform_spec hperform
  rw [hbad hfree, answered_EBADF, frames_put]

theorem move_ret {r : Int} (hpc : inv.pc = .ret r) (h : s.move f inv m = some s') :
    m = .leave := by
  cases m <;> simp [move, hpc] at h
  rfl

end Moves

/-- How many steps an invocation that was woken has left at most. -/
def Pc.left : Pc → Nat
  | .yield => 5
  | .suspended => 4
  | .resumed => 3
  | .check => 2
  | .call => 1
  | _ => 0

/-- Past its wait, the invocation has only a free number to call on. -/
def Pc.retrying : Pc → Bool
  | .resumed | .check | .call => true
  | _ => false

@[simp] theorem Pc.waiting_iff {pc : Pc} : pc.waiting = true ↔ pc = .yield ∨ pc = .suspended := by
  cases pc <;> simp [Pc.waiting]

@[simp] theorem Pc.retrying_iff {pc : Pc} :
    pc.retrying = true ↔ pc = .resumed ∨ pc = .check ∨ pc = .call := by
  cases pc <;> simp [Pc.retrying]

def Freed (s : Hook Cb) (g fd : Nat) : Prop :=
  s.sockets fd = none ∨ s.frames g = .closing fd .delFd ∨ s.frames g = .closing fd .close_f

/-- Where an invocation of `f` can be that the `close` of `g` has woken. -/
def Fails (s : Hook Cb) (f g : Nat) (inv : Invocation) : Prop :=
  inv.pc.waiting = true ∧ (∃ k, s.woken f k = true) ∧ Freed s g inv.fd ∨
    inv.pc.retrying = true ∧ s.sockets inv.fd = none ∨ inv.pc = .ret (-1)

structure Woken (s : Hook Cb) (f g i fd n : Nat) (inv : Invocation) : Prop where
  frame : s.frames f = .invocation inv
  id : inv.id = i
  kind : inv.kind.isDoIo = true
  fd : inv.fd = fd
  left : inv.pc.left + n ≤ 5
  fails : Fails s f g inv

theorem Fails.inDoIo {g : Nat} (h : Fails s f g inv) (hkind : inv.kind.isDoIo = true)
    (hret : inv.pc ≠ .ret (-1)) : inv.inDoIo = true := by
  simp only [Invocation.inDoIo, hkind, Bool.true_and, Bool.not_eq_true']
  rcases h with ⟨hpc, -⟩ | ⟨hpc, -⟩ | hpc
  · rcases Pc.waiting_iff.mp hpc with hat | hat <;> rw [hat] <;> rfl
  · rcases Pc.retrying_iff.mp hpc with hat | hat | hat <;> rw [hat] <;> rfl
  · exact absurd hpc hret

/-- The closing fiber goes on until the number is free, and it stays free. -/
theorem Freed.step {g h' fd : Nat} (h : Freed s g fd) (horderly : Unrecycled s act)
    (hstep : s.exec act = some s') (hinv : s.frames h' = .invocation inv)
    (hin : inv.inDoIo = true) (hfd : inv.fd = fd) : Freed s' g fd := by
  subst hfd
  have hkeeps := (exec_effect hstep).keeps_socket horderly hinv hin
  have hclosing : ∀ pc, s.frames g = .closing inv.fd pc → act.fiber ≠ some g →
      s'.frames g = .closing inv.fd pc := by
    intro pc hpc hact
    rcases (exec_hands hstep).others _ hact with hsame | ⟨x, hx, -⟩
    · exact hsame.trans hpc
    · cases hpc.symm.trans hx
  rcases h with hfree | hpc | hpc
  · exact .inl (hkeeps.elim (fun hnone => hnone) fun hsame => hsame.trans hfree)
  · by_cases hact : act.fiber = some g
    · obtain ⟨hasIom, ctl, hclose⟩ := exec_closing hstep hact hpc
      obtain rfl := Option.some.inj hclose
      exact .inr (.inr (Function.update_self ..))
    · exact .inr (.inl (hclosing _ hpc hact))
  · by_cases hact : act.fiber = some g
    · obtain ⟨hasIom, ctl, hclose⟩ := exec_closing hstep hact hpc
      obtain rfl := Option.some.inj hclose
      exact .inl (Function.update_self ..)
    · exact .inr (.inr (hclosing _ hpc hact))

variable {g i fd n : Nat}

theorem Woken.other (h : Woken s f g i fd n inv) (hsound : IOManager.Sound s.io)
    (horderly : Orderly s act) (hstep : s.exec act = some s') (hact : act.fiber ≠ some f) :
    ∃ inv', Woken s' f g i fd n inv' := by
  have hfails : Fails s' f g inv := by
    have hfreed : ∀ hret : inv.pc ≠ .ret (-1), Freed s g inv.fd → Freed s' g inv.fd :=
      fun hret hfreed => hfreed.step horderly.unrecycled hstep h.frame
        (h.fails.inDoIo h.kind hret) rfl
    rcases h.fails with ⟨hpc, ⟨k, hk⟩, hfree⟩ | ⟨hpc, hfree⟩ | hpc
    · refine .inl ⟨hpc, ⟨k, woken_step hsound hstep hact hk⟩, hfreed ?_ hfree⟩
      rintro hret
      rw [hret] at hpc
      cases hpc
    · have hret : inv.pc ≠ .ret (-1) := by
        rintro hret
        rw [hret] at hpc
        cases hpc
      have hkeeps := (exec_effect hstep).keeps_socket horderly.unrecycled h.frame
        (h.fails.inDoIo h.kind hret)
      exact .inr (.inl ⟨hpc, hkeeps.elim (fun hnone => hnone) fun hsame => hsame.trans hfree⟩)
    · exact .inr (.inr hpc)
  rcases (exec_hands hstep).others _ hact with hsame | ⟨x, hx, hmarked⟩
  · exact ⟨inv, hsame.trans h.frame, h.id, h.kind, h.fd, h.left, hfails⟩
  · obtain rfl := Frame.invocation.inj (h.frame.symm.trans hx)
    exact ⟨_, hmarked, h.id, h.kind, h.fd, h.left, hfails⟩

theorem Woken.move {m : Move} (h : Woken s f g i fd n inv) (horderly : Orderly s (.move f m))
    (hmove : s.move f inv m = some s') (hret : inv.pc ≠ .ret (-1)) :
    ∃ inv', Woken s' f g i fd (n + 1) inv' := by
  have hleft := h.left
  rcases h.fails with ⟨hpc, hwoken, hfree⟩ | ⟨hpc, hfree⟩ | hpc
  · rcases Pc.waiting_iff.mp hpc with hat | hat
    · obtain rfl := move_yield hat hmove
      rw [hat] at hleft
      refine ⟨_, frames_put _, h.id, h.kind, h.fd, ?_, .inl ⟨rfl, hwoken, ?_⟩⟩
      · simp only [Pc.left] at hleft ⊢
        omega
      · refine hfree.imp_right ?_
        have hne : ∀ pc, s.frames g = .closing inv.fd pc → g ≠ f := by
          rintro pc hpc rfl
          cases hpc.symm.trans h.frame
        exact Or.imp (fun hpc => (Function.update_of_ne (hne _ hpc) _ _).trans hpc)
          fun hpc => (Function.update_of_ne (hne _ hpc) _ _).trans hpc
    · obtain ⟨k, rfl, rfl⟩ := move_suspended hat hmove
      rw [hat] at hleft
      refine ⟨_, frames_put _, h.id, h.kind, h.fd, ?_, .inr (.inl ⟨rfl, ?_⟩)⟩
      · simp only [Pc.left] at hleft ⊢
        omega
      -- it may come back only when the number is free
      · rcases horderly.undisturbed inv h.frame h.kind with hnone | hnobody
        · exact hnone
        · exact hfree.elim (fun hnone => hnone) fun hclosing =>
            hclosing.elim (fun hpc => absurd hpc (hnobody g).1) fun hpc =>
              absurd hpc (hnobody g).2
  · rcases Pc.retrying_iff.mp hpc with hat | hat | hat
    · obtain rfl := move_resumed hat hmove
      rw [hat] at hleft
      refine ⟨_, frames_put _, h.id, h.kind, h.fd, ?_, .inr (.inl ⟨rfl, ?_⟩)⟩
      · simp only [Pc.left] at hleft ⊢
        omega
      · exact (congrFun (sockets_disarm s inv) _).trans hfree
    · obtain rfl := move_check hat hmove
      rw [hat] at hleft
      refine ⟨_, frames_put _, h.id, h.kind, h.fd, ?_, ?_⟩
      · rcases checked_doIo h.kind with hchecked | hchecked
        all_goals
          simp only [hchecked, Pc.left] at hleft ⊢
          omega
      · rcases checked_doIo h.kind with hchecked | hchecked
        · exact .inr (.inl ⟨by rw [hchecked]; rfl, hfree⟩)
        · exact .inr (.inr hchecked)
    · rw [hat] at hleft
      refine ⟨_, move_call hat hfree hmove, h.id, h.kind, h.fd, ?_, .inr (.inr rfl)⟩
      simp only [Pc.left] at hleft ⊢
      omega
  · exact absurd hpc hret

/-- Once its number is free an invocation that was woken can go on. -/
theorem Woken.moves (h : Woken s f g i fd n inv) (hfree : s.sockets fd = none) :
    inv.pc = .ret (-1) ∨ ∃ m s', Orderly s (.move f m) ∧ s.exec (.move f m) = some s' := by
  have hexec : ∀ m, s.exec (.move f m) = s.move f inv m := fun m => by simp only [exec, h.frame]
  obtain rfl := h.fd
  rcases h.fails with ⟨hpc, ⟨k, hk⟩, -⟩ | ⟨hpc, -⟩ | hpc
  · right
    rcases Pc.waiting_iff.mp hpc with hat | hat
    · exact ⟨.hold, _, ⟨fun _ => False.elim, trivial⟩, (hexec _).trans (if_pos hat)⟩
    · refine ⟨.resume k, _, ⟨fun _ => False.elim, ?_⟩, (hexec _).trans (if_pos ⟨hat, hk⟩)⟩
      intro x hx _
      obtain rfl := Frame.invocation.inj (h.frame.symm.trans hx)
      exact .inl hfree
  · right
    rcases Pc.retrying_iff.mp hpc with hat | hat | hat
    · refine ⟨.disarm, (s.disarm inv).put f { inv with pc := .check },
        ⟨fun _ => False.elim, trivial⟩, (hexec _).trans ?_⟩
      simp only [Hook.move, hat]
    · exact ⟨.check, _, ⟨fun _ => False.elim, trivial⟩, (hexec _).trans (if_pos hat)⟩
    · obtain ⟨t, ht⟩ := s.perform_EBADF inv
      refine ⟨.call (.err .EBADF), t.put f { inv with pc := inv.answered (.err .EBADF) },
        ⟨fun _ => False.elim, trivial⟩, (hexec _).trans ?_⟩
      simp only [Hook.move, hat, ht]
      rfl
  · exact .inl hpc

def Act.isMove (f : Nat) : Act Cb → Bool
  | .move g _ => g == f
  | _ => false

def Returned (s : Hook Cb) (f i : Nat) (acts : List (Act Cb)) : Prop :=
  ∃ before after t inv, acts = before ++ .move f .leave :: after ∧
    Run (fun s act s' => Orderly s act ∧ s.exec act = some s') s before t ∧
    t.frames f = .invocation inv ∧ inv.id = i ∧ inv.pc = .ret (-1)

theorem Returned.snoc {acts : List (Act Cb)} (h : Returned s f i acts) (act : Act Cb) :
    Returned s f i (acts ++ [act]) := by
  obtain ⟨before, after, t, inv, rfl, rest⟩ := h
  exact ⟨before, after ++ [act], t, inv, by simp, rest⟩

theorem Woken.run (h : Woken s f g i fd 0 inv) (hready : Ready s) {acts : List (Act Cb)}
    (run : Run (fun s act s' => Orderly s act ∧ s.exec act = some s') s acts s') :
    Returned s f i acts ∨ ∃ inv', Woken s' f g i fd (acts.countP (Act.isMove f)) inv' := by
  induction run with
  | start => exact .inr ⟨inv, h⟩
  | @snoc acts t act t' run hstep ih =>
    rcases ih with hret | ⟨x, hx⟩
    · exact .inl (hret.snoc act)
    by_cases hact : act.fiber = some f
    · obtain ⟨m, rfl, hmove⟩ := exec_invocation hstep.2 hact hx.frame
      by_cases hret : x.pc = .ret (-1)
      · obtain rfl := move_ret hret hmove
        exact .inl ⟨acts, [], t, x, rfl, run, hx.frame, hx.id, hret⟩
      · have hcount : (acts ++ [Act.move f m]).countP (Act.isMove f) =
            acts.countP (Act.isMove f) + 1 := by
          simp [Act.isMove]
        rw [hcount]
        exact .inr (hx.move hstep.1 hmove hret)
    · have hcount : (acts ++ [act]).countP (Act.isMove f) = acts.countP (Act.isMove f) := by
        have hnot : Act.isMove f act = false := by
          cases act <;> simp_all [Act.isMove, Act.fiber]
        simp [hnot]
      rw [hcount]
      have hready' : Ready t := run.invariant hready fun _ _ _ h hstep => h.step hstep.2
      exact .inr (hx.other hready'.sound hstep.1 hstep.2 hact)

/-- As long as no number is handed out while a `do_io` on it is in progress,
every call that reaches a socket reaches the one the descriptor denoted at the
start and the others fail with `EBADF`. An invocation that waits when `close`
cancels its event returns -1, after five steps at most, if nobody comes back to
the number before `close` has freed it. -/
theorem run_calls_first_socket {acts : List (Act Cb)}
    (run : Run (fun s act s' => Orderly s act ∧ s.exec act = some s') init acts s) :
    (∀ c ∈ s.calls, c.kind.isDoIo = true →
      (∀ k, c.acted = some k → c.started = some k) ∧ (c.acted = none → c.answer = .err .EBADF)) ∧
    ∀ f g inv ctl s₁, s.frames f = .invocation inv → inv.kind.isDoIo = true →
      inv.pc.waiting = true → Registered s.io inv.fd inv.kind.event f →
      s.frames g = .closing inv.fd .cancelAll → s.exec (.closeStep g true ctl) = some s₁ →
      ∀ acts' s', Run (fun s act s' => Orderly s act ∧ s.exec act = some s') s₁ acts' s' →
        Returned s₁ f inv.id acts' ∨
          ∃ inv', s'.frames f = .invocation inv' ∧ inv'.id = inv.id ∧
            (∀ r, inv'.pc = .ret r → r = -1) ∧
            (5 ≤ acts'.countP (Act.isMove f) → inv'.pc = .ret (-1)) ∧
            (s'.sockets inv.fd = none → inv'.pc = .ret (-1) ∨
              ∃ m s'', Orderly s' (.move f m) ∧ s'.exec (.move f m) = some s'') := by
  obtain ⟨hsteady, hready⟩ : Steady s ∧ Ready s :=
    run.invariant (I := fun s => Steady s ∧ Ready s) ⟨steady_init, ready_init⟩
      fun _ _ _ h hstep => ⟨h.1.step hstep.1.unrecycled (exec_effect hstep.2), h.2.step hstep.2⟩
  refine ⟨hsteady.calls, ?_⟩
  intro f g inv ctl s₁ hinv hkind hpc hreg hclosing hcancel acts' s' run'
  have hne : f ≠ g := by
    rintro rfl
    cases hinv.symm.trans hclosing
  have hready₁ := hready.step hcancel
  simp only [exec, hclosing] at hcancel
  obtain ⟨hwoken, hframes⟩ := cancelAll_woken hready hreg hcancel
  have hstart : Woken s₁ f g inv.id inv.fd 0 inv := by
    refine ⟨?_, rfl, hkind, rfl, ?_, .inl ⟨hpc, hwoken, .inr (.inl ?_)⟩⟩
    · rw [hframes, Function.update_of_ne hne, hinv]
    · cases hat : inv.pc <;> simp [Pc.left]
    · rw [hframes, Function.update_self]
  refine (hstart.run hready₁ run').imp_right ?_
  rintro ⟨inv', h⟩
  refine ⟨inv', h.frame, h.id, ?_, ?_, h.moves⟩
  · intro r hr
    rcases h.fails with ⟨hwait, -⟩ | ⟨hretry, -⟩ | hret
    · rw [hr] at hwait
      cases hwait
    · rw [hr] at hretry
      cases hretry
    · exact Pc.ret.inj (hr.symm.trans hret)
  · intro hcount
    have hleft := h.left
    rcases h.fails with ⟨hwait, -⟩ | ⟨hretry, -⟩ | hret
    · rcases Pc.waiting_iff.mp hwait with hat | hat
      all_goals
        simp only [hat, Pc.left] at hleft
        omega
    · rcases Pc.retrying_iff.mp hretry with hat | hat | hat
      all_goals
        simp only [hat, Pc.left] at hleft
        omega
    · exact hret

/-- A `read` is about to yield when its descriptor is closed; it goes on when the
number is free, and fails. -/
theorem run_calls_first_socket_closed :
    ∃ (acts acts' : List (Act Nat)) (s s₁ s' : Hook Nat),
      Run (fun s act s' => Orderly s act ∧ s.exec act = some s') init acts s ∧
      s.exec (.closeStep 2 true fun _ _ _ => true) = some s₁ ∧
      Run (fun s act s' => Orderly s act ∧ s.exec act = some s') s₁ acts' s' ∧
      s'.calls.map Call.answer = [.err .EAGAIN, .err .EBADF] ∧
      (∀ c ∈ s.calls, c.kind.isDoIo = true → (∀ k, c.acted = some k → c.started = some k) ∧
        (c.acted = none → c.answer = .err .EBADF)) ∧
      ∃ inv, s'.frames 1 = .invocation inv ∧ inv.id = 0 ∧ inv.pc = .ret (-1) := by
  let succeed : EpollCtl := fun _ _ _ => true
  let first : List (Act Nat) := [.socket 1 5, .get 1 none, .get 1 (some true),
    .start 1 (.doIo .read) 5, .move 1 (.enter true), .move 1 (.call (.err .EAGAIN)), .move 1 .arm,
    .move 1 (.register succeed), .close 2 5 true, .closeStep 2 true succeed]
  let rest : List (Act Nat) := [.move 1 .hold, .closeStep 2 true succeed,
    .closeStep 2 true succeed, .move 1 (.resume 0), .move 1 .disarm, .move 1 .check,
    .move 1 (.call (.err .EBADF))]
  obtain ⟨s, run, inv, hinv, hid, hkind, hpc, hreg, hclosing, s₁, hcancel, s', run', hcalls⟩ :
      ∃ s, Run (fun s act s' => Orderly s act ∧ s.exec act = some s') init first s ∧
        ∃ inv, s.frames 1 = .invocation inv ∧ inv.id = 0 ∧ inv.kind.isDoIo = true ∧
          inv.pc.waiting = true ∧ Registered s.io inv.fd inv.kind.event 1 ∧
          s.frames 2 = .closing inv.fd .cancelAll ∧
          ∃ s₁, s.exec (.closeStep 2 true succeed) = some s₁ ∧
            ∃ s', Run (fun s act s' => Orderly s act ∧ s.exec act = some s') s₁ rest s' ∧
              s'.calls.map Call.answer = [.err .EAGAIN, .err .EBADF] := by
    exact ⟨_, .cons ⟨⟨fun _ _ _ _ hinv => Frame.noConfusion hinv, trivial⟩, rfl⟩
      (.cons ⟨⟨nofun, trivial⟩, rfl⟩ (.cons ⟨⟨nofun, trivial⟩, rfl⟩ (.cons ⟨⟨nofun, trivial⟩, rfl⟩
      (.cons ⟨⟨nofun, trivial⟩, rfl⟩ (.cons ⟨⟨nofun, trivial⟩, rfl⟩ (.cons ⟨⟨nofun, trivial⟩, rfl⟩
      (.cons ⟨⟨nofun, trivial⟩, rfl⟩ (.cons ⟨⟨nofun, trivial⟩, rfl⟩
      (.cons ⟨⟨nofun, trivial⟩, rfl⟩ .start))))))))),
      _, rfl, rfl, rfl, rfl, ⟨rfl, rfl⟩, rfl, _, rfl, _,
      .cons ⟨⟨nofun, trivial⟩, rfl⟩ (.cons ⟨⟨nofun, trivial⟩, rfl⟩ (.cons ⟨⟨nofun, trivial⟩, rfl⟩
      (.cons ⟨⟨nofun, fun _ hinv _ => .inl (Frame.invocation.inj hinv ▸ rfl)⟩, rfl⟩
      (.cons ⟨⟨nofun, trivial⟩, rfl⟩ (.cons ⟨⟨nofun, trivial⟩, rfl⟩
      (.cons ⟨⟨nofun, trivial⟩, rfl⟩ .start)))))), rfl⟩
  obtain ⟨hfirst, herror⟩ := run_calls_first_socket run
  refine ⟨first, rest, s, s₁, s', run, hcancel, run', hcalls, hfirst, ?_⟩
  rcases herror 1 2 inv succeed s₁ hinv hkind hpc hreg hclosing hcancel rest s' run' with
    ⟨before, after, _, _, hleave, -⟩ | ⟨inv', hinv', hid', -, hfive, -⟩
  · have hmem : Act.move 1 .leave ∈ rest := hleave ▸ by simp
    simp [rest] at hmem
  · exact ⟨inv', hinv', hid'.trans hid, hfive (by decide)⟩

/-- A `read` on descriptor 5 is suspended; the descriptor is closed, which wakes
the fiber, and the number is handed out again: the retry reads from the new
socket. -/
theorem retry_acts_on_recycled :
    ∃ acts s, Run (fun s act s' => s.exec act = some s') (init : Hook Nat) acts s ∧
      s.calls = [⟨0, .doIo .read, some 0, some 0, .err .EAGAIN⟩,
        ⟨0, .doIo .read, some 0, some 1, .ok 7⟩] := by
  let succeed : EpollCtl := fun _ _ _ => true
  exact ⟨[.socket 1 5, .get 1 none, .get 1 (some true), .start 1 (.doIo .read) 5,
      .move 1 (.enter true), .move 1 (.call (.err .EAGAIN)), .move 1 .arm,
      .move 1 (.register succeed), .move 1 .hold, .close 2 5 true, .closeStep 2 true succeed,
      .closeStep 2 true succeed, .closeStep 2 true succeed, .closeStep 2 true succeed, .socket 3 5,
      .move 1 (.resume 0), .move 1 .disarm, .move 1 .check, .move 1 (.call (.ok 7))], _,
    .cons rfl (.cons rfl (.cons rfl (.cons rfl (.cons rfl (.cons rfl (.cons rfl (.cons rfl
      (.cons rfl (.cons rfl (.cons rfl (.cons rfl (.cons rfl (.cons rfl (.cons rfl (.cons rfl
      (.cons rfl (.cons rfl (.cons rfl .start)))))))))))))))))), rfl⟩

end Sylar.Hook
