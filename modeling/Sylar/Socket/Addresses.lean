import Mathlib.Data.List.Induction
import Sylar.Lib.Run

/-! The addresses of a `Socket`. `getLocalAddress` and `getRemoteAddress` keep the first
address they read; `bind`, `connect` and `close` change the kernel's socket and never the
kept addresses. An address is the bytes of its `sockaddr`. What the kernel answers comes
with each call. -/
namespace Sylar

abbrev Address := List UInt8

inductive Family where
  | IPv4
  | IPv6
  | UNIX
  | other (af : Nat)
  deriving DecidableEq, Repr

def Address.blank (af size : Nat) : Address :=
  UInt8.ofNat af :: UInt8.ofNat (af / 256) :: List.replicate (size - 2) 0

/-- The object that the `switch` on the family makes. `IPv6Address()` is marked with
`AF_INET`; the case of `AF_UNIX` falls through to the default. -/
def Family.object : Family → Address
  | .IPv4 => .blank 2 16
  | .IPv6 => .blank 2 28
  | .UNIX => .blank 1 16
  | .other af => .blank af 16

def Family.unknown : Family → Address
  | .IPv4 => .blank 2 16
  | .IPv6 => .blank 10 16
  | .UNIX => .blank 1 16
  | .other af => .blank af 16

/-- The object after the kernel has copied a name into it, as much as fits. -/
def Family.received (family : Family) (name : Address) : Address :=
  name.take family.object.length ++ family.object.drop name.length

structure Kernel where
  localName : Address
  peerName : Option Address
  deriving DecidableEq

/-- `kernel` is `none` while `m_sock` is -1. -/
structure Socket where
  family : Family
  kernel : Option Kernel
  isConnected : Bool
  localAddress : Option Address
  remoteAddress : Option Address
  deriving DecidableEq

namespace Socket

inductive Fault where
  | nullPointer
  deriving DecidableEq, Repr

def new (family : Family) : Socket := ⟨family, none, false, none, none⟩

/-- The body of both getters: the kept address and what the kernel reports, to the result
and what is kept. A `UNIX` object is an `UnknownAddress`, so its cast gives a null. -/
def getAddress (family : Family) (kept name : Option Address) :
    Except Fault (Address × Option Address) :=
  match kept with
  | some a => .ok (a, some a)
  | none =>
    match name with
    | none => .ok (family.unknown, none)
    | some name =>
      if family = .UNIX then .error .nullPointer
      else .ok (family.received name, some (family.received name))

def getRemoteAddress (s : Socket) : Except Fault (Address × Socket) := do
  let (result, kept) ← getAddress s.family s.remoteAddress (s.kernel.bind (·.peerName))
  .ok (result, { s with remoteAddress := kept })

def getLocalAddress (s : Socket) : Except Fault (Address × Socket) := do
  let (result, kept) ← getAddress s.family s.localAddress (s.kernel.map (·.localName))
  .ok (result, { s with localAddress := kept })

/-- `newSock()` where `m_sock` is -1; `socket()` gives the name of the new socket. -/
def ensure (s : Socket) (sock : Option Address) : Socket :=
  match s.kernel with
  | some _ => s
  | none => { s with kernel := sock.map (⟨·, none⟩) }

def bind (s : Socket) (family : Family) (sock result : Option Address) :
    Except Fault (Bool × Socket) :=
  let s := s.ensure sock
  match s.kernel with
  | none => .ok (false, s)
  | some k =>
    if family ≠ s.family then .ok (false, s)
    else
      match result with
      | none => .ok (false, s)
      | some name => do
        let (_, s) ← getLocalAddress { s with kernel := some { k with localName := name } }
        .ok (true, s)

def close (s : Socket) : Bool × Socket :=
  if !s.isConnected && s.kernel.isNone then (true, s)
  else (false, { s with isConnected := false, kernel := none })

/-- With and without a timeout; the kernel's result is the local and the peer name. -/
def connect (s : Socket) (family : Family) (sock : Option Address)
    (result : Option (Address × Address)) : Except Fault (Bool × Socket) :=
  let s := s.ensure sock
  match s.kernel with
  | none => .ok (false, s)
  | some _ =>
    if family ≠ s.family then .ok (false, s)
    else
      match result with
      | none => .ok (false, s.close.2)
      | some (name, peer) => do
        let s := { s with kernel := some ⟨name, some peer⟩, isConnected := true }
        let (_, s) ← s.getLocalAddress
        let (_, s) ← s.getRemoteAddress
        .ok (true, s)

inductive Op where
  | bind (family : Family) (sock result : Option Address)
  | connect (family : Family) (sock : Option Address) (result : Option (Address × Address))
  | close

def Op.run (s : Socket) : Op → Except Fault Socket
  | .bind family sock result => (s.bind family sock result).map Prod.snd
  | .connect family sock result => (s.connect family sock result).map Prod.snd
  | .close => .ok s.close.2

def run (s : Socket) : List Op → Except Fault Socket
  | [] => .ok s
  | op :: ops => do
    let s ← op.run s
    run s ops

/-- While the socket is connected, the getters return the names of the connection. -/
def Current (s : Socket) : Prop :=
  s.isConnected = true → ∃ k peer, s.kernel = some k ∧ k.peerName = some peer ∧
    (∃ s', s.getRemoteAddress = .ok (peer, s')) ∧ ∃ s', s.getLocalAddress = .ok (k.localName, s')

/-- The call gets as far as the kernel's `bind` or `connect`. -/
def Reaches (s : Socket) (family : Family) (sock : Option Address) : Prop :=
  (s.ensure sock).kernel.isSome = true ∧ family = s.family

def Shows (family : Family) (kept : Option Address) (name : Address) : Prop :=
  kept.getD (family.received name) = name

/-- A call that succeeds finds no address of another connection kept. -/
def Op.Keeps (s : Socket) : Op → Prop
  | .bind family sock (some name) => s.Reaches family sock →
      s.family ≠ .UNIX ∧ (s.isConnected = true → Shows s.family s.localAddress name)
  | .connect family sock (some (name, peer)) => s.Reaches family sock →
      s.family ≠ .UNIX ∧ Shows s.family s.localAddress name ∧
        Shows s.family s.remoteAddress peer
  | _ => True

/-- A `UNIX` socket never keeps an address, and a connected one keeps both. -/
structure Sound (s : Socket) : Prop where
  unix : s.family = .UNIX → s.localAddress = none ∧ s.remoteAddress = none
  connected : s.isConnected = true → ∃ k peer, s.kernel = some k ∧ k.peerName = some peer ∧
    s.localAddress.isSome = true ∧ s.remoteAddress.isSome = true

variable {s s' : Socket} {family : Family} {sock : Option Address}

@[simp] theorem getAddress_some (hfamily : family ≠ .UNIX) (kept : Option Address)
    (name : Address) : getAddress family kept (some name) =
      .ok (kept.getD (family.received name), some (kept.getD (family.received name))) := by
  cases kept with
  | none => simp only [getAddress, if_neg hfamily, Option.getD_none]
  | some a => rfl

theorem getLocalAddress_eq {t : Socket} {k : Kernel} (hfamily : t.family ≠ .UNIX)
    (hk : t.kernel = some k) :
    t.getLocalAddress = .ok (t.localAddress.getD (t.family.received k.localName),
      { t with localAddress := some (t.localAddress.getD (t.family.received k.localName)) }) := by
  simp only [getLocalAddress, hk, Option.map_some, getAddress_some hfamily]
  rfl

@[simp] theorem getLocalAddress_unix {t : Socket} {k : Kernel} (hfamily : t.family = .UNIX)
    (hk : t.kernel = some k) (hkept : t.localAddress = none) :
    t.getLocalAddress = .error .nullPointer := by
  simp only [getLocalAddress, hk, Option.map_some, hkept, hfamily]
  rfl

theorem getRemoteAddress_eq {t : Socket} {k : Kernel} {peer : Address}
    (hfamily : t.family ≠ .UNIX) (hk : t.kernel = some k) (hpeer : k.peerName = some peer) :
    t.getRemoteAddress = .ok (t.remoteAddress.getD (t.family.received peer),
      { t with remoteAddress := some (t.remoteAddress.getD (t.family.received peer)) }) := by
  simp only [getRemoteAddress, hk, Option.bind_some, hpeer, getAddress_some hfamily]
  rfl

theorem Sound.current_iff (h : Sound s) :
    Current s ↔ (s.isConnected = true → ∃ k peer, s.kernel = some k ∧ k.peerName = some peer ∧
      s.localAddress = some k.localName ∧ s.remoteAddress = some peer) := by
  refine forall_congr' fun hconn => ?_
  obtain ⟨k, peer, hk, hpeer, hlocal, hremote⟩ := h.connected hconn
  obtain ⟨l, hl⟩ := Option.isSome_iff_exists.mp hlocal
  obtain ⟨r, hr⟩ := Option.isSome_iff_exists.mp hremote
  have hget : (∃ s', s.getRemoteAddress = .ok (r, s')) ∧ ∃ s', s.getLocalAddress = .ok (l, s') := by
    constructor
    · exact ⟨_, by simp only [getRemoteAddress, hr, getAddress]; rfl⟩
    · exact ⟨_, by simp only [getLocalAddress, hl, getAddress]; rfl⟩
  obtain ⟨⟨s₁, hremote₁⟩, s₂, hlocal₂⟩ := hget
  simp only [hk, hl, hr, hremote₁, hlocal₂, Option.some.injEq, Except.ok.injEq, Prod.mk.injEq]
  constructor
  · rintro ⟨k', peer', hk', hpeer', ⟨_, hr', -⟩, _, hl', -⟩
    exact ⟨k', peer', hk', hpeer', hl', hr'⟩
  · rintro ⟨k', peer', hk', hpeer', hl', hr'⟩
    exact ⟨k', peer', hk', hpeer', ⟨s₁, hr', rfl⟩, s₂, hl', rfl⟩

theorem ensure_fields (s : Socket) (sock : Option Address) :
    (s.ensure sock).family = s.family ∧ (s.ensure sock).isConnected = s.isConnected ∧
      (s.ensure sock).localAddress = s.localAddress ∧
      (s.ensure sock).remoteAddress = s.remoteAddress := by
  unfold ensure
  split <;> exact ⟨rfl, rfl, rfl, rfl⟩

theorem Sound.ensure (h : Sound s) (sock : Option Address) : Sound (s.ensure sock) := by
  unfold Socket.ensure
  cases hk : s.kernel with
  | some k => exact h
  | none =>
    refine ⟨h.unix, fun hconn => ?_⟩
    obtain ⟨k, peer, hk', -⟩ := h.connected hconn
    rw [hk] at hk'
    cases hk'

theorem Sound.current_ensure (h : Sound s) (hcur : Current s) (sock : Option Address) :
    Current (s.ensure sock) := by
  unfold Socket.ensure
  cases hk : s.kernel with
  | some k => exact hcur
  | none =>
    intro hconn
    obtain ⟨k, peer, hk', -⟩ := h.connected hconn
    rw [hk] at hk'
    cases hk'

theorem sound_close (h : Sound s) : Sound s.close.2 ∧ s.close.2.isConnected = false := by
  unfold close
  split
  case isTrue hclosed =>
    simp only [Bool.and_eq_true, Bool.not_eq_true'] at hclosed
    exact ⟨h, hclosed.1⟩
  case isFalse hopen => exact ⟨⟨h.unix, fun hconn => by cases hconn⟩, rfl⟩

theorem run_bind_failed {result : Option Address}
    (hfail : s.Reaches family sock → result = none) :
    (Op.bind family sock result).run s = .ok (s.ensure sock) := by
  obtain ⟨hfamily, -⟩ := ensure_fields s sock
  unfold Op.run bind
  dsimp only
  split
  case h_1 => rfl
  case h_2 k hk =>
    split
    · rfl
    case isFalse hsame =>
      rw [hfamily, ne_eq, Decidable.not_not] at hsame
      rw [hfail ⟨by rw [hk]; rfl, hsame⟩]
      rfl

def bound (t : Socket) (k : Kernel) (name : Address) : Socket :=
  { t with
    kernel := some { k with localName := name }
    localAddress := some (t.localAddress.getD (t.family.received name)) }

theorem Sound.run_bind (h : Sound s) (hreach : s.Reaches family sock) (name : Address) :
    ∃ k, (s.ensure sock).kernel = some k ∧ (Op.bind family sock (some name)).run s =
      if s.family = .UNIX then .error .nullPointer else .ok ((s.ensure sock).bound k name) := by
  obtain ⟨hopen, hsame⟩ := hreach
  obtain ⟨hfamily, -, hlocal, -⟩ := ensure_fields s sock
  obtain ⟨k, hk⟩ := Option.isSome_iff_exists.mp hopen
  refine ⟨k, hk, ?_⟩
  have hagain : ¬ family ≠ (s.ensure sock).family := not_not_intro (hsame.trans hfamily.symm)
  simp only [Op.run, bind, hk, if_neg hagain]
  by_cases hunix : s.family = .UNIX
  · rw [getLocalAddress_unix
      (t := { s.ensure sock with kernel := some { k with localName := name } })
      (hfamily.trans hunix) rfl (hlocal.trans (h.unix hunix).1), if_pos hunix]
    rfl
  · rw [getLocalAddress_eq
      (t := { s.ensure sock with kernel := some { k with localName := name } })
      (fun heq => hunix (hfamily.symm.trans heq)) rfl, if_neg hunix]
    rfl

theorem run_connect_failed {result : Option (Address × Address)}
    (hfail : s.Reaches family sock → result = none) :
    (Op.connect family sock result).run s = .ok (s.ensure sock) ∨
      (Op.connect family sock result).run s = .ok (s.ensure sock).close.2 := by
  obtain ⟨hfamily, -⟩ := ensure_fields s sock
  unfold Op.run connect
  dsimp only
  split
  case h_1 => exact .inl rfl
  case h_2 k hk =>
    split
    · exact .inl rfl
    case isFalse hsame =>
      rw [hfamily, ne_eq, Decidable.not_not] at hsame
      rw [hfail ⟨by rw [hk]; rfl, hsame⟩]
      exact .inr rfl

def joined (t : Socket) (name peer : Address) : Socket :=
  { t with
    kernel := some ⟨name, some peer⟩
    isConnected := true
    localAddress := some (t.localAddress.getD (t.family.received name))
    remoteAddress := some (t.remoteAddress.getD (t.family.received peer)) }

theorem Sound.run_connect (h : Sound s) (hreach : s.Reaches family sock) (name peer : Address) :
    (Op.connect family sock (some (name, peer))).run s =
      if s.family = .UNIX then .error .nullPointer
      else .ok ((s.ensure sock).joined name peer) := by
  obtain ⟨hopen, hsame⟩ := hreach
  obtain ⟨hfamily, -, hlocal, -⟩ := ensure_fields s sock
  obtain ⟨k, hk⟩ := Option.isSome_iff_exists.mp hopen
  have hagain : ¬ family ≠ (s.ensure sock).family := not_not_intro (hsame.trans hfamily.symm)
  simp only [Op.run, connect, hk, if_neg hagain]
  by_cases hunix : s.family = .UNIX
  · rw [getLocalAddress_unix
      (t := { s.ensure sock with kernel := some ⟨name, some peer⟩, isConnected := true })
      (hfamily.trans hunix) rfl (hlocal.trans (h.unix hunix).1), if_pos hunix]
    rfl
  · have hother : (s.ensure sock).family ≠ .UNIX := fun heq => hunix (hfamily.symm.trans heq)
    rw [getLocalAddress_eq
      (t := { s.ensure sock with kernel := some ⟨name, some peer⟩, isConnected := true })
      hother rfl, if_neg hunix]
    have hremote := getRemoteAddress_eq
      (t := { s.ensure sock with
        kernel := some ⟨name, some peer⟩
        isConnected := true
        localAddress := some
          ((s.ensure sock).localAddress.getD ((s.ensure sock).family.received name)) })
      hother rfl rfl
    exact congrArg (fun r : Except Fault (Address × Socket) =>
      (r >>= fun x => Except.ok (true, x.2)).map Prod.snd) hremote

theorem Sound.bound {t : Socket} {k : Kernel} (h : Sound t) (hunix : t.family ≠ .UNIX)
    (hk : t.kernel = some k) (name : Address) : Sound (t.bound k name) where
  unix hfamily := absurd hfamily hunix
  connected hconn := by
    obtain ⟨k', peer, hk', hpeer, -, hremote⟩ := h.connected hconn
    rw [hk] at hk'
    cases hk'
    exact ⟨_, peer, rfl, hpeer, rfl, hremote⟩

theorem sound_joined {t : Socket} (hunix : t.family ≠ .UNIX) (name peer : Address) :
    Sound (t.joined name peer) where
  unix hfamily := absurd hfamily hunix
  connected _ := ⟨_, peer, rfl, rfl, rfl, rfl⟩

theorem Sound.current_bound {t : Socket} {k : Kernel} (h : Sound t) (hcur : Current t)
    (hunix : t.family ≠ .UNIX) (hk : t.kernel = some k) (name : Address) :
    Current (t.bound k name) ↔
      (t.isConnected = true → Shows t.family t.localAddress name) := by
  rw [(h.bound hunix hk name).current_iff]
  rw [h.current_iff] at hcur
  refine forall_congr' fun hconn => ?_
  obtain ⟨k', peer, hk', hpeer, -, hremote⟩ := hcur hconn
  rw [hk] at hk'
  cases hk'
  constructor
  · rintro ⟨k', peer', hk', -, hlocal, -⟩
    cases hk'
    exact Option.some.inj hlocal
  · intro hshows
    exact ⟨_, peer, rfl, hpeer, congrArg some hshows, hremote⟩

theorem current_joined {t : Socket} (hunix : t.family ≠ .UNIX) (name peer : Address) :
    Current (t.joined name peer) ↔
      Shows t.family t.localAddress name ∧ Shows t.family t.remoteAddress peer := by
  rw [(sound_joined hunix name peer).current_iff]
  constructor
  · intro hcur
    obtain ⟨k, peer', hk, hpeer, hlocal, hremote⟩ := hcur rfl
    cases hk
    cases hpeer
    exact ⟨Option.some.inj hlocal, Option.some.inj hremote⟩
  · rintro ⟨hlocal, hremote⟩ -
    exact ⟨_, peer, rfl, rfl, congrArg some hlocal, congrArg some hremote⟩

/-- One call keeps the getters right if and only if it finds nothing kept that differs. -/
theorem Sound.step (h : Sound s) (hcur : Current s) (op : Op) :
    (∀ s', op.run s = .ok s' → Sound s') ∧
      ((∃ s', op.run s = .ok s' ∧ Current s') ↔ op.Keeps s) := by
  -- a call that changes no name
  have hquiet (t : Socket) (hrun : op.run s = .ok t) (ht : Sound t) (hcurrent : Current t)
      (hkeeps : op.Keeps s) : (∀ s', op.run s = .ok s' → Sound s') ∧
        ((∃ s', op.run s = .ok s' ∧ Current s') ↔ op.Keeps s) := by
    refine ⟨?_, iff_of_true ⟨t, hrun, hcurrent⟩ hkeeps⟩
    intro s' hrun'
    rw [hrun] at hrun'
    cases hrun'
    exact ht
  -- a call that succeeds, for a socket that is not `UNIX`
  have hdone (t : Socket) (crash : Prop) [Decidable crash]
      (hrun : op.run s = if crash then .error .nullPointer else .ok t)
      (ht : ¬ crash → Sound t) (hkeeps : op.Keeps s ↔ ¬ crash ∧ Current t) :
      (∀ s', op.run s = .ok s' → Sound s') ∧
        ((∃ s', op.run s = .ok s' ∧ Current s') ↔ op.Keeps s) := by
    rw [hkeeps, hrun]
    by_cases hcrash : crash
    · simp [hcrash]
    · simp [hcrash, ht hcrash]
  have hclosed (t : Socket) (ht : Sound t) : Sound t.close.2 ∧ Current t.close.2 := by
    obtain ⟨hsound, hconn⟩ := sound_close ht
    refine ⟨hsound, fun hopen => ?_⟩
    rw [hconn] at hopen
    cases hopen
  cases op with
  | close => exact hquiet _ rfl (hclosed s h).1 (hclosed s h).2 trivial
  | bind family sock result =>
    obtain ⟨hfamily, hconn, hlocal, hremote⟩ := ensure_fields s sock
    have hsound := h.ensure sock
    have hcurrent := h.current_ensure hcur sock
    by_cases hfail : s.Reaches family sock → result = none
    · refine hquiet _ (run_bind_failed hfail) hsound hcurrent ?_
      cases result with
      | none => trivial
      | some name => exact fun hreach => absurd (hfail hreach) (by simp)
    · rw [Classical.not_imp] at hfail
      obtain ⟨hreach, hresult⟩ := hfail
      obtain ⟨name, rfl⟩ := Option.ne_none_iff_exists'.mp hresult
      obtain ⟨k, hk, hrun⟩ := h.run_bind hreach name
      rw [← hfamily] at hrun
      apply hdone _ _ hrun
      · exact fun hunix => hsound.bound hunix hk name
      · simp only [Op.Keeps, hreach, forall_true_left]
        rw [hfamily]
        refine and_congr_right fun hunix => ?_
        rw [hsound.current_bound hcurrent (by rwa [hfamily]) hk, hfamily, hconn, hlocal]
  | connect family sock result =>
    obtain ⟨hfamily, hconn, hlocal, hremote⟩ := ensure_fields s sock
    have hsound := h.ensure sock
    have hcurrent := h.current_ensure hcur sock
    by_cases hfail : s.Reaches family sock → result = none
    · have hkeeps : (Op.connect family sock result).Keeps s := by
        cases result with
        | none => trivial
        | some names => exact fun hreach => absurd (hfail hreach) (by simp)
      rcases run_connect_failed hfail with hrun | hrun
      · exact hquiet _ hrun hsound hcurrent hkeeps
      · exact hquiet _ hrun (hclosed _ hsound).1 (hclosed _ hsound).2 hkeeps
    · rw [Classical.not_imp] at hfail
      obtain ⟨hreach, hresult⟩ := hfail
      obtain ⟨⟨name, peer⟩, rfl⟩ := Option.ne_none_iff_exists'.mp hresult
      have hrun := h.run_connect hreach name peer
      rw [← hfamily] at hrun
      apply hdone _ _ hrun
      · exact fun hunix => sound_joined hunix name peer
      · simp only [Op.Keeps, hreach, forall_true_left]
        rw [hfamily]
        refine and_congr_right fun hunix => ?_
        rw [current_joined (by rwa [hfamily]), hfamily, hlocal, hremote]

@[simp] theorem run_concat (s : Socket) (ops : List Op) (op : Op) :
    run s (ops ++ [op]) = (run s ops >>= fun t => op.run t) := by
  induction ops generalizing s with
  | nil =>
    show (op.run s >>= fun t => Except.ok t) = op.run s
    cases op.run s <;> rfl
  | cons first ops ih =>
    simp only [List.cons_append, run]
    cases first.run s with
    | error fault => rfl
    | ok t => exact ih t

theorem sound_new (family : Family) : Sound (new family) ∧ Current (new family) :=
  ⟨⟨fun _ => ⟨rfl, rfl⟩, fun hconn => by cases hconn⟩, fun hconn => by cases hconn⟩

/-- Throughout a sequence of calls the getters return the addresses of the current
connection if and only if no call succeeds on a `UNIX` socket or while an address of
another connection, or one that does not fit its object, is kept. -/
theorem run_current_iff (family : Family) (ops : List Op) :
    (∀ pre, pre <+: ops → ∃ s, run (new family) pre = .ok s ∧ Current s) ↔
      ∀ pre op s, pre ++ [op] <+: ops → run (new family) pre = .ok s → op.Keeps s := by
  constructor
  · intro hall
    have hsound (pre : List Op) (hpre : pre <+: ops) :
        ∀ s, run (new family) pre = .ok s → Sound s ∧ Current s := by
      induction pre using List.reverseRecOn with
      | nil =>
        intro s hrun
        cases hrun
        exact sound_new family
      | append_singleton pre op ih =>
        intro s hrun
        obtain ⟨s₁, hrun₁, hcur₁⟩ := hall _ hpre
        rw [hrun] at hrun₁
        cases hrun₁
        rw [run_concat] at hrun
        obtain ⟨t, ht, hop⟩ := Lib.bind_eq_ok.mp hrun
        obtain ⟨hst, hct⟩ := ih ((List.prefix_append _ _).trans hpre) t ht
        exact ⟨(hst.step hct op).1 s hop, hcur₁⟩
    intro pre op s hpre hrun
    obtain ⟨hs, hcur⟩ := hsound pre ((List.prefix_append _ _).trans hpre) s hrun
    obtain ⟨s', hrun', hcur'⟩ := hall _ hpre
    rw [run_concat, hrun] at hrun'
    exact ((hs.step hcur op).2).mp ⟨s', hrun', hcur'⟩
  · intro hkeeps
    have hsound (pre : List Op) (hpre : pre <+: ops) :
        ∃ s, run (new family) pre = .ok s ∧ Sound s ∧ Current s := by
      induction pre using List.reverseRecOn with
      | nil => exact ⟨_, rfl, sound_new family⟩
      | append_singleton pre op ih =>
        obtain ⟨t, ht, hst, hct⟩ := ih ((List.prefix_append _ _).trans hpre)
        obtain ⟨s, hop, hcur⟩ := (hst.step hct op).2.mpr (hkeeps pre op t hpre ht)
        exact ⟨s, by rw [run_concat, ht]; exact hop, (hst.step hct op).1 s hop, hcur⟩
    intro pre hpre
    obtain ⟨s, hrun, -, hcur⟩ := hsound pre hpre
    exact ⟨s, hrun, hcur⟩

def inetName (x port : UInt8) : Address := [2, 0, 0, port, 10, 0, 0, x, 0, 0, 0, 0, 0, 0, 0, 0]

/-- Connected to one peer, closed and connected to another: the first one is returned. -/
theorem run_reconnect_stale :
    ∃ s s', run (new .IPv4)
        [.connect .IPv4 (some (inetName 0 0)) (some (inetName 1 80, inetName 2 80)), .close,
          .connect .IPv4 (some (inetName 0 0)) (some (inetName 1 81, inetName 3 80))] = .ok s ∧
      s.isConnected = true ∧ s.kernel = some ⟨inetName 1 81, some (inetName 3 80)⟩ ∧
      s.getRemoteAddress = .ok (inetName 2 80, s') :=
  ⟨_, _, rfl, rfl, rfl, rfl⟩

end Socket

end Sylar
