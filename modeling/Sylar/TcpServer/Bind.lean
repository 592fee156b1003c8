import Sylar.Socket.Addresses

/-! `TcpServer::bind` for several addresses. Every address gets a socket of its own; the address of
a socket that cannot be bound or does not listen goes to `fails`. Whether the call failed is then
asked of the whole of `fails`, and a failed call gives up every socket of the server, with those
of earlier calls. Addresses are of an arbitrary type. -/
namespace Sylar

def Socket.listen (s : Socket) (answer : Bool) : Bool := s.kernel.isSome && answer

structure TcpServer where
  socks : List Socket
  ssl : Bool
  deriving DecidableEq

namespace TcpServer

/-- What the kernel answers for one address: the name of the socket that `socket()` makes, its name
after `bind()`, and whether `listen()` succeeds. -/
structure Answer where
  sock : Option Address
  bound : Option Address
  listens : Bool

variable {A : Type} (family : A → Family)

/-- The body of the loop: the socket for one address, if it gets as far as listening. -/
def listenAt (addr : A) (answer : Answer) : Except Socket.Fault (Option Socket) := do
  let (bound, sock) ← (Socket.new (family addr)).bind (family addr) answer.sock answer.bound
  if !bound then return none
  else if !sock.listen answer.listens then return none
  else return some sock

def bindLoop : List (A × Answer) → List Socket → List A →
    Except Socket.Fault (List Socket × List A)
  | [], socks, fails => .ok (socks, fails)
  | (addr, answer) :: addrs, socks, fails => do
    match ← listenAt family addr answer with
    | none => bindLoop addrs socks (fails ++ [addr])
    | some sock => bindLoop addrs (socks ++ [sock]) fails

def bind (server : TcpServer) (addrs : List (A × Answer)) (fails : List A) (ssl : Bool) :
    Except Socket.Fault (Bool × List A × TcpServer) := do
  let (socks, fails) ← bindLoop family addrs server.socks fails
  if fails.isEmpty then return (true, fails, { server with socks, ssl })
  else return (false, fails, { server with socks := [], ssl })

def bindAddress (server : TcpServer) (addr : A) (answer : Answer) (ssl : Bool) :
    Except Socket.Fault (Bool × TcpServer) := do
  let (result, _, server) ← server.bind family [(addr, answer)] [] ssl
  return (result, server)

def Answer.succeeds (answer : Answer) : Bool :=
  answer.sock.isSome && answer.bound.isSome && answer.listens

def failed (addrs : List (A × Answer)) : List A :=
  (addrs.filter fun e => !e.2.succeeds).map Prod.fst

/-- A bound `UNIX` socket: the local address that `bind` then reads is a null pointer. -/
def Crashes (e : A × Answer) : Prop :=
  family e.1 = .UNIX ∧ e.2.sock.isSome = true ∧ e.2.bound.isSome = true

def opened (family : Family) (name : Address) : Socket :=
  ⟨family, some ⟨name, none⟩, false, some (family.received name), none⟩

def listening (addrs : List (A × Answer)) : List Socket :=
  (addrs.filter fun e => e.2.succeeds).filterMap fun e => e.2.bound.map (opened (family e.1))

/-- What the call is to do: it returns, `fails` grows by the addresses that failed in it, a failed
call leaves the sockets as they were, and it succeeds when all of its addresses do. -/
def Transactional (server : TcpServer) (addrs : List (A × Answer)) (fails : List A)
    (ssl : Bool) : Prop :=
  ∃ result server', server.bind family addrs fails ssl =
      .ok (result, fails ++ failed addrs, server') ∧
    (result = false → server'.socks = server.socks) ∧
    (result = true ↔ ∀ e ∈ addrs, e.2.succeeds = true)

variable {family} {addrs : List (A × Answer)}

theorem listenAt_eq {addr : A} {answer : Answer} (hsafe : ¬ Crashes family (addr, answer)) :
    listenAt family addr answer = .ok
      (if answer.succeeds then answer.bound.map (opened (family addr)) else none) := by
  obtain ⟨sock, bound, listens⟩ := answer
  cases sock with
  | none => rfl
  | some blank =>
    cases bound with
    | none => simp [listenAt, Socket.bind, Socket.ensure, Socket.new, Answer.succeeds, Bind.bind,
        Except.bind, pure, Except.pure]
    | some name =>
      have hfamily : family addr ≠ .UNIX := fun heq => hsafe ⟨heq, rfl, rfl⟩
      cases listens <;>
        simp [listenAt, Socket.bind, Socket.ensure, Socket.new, Socket.getLocalAddress,
          Socket.getAddress_some hfamily, Socket.listen, Answer.succeeds, opened, Bind.bind,
          Except.bind, pure, Except.pure]

theorem listenAt_crash {addr : A} {answer : Answer} (hcrash : Crashes family (addr, answer)) :
    listenAt family addr answer = .error .nullPointer := by
  obtain ⟨hfamily, hsock, hbound⟩ := hcrash
  obtain ⟨blank, hblank⟩ := Option.isSome_iff_exists.mp hsock
  obtain ⟨name, hname⟩ := Option.isSome_iff_exists.mp hbound
  dsimp only at hfamily hblank hname
  simp [listenAt, Socket.bind, Socket.ensure, Socket.new, Socket.getLocalAddress,
    Socket.getAddress, hfamily, hblank, hname, Bind.bind, Except.bind]

@[simp] theorem failed_eq_nil : failed addrs = [] ↔ ∀ e ∈ addrs, e.2.succeeds = true := by
  simp [failed]

theorem bindLoop_eq (hsafe : ∀ e ∈ addrs, ¬ Crashes family e) (socks : List Socket)
    (fails : List A) :
    bindLoop family addrs socks fails =
      .ok (socks ++ listening family addrs, fails ++ failed addrs) := by
  induction addrs generalizing socks fails with
  | nil => simp [bindLoop, listening, failed]
  | cons e addrs ih =>
    obtain ⟨addr, answer⟩ := e
    have hrest := ih fun e he => hsafe e (List.mem_cons_of_mem _ he)
    unfold bindLoop
    rw [listenAt_eq (hsafe _ List.mem_cons_self)]
    cases hanswer : answer.succeeds with
    | false =>
      apply (hrest socks (fails ++ [addr])).trans
      simp [listening, failed, hanswer]
    | true =>
      have hbound : answer.bound.isSome = true := by
        simp only [Answer.succeeds, Bool.and_eq_true] at hanswer
        exact hanswer.1.2
      obtain ⟨name, hname⟩ := Option.isSome_iff_exists.mp hbound
      simp only [if_true, hname, Option.map_some]
      apply (hrest (socks ++ [opened (family addr) name]) fails).trans
      simp [listening, failed, hanswer, hname]

theorem bindLoop_crash {e : A × Answer} (he : e ∈ addrs) (hcrash : Crashes family e)
    (socks : List Socket) (fails : List A) :
    bindLoop family addrs socks fails = .error .nullPointer := by
  induction addrs generalizing socks fails with
  | nil => cases he
  | cons first addrs ih =>
    obtain ⟨addr, answer⟩ := first
    unfold bindLoop
    by_cases hfirst : Crashes family (addr, answer)
    · rw [listenAt_crash hfirst]
      rfl
    · have hrest : e ∈ addrs := (List.mem_cons.mp he).resolve_left fun heq =>
        hfirst (heq ▸ hcrash)
      rw [listenAt_eq hfirst]
      dsimp only [Bind.bind, Except.bind]
      split
      · exact ih hrest socks (fails ++ [addr])
      · exact ih hrest _ fails

/-- The whole call, for all prior states and answers of the kernel. -/
theorem bind_eq (hsafe : ∀ e ∈ addrs, ¬ Crashes family e) (server : TcpServer) (fails : List A)
    (ssl : Bool) :
    server.bind family addrs fails ssl = .ok
      (if fails ++ failed addrs = [] then
        (true, [], { socks := server.socks ++ listening family addrs, ssl })
      else (false, fails ++ failed addrs, { socks := [], ssl })) := by
  unfold bind
  rw [bindLoop_eq hsafe]
  dsimp only [Bind.bind, Except.bind]
  by_cases hnil : fails ++ failed addrs = []
  · rw [if_pos hnil, hnil]
    rfl
  · rw [if_neg hnil, if_neg (by rwa [List.isEmpty_iff])]
    rfl

theorem bind_returns_iff (server : TcpServer) (fails : List A) (ssl : Bool) :
    (∃ r, server.bind family addrs fails ssl = .ok r) ↔ ∀ e ∈ addrs, ¬ Crashes family e := by
  constructor
  · rintro ⟨r, hr⟩ e he hcrash
    unfold bind at hr
    rw [bindLoop_crash he hcrash] at hr
    cases hr
  · intro hsafe
    exact ⟨_, bind_eq hsafe server fails ssl⟩

/-- The exact states and answers for which the call is transactional: `fails` comes in empty and
all addresses succeed, or one fails and there are no sockets that it could lose. -/
theorem transactional_iff (family : A → Family) (server : TcpServer) (addrs : List (A × Answer))
    (fails : List A) (ssl : Bool) :
    Transactional family server addrs fails ssl ↔
      (∀ e ∈ addrs, ¬ Crashes family e) ∧
        (fails = [] ∧ failed addrs = [] ∨ failed addrs ≠ [] ∧ server.socks = []) := by
  unfold Transactional
  by_cases hsafe : ∀ e ∈ addrs, ¬ Crashes family e
  · rw [bind_eq hsafe, ← failed_eq_nil, and_iff_right hsafe]
    by_cases hfailed : failed addrs = []
    · by_cases hfails : fails = []
      · simp [hfailed, hfails]
      · simp [hfailed, hfails]
    · simp [hfailed, List.nil_eq]
  · rw [iff_false_right (fun h => hsafe h.1)]
    rintro ⟨result, server', hbind, -⟩
    exact hsafe ((bind_returns_iff server fails ssl).mp ⟨_, hbind⟩)

/-- A server that listens on one address loses it to a second one that is in use. A call with
another's failures in `fails` fails with no address of its own. -/
theorem bind_loses_earlier :
    let sock := opened .IPv4 [2, 0, 0, 80]
    let inUse : Family × Answer := (.IPv4, ⟨some [2, 0], none, true⟩)
    bind id ⟨[sock], false⟩ [inUse] [] false = .ok (false, [.IPv4], ⟨[], false⟩) ∧
      ¬ Transactional id ⟨[sock], false⟩ [inUse] [] false ∧
      bind id ⟨[sock], false⟩ [] [.IPv4] false = .ok (false, [.IPv4], ⟨[], false⟩) := by
  refine ⟨rfl, ?_, rfl⟩
  rintro ⟨result, server', hbind, hkept, -⟩
  obtain ⟨rfl, hreturned⟩ := Prod.mk.inj (Except.ok.inj hbind)
  obtain ⟨-, rfl⟩ := Prod.mk.inj hreturned
  exact absurd (hkept rfl) (by decide)

end TcpServer

end Sylar
