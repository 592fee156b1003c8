import Sylar.Uri.Throws

/-! Printing a uri and creating it again. What is printed is the text of parts unless the
port is negative, which happens when `atoi` cuts a large number; the parts lose what
`Uri::Create` loses of a userinfo, a second time. -/
namespace Sylar.Uri

open Lib Lib.Grammar Lib.Numerals
open Http (Bytes ascii)
open Reader (before)

section Userinfo

def userChar : Expr Rule :=
  .alt (oneOf (unreserved ++ subDelims ++ colon)) (.rule .pct_encoded)

/-- What is left of a userinfo after some of its bytes: whole characters, or the digits
after a percent sign first. -/
def userStacks : List (List (Stack Rule)) :=
  [[[.many userChar]], [[.seq xdigit xdigit, .many userChar]], [[xdigit, .many userChar]], []]

theorem after_userStacks : ∀ b : UInt8, ∀ K ∈ userStacks, ∃ K' ∈ userStacks,
    after (grammar .ragel) 20 K [b] = some K' :=
  forall_byte (by decide +kernel)

theorem after_userStacks_colon : ∀ K ∈ userStacks,
    after (grammar .ragel) 20 K [58] = some [[.many userChar]] ∨
      after (grammar .ragel) 20 K [58] = some [] := by
  decide

theorem union_userinfo : union (grammar .ragel) [[.many userChar]] = ragel .userinfo := by
  rw [union_singleton, ragel, lang_rule]
  rfl

theorem userinfo_after_colon {a d : Bytes} {K : List (Stack Rule)} (hK : K ∈ userStacks)
    (h : a ++ 58 :: d ∈ union (grammar .ragel) K) : d ∈ ragel .userinfo := by
  induction a generalizing K with
  | nil =>
    rcases after_userStacks_colon K hK with hcolon | hcolon
    · rw [← union_userinfo]
      exact (append_mem_of_after _ hcolon d).mp h
    · have hnone := (append_mem_of_after _ hcolon d).mp h
      simp [mem_union] at hnone
  | cons b a ih =>
    obtain ⟨K', hK', hstep⟩ := after_userStacks b K hK
    exact ih hK' ((append_mem_of_after _ hstep _).mp h)

theorem kept_mem {w : Bytes} (h : w ∈ ragel .userinfo) : kept w ∈ ragel .userinfo := by
  by_cases hmem : (58 : UInt8) ∈ w
  · obtain ⟨a, d, rfl, ha⟩ := List.eq_append_cons_of_mem hmem
    rw [kept_append ha]
    split
    · rw [← union_userinfo] at h
      exact userinfo_after_colon List.mem_cons_self h
    · rwa [List.append_assoc]
  · rwa [kept_of_not_mem hmem]

end Userinfo

section Ports

theorem digit_bits : ∀ b, isDigit b = true → (ranges digits).testBit b.toNat :=
  forall_byte (by decide +kernel)

theorem mem_port {ds : Bytes} (h : ∀ b ∈ ds, isDigit b = true) : ds ∈ ragel .port :=
  .rule (mem_many_bytes.mpr fun b hb => digit_bits b (h b hb))

theorem atoi_bounds (ds : Bytes) : -2 ^ 31 ≤ atoi ds ∧ atoi ds < 2 ^ 31 := by
  unfold atoi
  have hlow := Int.le_bmod (x := value (ds.takeWhile isDigit)) (m := 2 ^ 32) (by decide)
  have hhigh := Int.bmod_lt (x := value (ds.takeWhile isDigit)) (m := 2 ^ 32) (by decide)
  omega

end Ports

def nonempty (w : Bytes) : Option Bytes := if w.isEmpty then none else some w

theorem mem_of_nonempty {w v : Bytes} (h : nonempty w = some v) : v = w := by
  unfold nonempty at h
  split at h
  · cases h
  · exact (Option.some.inj h).symm

@[simp] theorem getD_nonempty (w : Bytes) : (nonempty w).getD [] = w := by
  cases w <;> rfl

namespace Parts

variable (p : Parts)

theorem getPath_mem : p.uri.getPath ∈ ragel .path_abempty := by
  rw [getPath_uri]
  split
  · exact mem_ragel 20 (by decide)
  · exact p.path_mem

theorem getD_mem {o : Option Bytes} {r : Rule} (ho : ∀ w, o = some w → w ∈ ragel r)
    (hnil : [] ∈ ragel r) : o.getD [] ∈ ragel r := by
  cases o with
  | none => exact hnil
  | some w => exact ho w rfl

def printed (port : Option Bytes) (hport : ∀ w, port = some w → w ∈ ragel .port) : Parts where
  scheme := p.scheme
  userinfo := nonempty p.uri.userinfo
  host := p.host
  port := port
  path := p.uri.getPath
  query := nonempty p.uri.query
  fragment := nonempty p.uri.fragment
  scheme_mem := p.scheme_mem
  userinfo_mem w hw := by
    rw [mem_of_nonempty hw]
    refine getD_mem ?_ (mem_ragel 20 (by decide))
    intro v hv
    obtain ⟨w, hw, rfl⟩ := Option.map_eq_some_iff.mp hv
    exact kept_mem (p.userinfo_mem w hw)
  host_mem := p.host_mem
  port_mem := hport
  path_mem := p.getPath_mem
  query_mem w hw := by
    rw [mem_of_nonempty hw]
    exact getD_mem p.query_mem (mem_ragel 20 (by decide))
  fragment_mem w hw := by
    rw [mem_of_nonempty hw]
    exact getD_mem p.fragment_mem (mem_ragel 20 (by decide))

def portText : Bytes := if p.uri.isDefaultPort then [] else 58 :: Uri.stdToString p.uri.port

theorem userPrefix_nonempty (w : Bytes) :
    w ++ (if w.isEmpty then [] else ascii ['@']) = userPrefix (nonempty w) := by
  cases w <;> rfl

theorem before_nonempty (c : UInt8) (w : Bytes) :
    (if w.isEmpty then [] else [c]) ++ w = before c (nonempty w) := by
  cases w <;> rfl

theorem toString_uri : p.uri.toString =
    p.scheme ++ [58, 47, 47] ++ userPrefix (nonempty p.uri.userinfo) ++ p.host ++ p.portText ++
      p.uri.getPath ++ before 63 (nonempty p.uri.query) ++ before 35 (nonempty p.uri.fragment) := by
  rw [← userPrefix_nonempty, ← before_nonempty, ← before_nonempty, portText]
  simp only [Uri.toString, List.append_assoc]
  rfl

section Printed

def printedPort : Option Bytes :=
  if p.uri.isDefaultPort then none else some (decimal p.uri.port.natAbs)

theorem printedPort_mem : ∀ w, p.printedPort = some w → w ∈ ragel .port := by
  intro w hw
  unfold printedPort at hw
  split at hw
  · cases hw
  · obtain rfl := Option.some.inj hw
    exact mem_port (isDigit_decimal _)

theorem printedPort_ne : p.printedPort ≠ some [] := by
  unfold printedPort
  split
  · simp
  · intro h
    exact decimal_ne_nil _ (Option.some.inj h)

def reprinted : Uri := (p.printed p.printedPort p.printedPort_mem).uri

theorem portText_of_nonneg (h : 0 ≤ p.uri.port) : p.portText = before 58 p.printedPort := by
  unfold portText printedPort
  split
  · rfl
  · rw [Uri.stdToString, if_neg (Int.not_lt.mpr h)]
    rfl

theorem create_toString_of_nonneg (h : 0 ≤ p.uri.port) :
    create p.uri.toString = .ok (some p.reprinted) := by
  have htext : p.uri.toString = (p.printed p.printedPort p.printedPort_mem).text := by
    rw [toString_uri, portText_of_nonneg p h]
    rfl
  rw [htext]
  exact create_text p.printedPort_ne

end Printed

end Parts

structure Agree (u v : Uri) : Prop where
  getScheme : v.scheme = u.scheme
  getUserinfo : v.userinfo = u.userinfo
  getHost : v.host = u.host
  getPort : v.getPort = u.getPort
  getPath : v.getPath = u.getPath
  getQuery : v.query = u.query
  getFragment : v.fragment = u.fragment

theorem getPort_of_default {u v : Uri} (hscheme : v.scheme = u.scheme) (hv : v.port = 0)
    (h : u.isDefaultPort) : v.getPort = u.getPort := by
  have hhttp : v.isHttp = u.isHttp := by rw [isHttp, isHttp, hscheme]
  have hhttps : v.isHttps = u.isHttps := by rw [isHttps, isHttps, hscheme]
  unfold isDefaultPort at h
  unfold Uri.getPort
  rw [hv, hhttp, hhttps]
  by_cases hzero : u.port = 0
  · simp [hzero]
  · rw [if_neg hzero] at h
    rw [if_pos hzero]
    by_cases hu : u.isHttp = true
    · simp [hu] at h ⊢
      exact h.symm
    · by_cases hs : u.isHttps = true
      · simp [hu, hs] at h ⊢
        exact h.symm
      · simp [hu, hs] at h

namespace Parts

variable (p : Parts)

theorem port_bounds : -2 ^ 31 ≤ p.uri.port ∧ p.uri.port < 2 ^ 31 := by
  cases hport : p.port with
  | none =>
    have hzero : p.uri.port = 0 := by
      have h : p.uri.port = (p.port.map atoi).getD 0 := rfl
      rw [h, hport]
      rfl
    omega
  | some ds =>
    rw [port_uri hport]
    exact atoi_bounds ds

theorem getPort_reprinted (h : 0 ≤ p.uri.port) : p.reprinted.getPort = p.uri.getPort := by
  have hport : p.reprinted.port = (p.printedPort.map atoi).getD 0 := rfl
  by_cases hdefault : p.uri.isDefaultPort = true
  · refine getPort_of_default rfl ?_ hdefault
    rw [hport, printedPort, if_pos hdefault]
    rfl
  · have hsame : p.reprinted.port = p.uri.port := by
      have hvalue := value_decimal p.uri.port.natAbs
      have hbounds := p.port_bounds
      rw [hport, printedPort, if_neg hdefault, Option.map_some, Option.getD_some,
        atoi_digits (isDigit_decimal _) (by omega)]
      omega
    have hhttp : p.reprinted.isHttp = p.uri.isHttp := rfl
    have hhttps : p.reprinted.isHttps = p.uri.isHttps := rfl
    unfold Uri.getPort
    rw [hsame, hhttp, hhttps]

theorem userinfo_reprinted : p.reprinted.userinfo = kept p.uri.userinfo := by
  have h : p.reprinted.userinfo = ((nonempty p.uri.userinfo).map kept).getD [] := rfl
  rw [h]
  cases p.uri.userinfo <;> rfl

theorem getPath_reprinted : p.reprinted.getPath = p.uri.getPath := by
  have hne : p.uri.getPath.isEmpty = false := by
    rw [getPath_uri]
    split
    · rfl
    · rename_i hpath
      simpa using hpath
  have h : p.reprinted.path = p.uri.getPath := rfl
  rw [Uri.getPath, h, hne]
  rfl

theorem agree_reprinted (h : 0 ≤ p.uri.port) :
    Agree p.uri p.reprinted ↔ colonDigit p.uri.userinfo = false := by
  rw [← kept_eq_iff, ← userinfo_reprinted]
  constructor
  · exact fun hagree => hagree.getUserinfo
  · intro huser
    exact
      { getScheme := rfl
        getUserinfo := huser
        getHost := rfl
        getPort := p.getPort_reprinted h
        getPath := p.getPath_reprinted
        getQuery := getD_nonempty _
        getFragment := getD_nonempty _ }

section Negative

theorem read_minus {ph : Phase} {ds : Bytes} {r : Reader} (hph : Reader.isPortStart ph)
    (hds : ∀ b ∈ ds, isDigit b = true) :
    ∃ t, Reader.read false (ph, r) (45 :: ds ++ [47]) = .ok (.dead, t) := by
  have hminus : kind 45 = .punct := by decide
  have hquiet : ∀ q : Phase, q = .user true ∨ q = .dead → ∀ b ∈ ds, q.step (kind b) = ([], q) := by
    rintro q (rfl | rfl) b hb
    · rw [(kind_eq_digit b).mpr (hds b hb)]
      rfl
    · rfl
  have hfirst : ∃ q : Phase, (q = .user true ∨ q = .dead) ∧
      Reader.read false (ph, r) [45] = .ok (q, r.push 45) := by
    rcases hph with rfl | rfl
    · exact ⟨_, .inl rfl, Reader.read_byte hminus rfl⟩
    · exact ⟨_, .inr rfl, Reader.read_byte hminus rfl⟩
  obtain ⟨q, hq, hread⟩ := hfirst
  have hdigits := Reader.read_append hread (Reader.read_quiet (hquiet q hq) _)
  rcases hq with rfl | rfl
  · exact ⟨_, Reader.read_append hdigits (Reader.read_byte kind_slash rfl)⟩
  · exact ⟨_, Reader.read_append hdigits (Reader.read_byte kind_slash rfl)⟩

theorem not_mem_of_dead {q v : Bytes} {t : Reader}
    (h : Reader.read false (.start, .fresh) q = .ok (.dead, t)) :
    q ++ v ∉ ragel .URI_reference := by
  intro hmem
  obtain ⟨cs, hreach, -⟩ := mem_iff_reach.mp hmem
  rw [reach_append] at hreach
  obtain ⟨cs', hcs', -⟩ := Option.bind_eq_some_iff.mp hreach
  have hdead : phaseOf cs' ≠ .dead := by
    refine phaseOf_reach ?_ hcs'
    rw [phaseOf_start]
    decide
  exact hdead (phase_of_read hcs' h).symm

theorem slash_getPath : ∃ rest, p.uri.getPath = 47 :: rest := by
  rw [getPath_uri]
  split
  · exact ⟨[], rfl⟩
  · rename_i hne
    rcases path_kinds p.path_mem with hpath | ⟨rest, hpath, -⟩
    · exact absurd hpath hne
    · exact ⟨rest, hpath⟩

theorem toString_not_mem (h : p.uri.port < 0) : p.uri.toString ∉ ragel .URI_reference := by
  have hdefault : p.uri.isDefaultPort = false := by
    unfold Uri.isDefaultPort
    have h80 : (p.uri.port == 80) = false := by simp; omega
    have h443 : (p.uri.port == 443) = false := by simp; omega
    simp only [h80, h443, if_neg (Int.ne_of_lt h), ite_self]
  have hport : p.portText = 58 :: 45 :: decimal p.uri.port.natAbs := by
    rw [portText, hdefault, Uri.stdToString, if_pos h]
    rfl
  obtain ⟨rest, hpath⟩ := p.slash_getPath
  obtain ⟨x, h', hread, hafter⟩ := (p.printed none (by simp)).read_upto_host false
  obtain ⟨ph, hph, hcolon⟩ := hafter.colon false
  obtain ⟨t, hminus⟩ := read_minus hph (isDigit_decimal p.uri.port.natAbs)
  have hdead := not_mem_of_dead
    (v := rest ++ before 63 (nonempty p.uri.query) ++ before 35 (nonempty p.uri.fragment))
    (Reader.read_append (Reader.read_append hread hcolon) hminus)
  rw [toString_uri, hport, hpath]
  simpa [printed] using hdead

end Negative

end Parts

/-- A uri that `Uri::Create` made of a text with a scheme and an authority is made again
of what it prints, exactly if its port is not negative and no digit comes right after
the first colon of its userinfo. -/
theorem create_toString {σ rest : Bytes} (hσ : σ ∈ ragel .scheme) {u : Uri}
    (hu : create (σ ++ 58 :: 47 :: 47 :: rest) = .ok (some u)) :
    (∃ v, create u.toString = .ok (some v) ∧ Agree u v) ↔
      0 ≤ u.port ∧ colonDigit u.userinfo = false := by
  obtain ⟨p, -, htext⟩ := exists_parts hσ (mem_of_create hu)
  have hport : p.port ≠ some [] := by
    intro hport
    have herror := error_of_emptyPort false (Parts.emptyPort_text hport)
    rw [htext] at herror
    cases hu.symm.trans herror
  rw [← htext, Parts.create_text hport] at hu
  obtain rfl := Option.some.inj (Except.ok.inj hu)
  by_cases hneg : 0 ≤ p.uri.port
  · rw [p.create_toString_of_nonneg hneg, ← p.agree_reprinted hneg]
    simp [hneg]
  · constructor
    · rintro ⟨v, hv, -⟩
      exact absurd (mem_of_create hv) (p.toString_not_mem (Int.not_le.mp hneg))
    · rintro ⟨h, -⟩
      exact absurd h hneg

def plainUri (userinfo : Bytes) (port : Int) : Uri :=
  { scheme := ascii ['h', 't', 't', 'p']
    userinfo
    host := ascii ['h']
    path := ascii ['/']
    query := []
    fragment := []
    port }

theorem create_toString_port81 :
    create (ascii ['h', 't', 't', 'p'] ++ 58 :: 47 :: 47 :: ascii ['h', ':', '8', '1', '/']) =
        .ok (some (plainUri [] 81)) ∧
      ((∃ v, create (plainUri [] 81).toString = .ok (some v) ∧ Agree (plainUri [] 81) v) ↔
        0 ≤ (plainUri [] 81).port ∧ colonDigit (plainUri [] 81).userinfo = false) := by
  have h : create (ascii ['h', 't', 't', 'p'] ++ 58 :: 47 :: 47 ::
      ascii ['h', ':', '8', '1', '/']) = .ok (some (plainUri [] 81)) := by
    decide +kernel
  exact ⟨h, create_toString (mem_ragel 40 (by decide)) h⟩

/-- `http://h:4294967295/` is printed with the port `-1`, which is refused, and
`http://u:1:2@h/` is printed with the userinfo `1:2`, of which only the `2` is kept. -/
theorem printed_uri_differs :
    create (ascii ['h', 't', 't', 'p', ':', '/', '/', 'h', ':', '4', '2', '9', '4', '9', '6', '7',
        '2', '9', '5', '/']) = .ok (some (plainUri [] (-1))) ∧
      create (plainUri [] (-1)).toString = .ok none ∧
      create (ascii ['h', 't', 't', 'p', ':', '/', '/', 'u', ':', '1', ':', '2', '@', 'h', '/']) =
        .ok (some (plainUri (ascii ['1', ':', '2']) 0)) ∧
      create (plainUri (ascii ['1', ':', '2']) 0).toString =
        .ok (some (plainUri (ascii ['2']) 0)) := by
  decide +kernel

end Sylar.Uri
