import Mathlib.Data.List.Count
import Mathlib.Data.List.TakeWhile
import Sylar.Address.Basic
import Sylar.Config.Yaml

/-! `Address::Lookup`: the text of a host is cut into the node and the service that
`getaddrinfo` is asked for. A pointer into the text is its offset; the text ends with a null
that is not part of it. The service of a text with several colons stays behind at the first of
them when the text is not cut. -/
namespace Sylar

namespace Address

def memchr (text : Text) (off count : Nat) (c : UInt8) : Option Nat :=
  (((text.drop off).take count).idxOf? c).map (off + ·)

def cString (text : Text) (off : Nat) : Text := (text.drop off).takeWhile (· != 0)

def bracketed (host : Text) : Text × Option Nat :=
  if host.head? = some 91 then
    match memchr host 1 (host.length - 1) 93 with
    | some endipv6 =>
      ((host.drop 1).take (endipv6 - 1),
        if host[endipv6 + 1]? = some 58 then some (endipv6 + 2) else none)
    | none => ([], none)
  else ([], none)

def atColon (host : Text) : Text × Option Nat :=
  match memchr host 0 host.length 58 with
  | some service =>
    match memchr host (service + 1) (host.length - service - 1) 58 with
    | some _ => ([], some service)
    | none => (host.take service, some (service + 1))
  | none => ([], none)

/-- What `getaddrinfo` is given; no service is a null pointer. -/
def request (host : Text) : Text × Option Text :=
  let (node, service) := bracketed host
  let (node, service) := if node = [] then atColon host else (node, service)
  let node := if node = [] then host else node
  (cString node 0, service.map (cString host))

/-- The `hints`; the other members are null. -/
structure Hints where
  family : Int
  socktype : Int
  protocol : Int

inductive Created where
  | ipv4 (address : IPv4Address)
  | ipv6 (address : IPv6Address)
  | unknown (family : UInt16) (data : List UInt8)

abbrev Resolver := Text → Option Text → Hints → Except Int (List Created)

/-- The answer of `getaddrinfo` is an error or a list of addresses, which are appended to
`result`. -/
def received (result : List Created) : Except Int (List Created) → Bool × List Created
  | .error _ => (false, result)
  | .ok found => (!(result ++ found).isEmpty, result ++ found)

def lookup (getaddrinfo : Resolver) (result : List Created) (host : Text)
    (family type protocol : Int) : Bool × List Created :=
  let (node, service) := request host
  received result (getaddrinfo node service ⟨family, type, protocol⟩)

/-- Whatever `getaddrinfo` does, it is asked for this node and this service. -/
def Asks (host node : Text) (service : Option Text) : Prop :=
  ∀ (getaddrinfo : Resolver) (result : List Created) (family type protocol : Int),
    lookup getaddrinfo result host family type protocol =
      received result (getaddrinfo node service ⟨family, type, protocol⟩)

inductive Wanted : Text → Text → Option Text → Prop where
  | bracket {n : Text} (hne : n ≠ []) (hn : 93 ∉ n) : Wanted (91 :: n ++ [93]) n none
  | bracketService {n s : Text} (hne : n ≠ []) (hn : 93 ∉ n) :
    Wanted (91 :: n ++ 93 :: 58 :: s) n (some s)
  | colon {n s : Text} (hne : n ≠ []) (hfirst : n.head? ≠ some 91) (hn : 58 ∉ n) (hs : 58 ∉ s) :
    Wanted (n ++ 58 :: s) n (some s)
  | plain {host : Text} (hfirst : host.head? ≠ some 91) (hcolons : host.count 58 ≠ 1) :
    Wanted host host none

section Search

variable {text pre post : Text} {c : UInt8} {off count : Nat}

theorem memchr_none (h : c ∉ (text.drop off).take count) : memchr text off count c = none := by
  rw [memchr, List.idxOf?_eq_none_iff.mpr h, Option.map_none]

theorem memchr_first (h : (text.drop off).take count = pre ++ c :: post) (hpre : c ∉ pre) :
    memchr text off count c = some (off + pre.length) := by
  have hidx : (pre ++ c :: post).idxOf? c = some pre.length := by
    rw [List.idxOf?_eq_some_iff]
    refine ⟨by simp, by simp, fun j hj hjc => hpre ?_⟩
    rw [List.getElem_append_left hj] at hjc
    exact hjc ▸ List.getElem_mem hj
  rw [memchr, h, hidx, Option.map_some]

theorem cString_eq (h : 0 ∉ text) (off : Nat) : cString text off = text.drop off := by
  rw [cString, List.takeWhile_eq_self_iff]
  intro b hb
  have hne : b ≠ 0 := fun hzero => h (hzero ▸ List.mem_of_mem_drop hb)
  exact bne_iff_ne.mpr hne

end Search

section Cut

variable {host n s rest : Text}

theorem bracketed_eq (hn : 93 ∉ n) : bracketed (91 :: n ++ 93 :: rest) =
    (n, if rest.head? = some 58 then some (n.length + 3) else none) := by
  have hfound : memchr (91 :: n ++ 93 :: rest) 1 ((91 :: n ++ 93 :: rest).length - 1) 93 =
      some (1 + n.length) := by
    have hinside : ((91 :: n ++ 93 :: rest).drop 1).take ((91 :: n ++ 93 :: rest).length - 1) =
        n ++ 93 :: rest := by simp
    exact memchr_first hinside hn
  have hafter : (91 :: n ++ 93 :: rest)[1 + n.length + 1]? = rest.head? := by
    rw [List.head?_eq_getElem?, List.getElem?_append_right (by simp)]
    have hindex : 1 + n.length + 1 - (91 :: n).length = 1 := by
      rw [List.length_cons]
      omega
    rw [hindex, List.getElem?_cons_succ]
  unfold bracketed
  rw [if_pos (by simp), hfound]
  simp only [hafter]
  refine Prod.ext ?_ ?_
  · simp
  · split
    · simp only [Option.some.injEq]
      omega
    · rfl

theorem bracketed_plain (h : host.head? ≠ some 91) : bracketed host = ([], none) := if_neg h

theorem atColon_none (h : 58 ∉ host) : atColon host = ([], none) := by
  have hnone : memchr host 0 host.length 58 = none := memchr_none (by simpa using h)
  rw [atColon, hnone]

theorem memchr_colon (hn : 58 ∉ n) :
    memchr (n ++ 58 :: s) 0 (n ++ 58 :: s).length 58 = some n.length := by
  have hwhole : ((n ++ 58 :: s).drop 0).take (n ++ 58 :: s).length = n ++ 58 :: s := by simp
  rw [memchr_first hwhole hn, Nat.zero_add]

theorem after_colon : ((n ++ 58 :: s).drop (n.length + 1)).take
    ((n ++ 58 :: s).length - n.length - 1) = s := by
  rw [List.drop_append, List.drop_of_length_le (Nat.le_succ _)]
  simp

theorem atColon_one (hn : 58 ∉ n) (hs : 58 ∉ s) :
    atColon (n ++ 58 :: s) = (n, some (n.length + 1)) := by
  have hsecond : memchr (n ++ 58 :: s) (n.length + 1) ((n ++ 58 :: s).length - n.length - 1) 58 =
      none := memchr_none (by rwa [after_colon])
  unfold atColon
  simp only [memchr_colon hn, hsecond, List.take_left]

/-- With several colons the service keeps the place of the first. -/
theorem atColon_more (hn : 58 ∉ n) (hs : 58 ∈ s) :
    atColon (n ++ 58 :: s) = ([], some n.length) := by
  obtain ⟨u, v, huv, hu⟩ := List.eq_append_cons_of_mem hs
  have hsecond : memchr (n ++ 58 :: s) (n.length + 1) ((n ++ 58 :: s).length - n.length - 1) 58 =
      some (n.length + 1 + u.length) := memchr_first (after_colon.trans huv) hu
  unfold atColon
  simp only [memchr_colon hn, hsecond]

end Cut

section Requests

variable {host n s : Text}

theorem request_bracketed {rest : Text} (hne : n ≠ []) (hn : 93 ∉ n)
    (h0 : 0 ∉ 91 :: n ++ 93 :: rest) : request (91 :: n ++ 93 :: rest) =
    (n, if rest.head? = some 58 then some rest.tail else none) := by
  have hn0 : 0 ∉ n := fun h => h0 (by simp [h])
  have hrest : (91 :: n ++ 93 :: rest).drop (n.length + 3) = rest.tail := by
    rw [List.drop_append, List.drop_of_length_le (by simp)]
    simp
  unfold request
  simp only [bracketed_eq hn, if_neg hne, cString_eq hn0, List.drop_zero]
  split
  · rw [Option.map_some, cString_eq h0, hrest]
  · rfl

theorem request_one (hfirst : (n ++ 58 :: s).head? ≠ some 91) (hne : n ≠ []) (hn : 58 ∉ n)
    (hs : 58 ∉ s) (h0 : 0 ∉ n ++ 58 :: s) : request (n ++ 58 :: s) = (n, some s) := by
  have hn0 : 0 ∉ n := fun h => h0 (List.mem_append_left _ h)
  unfold request
  simp only [bracketed_plain hfirst, if_true, atColon_one hn hs, if_neg hne, cString_eq hn0,
    cString_eq h0, Option.map_some, List.drop_zero, List.drop_append]
  simp

theorem request_none (hfirst : host.head? ≠ some 91) (hcolon : 58 ∉ host) (h0 : 0 ∉ host) :
    request host = (host, none) := by
  unfold request
  simp only [bracketed_plain hfirst, if_true, atColon_none hcolon, cString_eq h0, Option.map_none,
    List.drop_zero]

theorem request_more (hfirst : (n ++ 58 :: s).head? ≠ some 91) (hn : 58 ∉ n) (hs : 58 ∈ s)
    (h0 : 0 ∉ n ++ 58 :: s) : request (n ++ 58 :: s) = (n ++ 58 :: s, some (58 :: s)) := by
  unfold request
  simp only [bracketed_plain hfirst, if_true, atColon_more hn hs, cString_eq h0, Option.map_some,
    List.drop_zero, List.drop_left]

end Requests

theorem asks_iff {host node : Text} {service : Option Text} :
    Asks host node service ↔ request host = (node, service) := by
  constructor
  · intro h
    have hone := h (fun n s _ => if (n, s) = (node, service) then .ok [.unknown 0 []] else .error 0)
      [] 0 0 0
    by_contra hne
    simp only [lookup, if_neg hne, if_true] at hone
    cases hone
  · intro h getaddrinfo result family type protocol
    unfold lookup
    rw [h]

/-- `getaddrinfo` is asked for the node and the service of the text, unless the text is not in
brackets and has more than one colon. -/
theorem asks_wanted_iff (host : Text) (h0 : 0 ∉ host) (node : Text) (service : Option Text)
    (hwanted : Wanted host node service) :
    Asks host node service ↔ host.head? = some 91 ∨ host.count 58 < 2 := by
  rw [asks_iff]
  cases hwanted with
  | bracket hne hn =>
    rw [request_bracketed hne hn h0]
    exact iff_of_true rfl (.inl rfl)
  | bracketService hne hn =>
    rw [request_bracketed hne hn h0]
    exact iff_of_true rfl (.inl rfl)
  | @colon _ s hne hfirst hn hs =>
    have hhead : (node ++ 58 :: s).head? ≠ some 91 := by
      rwa [List.head?_append_of_ne_nil _ hne]
    rw [request_one hhead hne hn hs h0]
    refine iff_of_true rfl (.inr ?_)
    rw [List.count_append, List.count_cons_self, List.count_eq_zero.mpr hn,
      List.count_eq_zero.mpr hs]
    decide
  | plain hfirst hcolons =>
    by_cases hcolon : 58 ∈ host
    · obtain ⟨n, s, rfl, hn⟩ := List.eq_append_cons_of_mem hcolon
      rw [List.count_append, List.count_cons_self, List.count_eq_zero.mpr hn] at hcolons ⊢
      have hs : 58 ∈ s := List.count_pos_iff.mp (by omega)
      rw [request_more hfirst hn hs h0]
      have hmore : 0 < s.count 58 := List.count_pos_iff.mpr hs
      refine iff_of_false (fun h => ?_) (not_or.mpr ⟨hfirst, by omega⟩)
      cases h
    · rw [request_none hfirst hcolon h0]
      refine iff_of_true rfl (.inr ?_)
      rw [List.count_eq_zero.mpr hcolon]
      decide

/-- The text `[::1]:80`. -/
theorem asks_wanted_iff_loopback :
    Asks (.ofChars ['[', ':', ':', '1', ']', ':', '8', '0']) (.ofChars [':', ':', '1'])
      (some (.ofChars ['8', '0'])) :=
  (asks_wanted_iff _ (by decide) _ _
    (.bracketService (n := .ofChars [':', ':', '1']) (by decide) (by decide))).mpr (.inl rfl)

/-- The text `::1` is asked for with the service `::1`. -/
theorem asks_for_colon :
    Wanted (.ofChars [':', ':', '1']) (.ofChars [':', ':', '1']) none ∧
      request (.ofChars [':', ':', '1']) =
        (.ofChars [':', ':', '1'], some (.ofChars [':', ':', '1'])) :=
  ⟨.plain (by decide) (by decide), by decide⟩

end Address

end Sylar
