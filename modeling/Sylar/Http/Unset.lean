import Sylar.Http.Receive
import Sylar.Lib.Simulation

/-! Two runs of the request parser that differ in the two members which neither
`http_parser_init` nor the constructor sets. The offset of the query is set before it is
read on every path of the automaton. `uri_relaxed` is never set, and decides about the bytes
that only a relaxed parser takes. -/
namespace Sylar.Http

open Lib

structure Buffer where
  memory : Bytes
  length : Nat
  fits : length ≤ memory.length

structure Outcome where
  consumed : Nat
  finished : Int
  error : Bool
  data : HttpRequest
deriving DecidableEq

namespace HttpRequestParser

/-- A new parser in memory that held `queryStart` and `uriRelaxed`. -/
def new (queryStart : Nat) (uriRelaxed : Bool) : HttpRequestParser :=
  { parser := .init queryStart uriRelaxed, data := .fresh, error := 0 }

def outcome (n : Nat) (s : HttpRequestParser) : Outcome := ⟨n, s.parser.finish, s.hasError, s.data⟩

/-- The outcomes of one call of `execute` after the other; a fault ends them. -/
def outcomes : List Buffer → HttpRequestParser → List (Except Fault Outcome)
  | [], _ => []
  | b :: buffers, s =>
    match s.execute b.memory b.length with
    | .error e => [.error e]
    | .ok (n, _, s) => .ok (s.outcome n) :: outcomes buffers s

end HttpRequestParser

/-- The scan of a parser that is not relaxed stops at a byte that a relaxed one takes. -/
def refused (mem : Bytes) : Nat → Nat → Bytes → HttpRequestParser → Bool
  | _, _, [], _ => false
  | p, cs, b :: bs, s =>
    match next false cs b with
    | none => (next true cs b).isSome
    | some arc =>
      match arc.actions.foldlM (act mem p) s with
      | .error _ => false
      | .ok s => if .done ∈ arc.actions then false else refused mem (p + 1) arc.target bs s

namespace HttpRequestParser

def NeverRefused : List Buffer → HttpRequestParser → Prop
  | [], _ => True
  | b :: buffers, s =>
    refused b.memory 0 s.parser.cs (b.memory.take b.length) s.rewind = false ∧
      ∀ x, s.execute b.memory b.length = .ok x → NeverRefused buffers x.2.2

end HttpRequestParser

section Table

variable {r : Bool} {cs : Nat} {b : UInt8} {arc : Arc}

def inQuery (cs : Nat) : Bool := 30 ≤ cs && cs ≤ 32

/-- Whether the offset of the query is set after the actions; `none` if it is read before. -/
def querySet : Bool → List Action → Option Bool
  | q, [] => some q
  | q, a :: as => if a = .query_string ∧ q = false then none else querySet (q || a = .start_query) as

theorem next_querySet (h : next r cs b = some arc) :
    ∃ q, querySet (inQuery cs) arc.actions = some q ∧ (inQuery arc.target = true → q = true) := by
  obtain ⟨_, _, h, _⟩ := next_entry
    (P := fun cs e => ((querySet (inQuery cs) e.2.2.actions).any
      fun q => !inQuery e.2.2.target || q) = true) (by decide +kernel) h
  obtain ⟨q, hq, htarget⟩ := Option.any_eq_true _ _ |>.mp h
  refine ⟨q, hq, fun hin => ?_⟩
  rw [hin] at htarget
  simpa using htarget

def pastUri (cs : Nat) : Bool :=
  cs == 0 || (4 ≤ cs && cs ≤ 18) || (194 ≤ cs && cs ≤ 201 && cs != 198) || 348 ≤ cs

theorem next_pastUri (h : next r cs b = some arc) :
    (pastUri cs = true → pastUri arc.target = true) ∧
      (.done ∈ arc.actions → pastUri arc.target = true) := by
  obtain ⟨_, _, h, _⟩ := next_entry
    (P := fun cs e => (pastUri cs = true → pastUri e.2.2.target = true) ∧
      (.done ∈ e.2.2.actions → pastUri e.2.2.target = true)) (by decide +kernel) h
  exact h

theorem next_none_of_relaxed (h : next true cs b = none) : next r cs b = none := by
  unfold next at h ⊢
  cases hp : RangeTable.pick b.toNat (state cs).arcs with
  | none =>
    rw [hp] at h
    simp only [if_true] at h
    simp [h]
  | some arc' =>
    rw [hp] at h
    cases h

theorem relaxed_pastUri (h : pastUri cs = true) : (state cs).relaxed = [] := by
  rcases Nat.lt_or_ge cs 350 with hlt | hge
  · have htable : ∀ cs < 350, pastUri cs = true → (state cs).relaxed = [] := by decide +kernel
    exact htable cs hlt h
  · rw [state_of_le hge]

theorem pastUri_of_relaxed (hstrict : next false cs b = none) (hrelaxed : (next true cs b).isSome) :
    pastUri cs = false := by
  by_contra hpast
  unfold next at hstrict hrelaxed
  cases hp : RangeTable.pick b.toNat (state cs).arcs with
  | none =>
    rw [hp, relaxed_pastUri (by simpa using hpast)] at hrelaxed
    cases hrelaxed
  | some arc =>
    rw [hp] at hstrict
    cases hstrict

end Table

section TwoRuns

variable {mem : Bytes} {p cs : Nat} {bs : Bytes} {a : Action} {s t : HttpRequestParser} {q q' : Bool}

def HttpRequestParser.refill (queryStart : Nat) (uriRelaxed : Bool) (s : HttpRequestParser) :
    HttpRequestParser :=
  { s with parser := { s.parser with queryStart, uriRelaxed } }

/-- Two parsers that differ in these members, the offset of the query apart where it is set. -/
def Twin (q : Bool) (s t : HttpRequestParser) : Prop :=
  ∃ queryStart uriRelaxed, t = s.refill queryStart uriRelaxed ∧
    (q = true → queryStart = s.parser.queryStart)

theorem Twin.mono (h : Twin q s t) (hq : q' = true → q = true) : Twin q' s t := by
  obtain ⟨k, r, ht, hk⟩ := h
  exact ⟨k, r, ht, fun h => hk (hq h)⟩

theorem Twin.onText (h : Twin q s t) (set : Bytes → HttpRequest → HttpRequest) (off length : Nat) :
    Related (Twin q) (onText mem set off length s) (onText mem set off length t) := by
  obtain ⟨k, r, rfl, hk⟩ := h
  unfold Http.onText
  cases stdString mem off length with
  | error e => exact .error e
  | ok text => exact .ok ⟨k, r, rfl, hk⟩

theorem Twin.onRequestHttpField (h : Twin q s t) (field flen value vlen : Nat) :
    Related (Twin q) (onRequestHttpField mem field flen value vlen s)
      (onRequestHttpField mem field flen value vlen t) := by
  unfold Http.onRequestHttpField
  split
  · exact .ok h
  · obtain ⟨k, r, rfl, hk⟩ := h
    cases stdString mem field flen with
    | error e => exact .error e
    | ok key =>
      cases stdString mem value vlen with
      | error e => exact .error e
      | ok val => exact .ok ⟨k, r, rfl, hk⟩

theorem Twin.reported (h : Twin q s t) (f : HttpRequestParser → HttpRequestParser)
    (hf : ∀ k r, f (s.refill k r) = (f s).refill k r)
    (hs : (f s).parser.queryStart = s.parser.queryStart) : Twin q (f s) (f t) := by
  obtain ⟨k, r, rfl, hk⟩ := h
  exact ⟨k, r, hf k r, fun hq => (hk hq).trans hs.symm⟩

theorem act_done (mem : Bytes) (p : Nat) (s : HttpRequestParser) :
    act mem p s .done = .ok { s with parser := record p s.parser .done } := by
  simp only [act, record]
  split <;> rfl

theorem record_done_refill (p k : Nat) (r : Bool) (s : HttpRequestParser) :
    record p (s.refill k r).parser .done =
      { record p s.parser .done with queryStart := k, uriRelaxed := r } := by
  obtain ⟨⟨_, _, _, _, _, _, _, _, xmlSent, jsonSent, _⟩, _, _⟩ := s
  cases xmlSent <;> cases jsonSent <;> rfl

@[simp] theorem record_done_queryStart (p : Nat) (parser : HttpParser) :
    (record p parser .done).queryStart = parser.queryStart := by
  simp only [record]
  split <;> rfl

theorem Twin.comparing (inside : Bool) (h : Twin q s t) :
    Related (Twin q) (comparing inside s) (comparing inside t) := by
  cases inside with
  | true => exact .ok h
  | false => exact .error _

/-- An action does the same to both, unless it reads the offset before it is set. -/
theorem Twin.act (h : Twin q s t) (p : Nat) (ha : ¬(a = .query_string ∧ q = false)) :
    Related (Twin (q || a = .start_query)) (act mem p s a) (act mem p t a) := by
  obtain ⟨k, r, rfl, hk⟩ := h
  by_cases hstart : a = .start_query
  · subst hstart
    exact .ok ⟨p, r, rfl, fun _ => rfl⟩
  have hflag : (q || decide (a = .start_query)) = q := by simp [hstart]
  rw [hflag]
  have h : Twin q s (s.refill k r) := ⟨k, r, rfl, hk⟩
  cases a with
  | start_query => exact absurd rfl hstart
  | query_string =>
    have hq : q = true := by simpa using ha
    have hoff : (s.refill k r).parser.queryStart = s.parser.queryStart := hk hq
    simp only [Http.act, onRequestQuery, hoff]
    exact h.onText _ _ _
  | fragment =>
    simp only [Http.act, onRequestFragment, HttpRequestParser.refill]
    exact h.onText _ _ _
  | request_path =>
    simp only [Http.act, onRequestPath, HttpRequestParser.refill]
    exact h.onText _ _ _
  | write_value => exact h.onRequestHttpField _ _ _ _
  | request_method =>
    refine (h.reported (onRequestMethod mem s.parser.mark) (fun k r => ?_) ?_).comparing _
    · unfold onRequestMethod
      simp only
      split <;> rfl
    · rw [(onRequestMethod_reported mem s.parser.mark s).parser]
  | http_version =>
    refine (h.reported (onRequestVersion mem s.parser.mark (len s.parser.mark p))
      (fun k r => ?_) ?_).comparing _
    · unfold onRequestVersion
      simp only
      split
      · rfl
      · split <;> rfl
    · rw [(onRequestVersion_reported mem s.parser.mark (len s.parser.mark p) s).parser]
  | done =>
    rw [act_done, act_done]
    refine .ok ⟨k, r, ?_, ?_⟩
    · rw [record_done_refill]
      rfl
    · rw [record_done_queryStart]
      exact hk
  | _ => exact .ok ⟨k, r, rfl, hk⟩

variable (mem) in
theorem Twin.acts {as : List Action} (h : Twin q s t) (p : Nat) (has : querySet q as = some q') :
    Related (Twin q') (as.foldlM (Http.act mem p) s) (as.foldlM (Http.act mem p) t) := by
  induction as generalizing q s t with
  | nil =>
    obtain rfl := Option.some.inj has
    exact .ok h
  | cons a as ih =>
    rw [querySet] at has
    obtain ⟨ha, has⟩ := Option.ite_none_left_eq_some.mp has
    rw [List.foldlM_cons, List.foldlM_cons]
    exact (h.act p ha).bind fun s t h => ih h has

theorem refused_some {b : UInt8} {arc : Arc} (hn : next false cs b = some arc)
    (hacts : arc.actions.foldlM (Http.act mem p) s = .ok t) (hd : .done ∉ arc.actions) :
    refused mem p cs (b :: bs) s = refused mem (p + 1) arc.target bs t := by
  simp only [refused, hn, hacts, if_neg hd]

def TwinScan (x y : Nat × Nat × HttpRequestParser) : Prop :=
  y.1 = x.1 ∧ y.2.1 = x.2.1 ∧ Twin (inQuery x.2.1) x.2.2 y.2.2

theorem Twin.scan (h : Twin (inQuery cs) s t) (hstrict : s.parser.uriRelaxed = false)
    (hrefused : refused mem p cs bs s = false) :
    Related TwinScan (scan mem p cs bs s) (scan mem p cs bs t) := by
  induction bs generalizing p cs s t with
  | nil => exact .ok ⟨rfl, rfl, h⟩
  | cons b bs ih =>
    cases hn : next false cs b with
    | none =>
      rw [refused, hn] at hrefused
      have hnone : next true cs b = none := by simpa using hrefused
      rw [scan_none (next_none_of_relaxed hnone), scan_none (next_none_of_relaxed hnone)]
      exact .ok ⟨rfl, rfl, h.mono nofun⟩
    | some arc =>
      obtain ⟨q, hq, htarget⟩ := next_querySet hn
      have hacts := (h.acts mem p hq).attach
      by_cases hd : .done ∈ arc.actions
      · rw [scan_done (next_relaxed hn) hd, scan_done (next_relaxed hn) hd]
        exact hacts.bind fun s t h => .ok ⟨rfl, rfl, h.1.mono htarget⟩
      · rw [scan_some (next_relaxed hn) hd, scan_some (next_relaxed hn) hd]
        refine hacts.bind fun s₁ t₁ h₁ => ih (h₁.1.mono htarget) ?_ ?_
        · rw [(acts_kept h₁.2).uriRelaxed, hstrict]
        · rw [← refused_some hn h₁.2 hd]
          exact hrefused

theorem Twin.stopped (h : Twin (inQuery cs) s t) (p : Nat) :
    Twin (inQuery (s.stopped p cs).parser.cs) (s.stopped p cs) (t.stopped p cs) := by
  obtain ⟨k, r, rfl, hk⟩ := h
  refine ⟨k, r, rfl, fun hq => hk ?_⟩
  simp only [HttpRequestParser.stopped] at hq
  split at hq
  case isTrue herror =>
    rw [beq_iff_eq.mp herror] at hq
    cases hq
  case isFalse => exact hq

def TwinCall (x y : Nat × HttpRequestParser) : Prop :=
  y.1 = x.1 ∧ Twin (inQuery x.2.parser.cs) x.2 y.2

theorem Twin.cs_eq (h : Twin q s t) : t.parser.cs = s.parser.cs := by
  obtain ⟨k, r, rfl, -⟩ := h
  rfl

theorem Twin.rewind (h : Twin q s t) : Twin q s.rewind t.rewind := by
  obtain ⟨k, r, rfl, hk⟩ := h
  exact ⟨k, r, rfl, hk⟩

section Calls

variable (h : Twin (inQuery s.parser.cs) s t) (hstrict : s.parser.uriRelaxed = false) (b : Buffer)
  (hrefused : refused b.memory 0 s.parser.cs (b.memory.take b.length) s.rewind = false)

include h hstrict hrefused

theorem Twin.httpParserExecute :
    Related TwinCall (s.httpParserExecute b.memory b.length) (t.httpParserExecute b.memory b.length) := by
  unfold HttpRequestParser.httpParserExecute
  by_cases hlen : b.length = 0
  · rw [if_pos hlen, if_pos hlen]
    exact .ok ⟨rfl, h⟩
  · rw [if_neg hlen, if_neg hlen]
    rw [h.cs_eq]
    refine (h.rewind.scan hstrict hrefused).bind ?_
    rintro ⟨p, cs, s₁⟩ ⟨p', cs', t₁⟩ ⟨rfl, rfl, h₁⟩
    replace h₁ : Twin (inQuery cs') s₁ t₁ := h₁
    have hbounds : (t₁.stopped p' cs').parser.InBounds b.length ↔
        (s₁.stopped p' cs').parser.InBounds b.length := by
      obtain ⟨k, r, rfl, -⟩ := h₁
      exact Iff.rfl
    by_cases hin : (s₁.stopped p' cs').parser.InBounds b.length
    · simp only [if_pos hin, if_pos (hbounds.mpr hin)]
      exact .ok ⟨rfl, h₁.stopped p'⟩
    · simp only [if_neg hin, if_neg (mt hbounds.mp hin)]
      exact .error _

theorem Twin.execute :
    Related (fun x y => y.1 = x.1 ∧ Twin (inQuery x.2.2.parser.cs) x.2.2 y.2.2)
      (s.execute b.memory b.length) (t.execute b.memory b.length) :=
  (h.httpParserExecute hstrict b hrefused).bind fun _ _ h₁ => .ok h₁

end Calls

theorem Twin.outcome (h : Twin q s t) (n : Nat) : t.outcome n = s.outcome n := by
  obtain ⟨k, r, rfl, -⟩ := h
  rfl

/-- A parser whose memory held a zero; before the end of the URI no body has begun. -/
structure Strict (s : HttpRequestParser) : Prop where
  uriRelaxed : s.parser.uriRelaxed = false
  bodyStart : pastUri s.parser.cs = false → s.parser.bodyStart = 0

theorem pastUri_run {r : Bool} (h : pastUri cs = true) : pastUri (run r cs bs) = true := by
  induction bs generalizing cs with
  | nil => exact h
  | cons b bs ih =>
    unfold run
    cases hn : next r cs b with
    | none => rfl
    | some arc =>
      have htarget := (next_pastUri hn).1 h
      simp only
      split
      · exact htarget
      · exact ih htarget

theorem Strict.stopped {x : Nat × Nat × HttpRequestParser} (h : Strict s)
    (hscan : scan mem 0 s.parser.cs bs s.rewind = .ok x) : Strict (x.2.2.stopped x.1 x.2.1) := by
  obtain ⟨hrun, hkept⟩ := scan_kept hscan
  refine ⟨hkept.uriRelaxed.trans h.uriRelaxed, fun hpast => ?_⟩
  simp only [HttpRequestParser.stopped] at hpast
  split at hpast
  case isTrue herror =>
    rw [beq_iff_eq.mp herror] at hpast
    cases hpast
  case isFalse =>
    have hlt : x.2.1 < httpParserFirstFinal := by
      by_contra hge
      have hfinal : 348 ≤ x.2.1 := Nat.le_of_not_lt hge
      simp [pastUri, hfinal] at hpast
    refine (hkept.bodyStart hlt).trans (h.bodyStart ?_)
    by_contra hcs
    rw [hrun, pastUri_run (by simpa using hcs)] at hpast
    cases hpast

theorem execute_cases {b : Buffer} {x : Nat × Bytes × HttpRequestParser}
    (hx : s.execute b.memory b.length = .ok x) :
    (b.length = 0 ∧ x.2.2 = s) ∨
      ∃ y, scan b.memory 0 s.parser.cs (b.memory.take b.length) s.rewind = .ok y ∧
        x.1 = y.1 ∧ x.2.2 = y.2.2.stopped y.1 y.2.1 := by
  obtain ⟨y, hy, hx⟩ := bind_eq_ok.mp hx
  obtain rfl := Except.ok.inj hx
  unfold HttpRequestParser.httpParserExecute at hy
  rcases ite_eq_iff.mp hy with ⟨hlen, hy⟩ | ⟨-, hy⟩
  · obtain rfl := Except.ok.inj hy
    exact .inl ⟨hlen, rfl⟩
  · obtain ⟨z, hscan, hy⟩ := bind_eq_ok.mp hy
    rcases ite_eq_iff.mp hy with ⟨-, hy⟩ | ⟨-, hy⟩
    · obtain rfl := Except.ok.inj hy
      exact .inr ⟨z, hscan, rfl, rfl⟩
    · cases hy

theorem execute_uriRelaxed {b : Buffer} {x : Nat × Bytes × HttpRequestParser}
    (hx : s.execute b.memory b.length = .ok x) :
    x.2.2.parser.uriRelaxed = s.parser.uriRelaxed := by
  rcases execute_cases hx with ⟨-, hx⟩ | ⟨y, hscan, -, hx⟩
  · rw [hx]
  · rw [hx]
    exact (scan_kept hscan).2.uriRelaxed

theorem Strict.execute {b : Buffer} {x : Nat × Bytes × HttpRequestParser} (h : Strict s)
    (hx : s.execute b.memory b.length = .ok x) : Strict x.2.2 := by
  rcases execute_cases hx with ⟨-, hx⟩ | ⟨y, hscan, -, hx⟩
  · rw [hx]
    exact h
  · rw [hx]
    exact h.stopped hscan

/-- Where nothing is refused, the members that were not set make no difference. -/
theorem Twin.outcomes {buffers : List Buffer} (h : Twin (inQuery s.parser.cs) s t)
    (hs : Strict s) (hnever : s.NeverRefused buffers) :
    t.outcomes buffers = s.outcomes buffers := by
  induction buffers generalizing s t with
  | nil => rfl
  | cons b buffers ih =>
    obtain ⟨hrefused, hrest⟩ := hnever
    have hcall := h.execute hs.uriRelaxed b hrefused
    unfold HttpRequestParser.outcomes
    generalize hx : s.execute b.memory b.length = x at hcall
    generalize t.execute b.memory b.length = y at hcall
    cases hcall with
    | error e => rfl
    | @ok x y h₁ =>
      obtain ⟨n, mem, s₁⟩ := x
      obtain ⟨n', mem', t₁⟩ := y
      obtain ⟨rfl, h₁⟩ := h₁
      replace h₁ : Twin (inQuery s₁.parser.cs) s₁ t₁ := h₁
      simp only [h₁.outcome, ih h₁ (hs.execute hx) (hrest _ hx)]

theorem le_of_scan {x : Nat × Nat × HttpRequestParser} (h : scan mem p cs bs s = .ok x) :
    p ≤ x.1 := by
  induction bs generalizing p cs s with
  | nil =>
    obtain rfl := Except.ok.inj h
    exact Nat.le_refl p
  | cons b bs ih =>
    rcases scan_cons h with ⟨-, rfl⟩ | ⟨arc, s₁, -, -, ⟨-, rfl⟩ | ⟨-, h⟩⟩
    · exact Nat.le_refl p
    · exact Nat.le_succ p
    · exact Nat.le_of_succ_le (ih h)

/-- At a byte that is refused, one scan stops and the other goes on. -/
theorem Twin.scan_refused (h : Twin (inQuery cs) s t) (hs : s.parser.uriRelaxed = false)
    (ht : t.parser.uriRelaxed = true) (hrefused : refused mem p cs bs s = true) :
    pastUri cs = false ∧ ∃ n s', Http.scan mem p cs bs s = .ok (n, httpParserError, s') ∧
      ∀ y, Http.scan mem p cs bs t = .ok y → n < y.1 := by
  induction bs generalizing p cs s t with
  | nil => cases hrefused
  | cons b bs ih =>
    rw [refused] at hrefused
    cases hn : next false cs b with
    | none =>
      rw [hn] at hrefused
      refine ⟨pastUri_of_relaxed hn hrefused, p, s, scan_none (hs ▸ hn), fun y hy => ?_⟩
      obtain ⟨arc, harc⟩ := Option.isSome_iff_exists.mp hrefused
      rcases scan_cons hy with ⟨hnone, -⟩ | ⟨_, t₁, -, -, ⟨-, rfl⟩ | ⟨-, hy⟩⟩
      · rw [ht, harc] at hnone
        cases hnone
      · exact Nat.lt_succ_self p
      · exact le_of_scan hy
    | some arc =>
      obtain ⟨q, hq, htarget⟩ := next_querySet hn
      have hacts := h.acts mem p hq
      rw [hn] at hrefused
      simp only at hrefused
      cases hacts' : arc.actions.foldlM (Http.act mem p) s with
      | error e =>
        rw [hacts'] at hrefused
        cases hrefused
      | ok s₁ =>
        rw [hacts'] at hrefused hacts
        simp only at hrefused
        split at hrefused
        · cases hrefused
        case isFalse hd =>
          generalize hacts'' : arc.actions.foldlM (Http.act mem p) t = y at hacts
          cases hacts with
          | @ok _ t₁ h₁ =>
            have hs₁ : s₁.parser.uriRelaxed = false := (acts_kept hacts').uriRelaxed.trans hs
            have ht₁ : t₁.parser.uriRelaxed = true := (acts_kept hacts'').uriRelaxed.trans ht
            obtain ⟨hpast, hstop⟩ := ih (h₁.mono htarget) hs₁ ht₁ hrefused
            rw [scan_some (next_relaxed hn) hd, scan_some (next_relaxed hn) hd, hacts', hacts'']
            refine ⟨?_, hstop⟩
            by_contra hcs
            rw [(next_pastUri hn).1 (by simpa using hcs)] at hpast
            cases hpast

/-- So the calls differ in what they consume, or one of them fails. -/
theorem Twin.execute_refused (h : Twin (inQuery s.parser.cs) s t) (hs : Strict s)
    (ht : t.parser.uriRelaxed = true) (b : Buffer)
    (hrefused : refused b.memory 0 s.parser.cs (b.memory.take b.length) s.rewind = true) :
    ∃ x, s.execute b.memory b.length = .ok x ∧
      ∀ y, t.execute b.memory b.length = .ok y → x.1 < y.1 := by
  have hlen : b.length ≠ 0 := by
    intro hzero
    rw [hzero] at hrefused
    cases hrefused
  obtain ⟨hpast, n, s', hscan, hgreater⟩ := h.rewind.scan_refused hs.uriRelaxed ht hrefused
  have hbody : s.parser.bodyStart ≤ b.length := by
    rw [hs.bodyStart hpast]
    exact Nat.zero_le _
  have hexec := HttpRequestParser.httpParserExecute_eq hlen b.fits hbody
  rw [hscan] at hexec
  refine ⟨_, bind_eq_ok.mpr ⟨_, hexec, rfl⟩, fun y hy => ?_⟩
  rcases execute_cases hy with ⟨hzero, -⟩ | ⟨z, hz, hy, -⟩
  · exact absurd hzero hlen
  · rw [h.cs_eq] at hz
    rw [hy]
    exact hgreater z hz

theorem Twin.neverRefused {buffers : List Buffer} (h : Twin (inQuery s.parser.cs) s t) (hs : Strict s)
    (ht : t.parser.uriRelaxed = true) (heq : t.outcomes buffers = s.outcomes buffers) :
    s.NeverRefused buffers := by
  induction buffers generalizing s t with
  | nil => trivial
  | cons b buffers ih =>
    unfold HttpRequestParser.outcomes at heq
    have hrefused : refused b.memory 0 s.parser.cs (b.memory.take b.length) s.rewind = false := by
      by_contra hrefused
      obtain ⟨x, hx, hless⟩ := h.execute_refused hs ht b (by simpa using hrefused)
      rw [hx] at heq
      generalize hy : t.execute b.memory b.length = y at heq
      cases y with
      | error e => simp at heq
      | ok y =>
        have hcall := congrArg Outcome.consumed (Except.ok.inj (List.cons.inj heq).1)
        exact absurd hcall (Nat.ne_of_gt (hless y hy))
    refine ⟨hrefused, fun x hx => ?_⟩
    have hcall := h.execute hs.uriRelaxed b hrefused
    rw [hx] at hcall heq
    generalize hy : t.execute b.memory b.length = y at hcall heq
    cases hcall with
    | @ok _ y h₁ =>
      have ht₁ : y.2.2.parser.uriRelaxed = true := (execute_uriRelaxed hy).trans ht
      exact ih h₁.2 (hs.execute hx) ht₁ (List.cons.inj heq).2

end TwoRuns

namespace HttpRequestParser

theorem strict_new (queryStart : Nat) : Strict (new queryStart false) := ⟨rfl, fun _ => rfl⟩

theorem twin_new (queryStart : Nat) (uriRelaxed : Bool) :
    Twin (inQuery (new 0 false).parser.cs) (new 0 false) (new queryStart uriRelaxed) :=
  ⟨queryStart, uriRelaxed, rfl, nofun⟩

/-- The outcomes do not depend on what the memory of the parser held exactly if no call stops
at a byte that only a relaxed parser takes. -/
theorem outcomes_same_iff (buffers : List Buffer) :
    (∀ queryStart queryStart' uriRelaxed uriRelaxed',
      (new queryStart uriRelaxed).outcomes buffers = (new queryStart' uriRelaxed').outcomes buffers) ↔
    (new 0 false).NeverRefused buffers := by
  constructor
  · intro hsame
    exact (twin_new 0 true).neverRefused (strict_new 0) rfl (hsame 0 0 true false)
  · intro hnever queryStart queryStart' uriRelaxed uriRelaxed'
    rw [(twin_new queryStart uriRelaxed).outcomes (strict_new 0) hnever,
      (twin_new queryStart' uriRelaxed').outcomes (strict_new 0) hnever]

def brace : Buffer := ⟨ascii ['G', 'E', 'T', ' ', '/', '\x7b', ' '], 7, by decide⟩

theorem outcomes_differ_brace :
    (new 0 false).outcomes [brace] ≠ (new 0 true).outcomes [brace] := by
  decide

end HttpRequestParser

end Sylar.Http
