import Sylar.Http.Method
import Sylar.Http.Paths
import Sylar.Lib.Run

/-! What the scan of one read does to the parser. An action either sets offsets or
calls back; a callback leaves the offsets alone and never clears an error. The
offsets stay inside the bytes read, so the assertions at the end hold. -/
namespace Sylar.Http

open Lib

variable {mem : Bytes} {p : Nat} {a : Action} {s s' : HttpRequestParser}

def record (p : Nat) (parser : HttpParser) : Action → HttpParser
  | .mark => { parser with mark := p }
  | .start_field => { parser with fieldStart := p }
  | .write_field => { parser with fieldLen := len parser.fieldStart p }
  | .start_query => { parser with queryStart := p }
  | .done =>
    if parser.xmlSent ∨ parser.jsonSent then
      { parser with bodyStart := parser.mark, contentLen := (p : Int) - parser.mark + 1 }
    else { parser with bodyStart := p + 1 }
  | .xml => { parser with xmlSent := true }
  | .json => { parser with jsonSent := true }
  | _ => parser

structure Reported (s s' : HttpRequestParser) : Prop where
  parser : s'.parser = s.parser
  error : s.error ≠ 0 → s'.error ≠ 0

theorem Reported.refl (s : HttpRequestParser) : Reported s s := ⟨rfl, id⟩

theorem onRequestMethod_reported (mem : Bytes) (off : Nat) (s : HttpRequestParser) :
    Reported s (onRequestMethod mem off s) := by
  simp only [onRequestMethod]
  split
  · exact ⟨rfl, fun _ => Nat.succ_ne_zero _⟩
  · exact ⟨rfl, id⟩

theorem onRequestVersion_reported (mem : Bytes) (off length : Nat) (s : HttpRequestParser) :
    Reported s (onRequestVersion mem off length s) := by
  simp only [onRequestVersion]
  split
  · exact ⟨rfl, id⟩
  · split
    · exact ⟨rfl, id⟩
    · exact ⟨rfl, fun _ => Nat.succ_ne_zero _⟩

theorem versionInside_of_le {off length : Nat} (h : off + length ≤ mem.length) :
    versionInside mem off length = true := by
  have hlen : length ≤ (mem.drop off).length := by
    rw [List.length_drop]
    omega
  rw [versionInside, strncmpInside_terminated hlen (b := http11) (by decide),
    strncmpInside_terminated hlen (b := http10) (by decide), Bool.or_true, Bool.and_true]

theorem onText_reported {set : Bytes → HttpRequest → HttpRequest} {off length : Nat}
    (h : onText mem set off length s = .ok s') : Reported s s' := by
  obtain ⟨text, -, h⟩ := bind_eq_ok.mp h
  obtain rfl := Except.ok.inj h
  exact ⟨rfl, id⟩

theorem onRequestHttpField_reported {field flen value vlen : Nat}
    (h : onRequestHttpField mem field flen value vlen s = .ok s') : Reported s s' := by
  rcases ite_eq_iff.mp h with ⟨-, h⟩ | ⟨-, h⟩
  · obtain rfl := Except.ok.inj h
    exact .refl s
  · obtain ⟨key, -, h⟩ := bind_eq_ok.mp h
    obtain ⟨val, -, h⟩ := bind_eq_ok.mp h
    obtain rfl := Except.ok.inj h
    exact ⟨rfl, id⟩

theorem act_spec (h : act mem p s a = .ok s') :
    s'.parser = record p s.parser a ∧ (s.error ≠ 0 → s'.error ≠ 0) := by
  cases a with
  | write_value =>
    have hr := onRequestHttpField_reported h
    exact ⟨hr.parser, hr.error⟩
  | fragment | query_string | request_path =>
    simp only [act, onRequestFragment, onRequestQuery, onRequestPath] at h
    have hr := onText_reported h
    exact ⟨hr.parser, hr.error⟩
  | request_method =>
    obtain ⟨-, rfl⟩ := comparing_eq_ok.mp h
    have hr := onRequestMethod_reported mem s.parser.mark s
    exact ⟨hr.parser, hr.error⟩
  | http_version =>
    obtain ⟨-, rfl⟩ := comparing_eq_ok.mp h
    have hr := onRequestVersion_reported mem s.parser.mark (len s.parser.mark p) s
    exact ⟨hr.parser, hr.error⟩
  | done =>
    rcases ite_eq_iff.mp h with ⟨hsent, h⟩ | ⟨hsent, h⟩
    · obtain rfl := Except.ok.inj h
      exact ⟨(if_pos hsent).symm, id⟩
    · obtain rfl := Except.ok.inj h
      exact ⟨(if_neg hsent).symm, id⟩
  | mark | start_field | write_field | request_uri | start_query | xml | json =>
    obtain rfl := Except.ok.inj h
    exact ⟨rfl, id⟩

theorem record_frame (p : Nat) (parser : HttpParser) (a : Action) :
    (record p parser a).cs = parser.cs ∧ (record p parser a).uriRelaxed = parser.uriRelaxed ∧
      (a ≠ .done → (record p parser a).bodyStart = parser.bodyStart) := by
  cases a with
  | done =>
    simp only [record]
    split <;> exact ⟨rfl, rfl, fun h => absurd rfl h⟩
  | _ => exact ⟨rfl, rfl, fun _ => rfl⟩

/-- What the actions of an arc, or those of a whole scan, leave alone. -/
structure Kept (quiet : Prop) (s s' : HttpRequestParser) : Prop where
  cs : s'.parser.cs = s.parser.cs
  uriRelaxed : s'.parser.uriRelaxed = s.parser.uriRelaxed
  bodyStart : quiet → s'.parser.bodyStart = s.parser.bodyStart
  error : s.error ≠ 0 → s'.error ≠ 0

namespace Kept

variable {quiet quiet' : Prop}

theorem refl (s : HttpRequestParser) : Kept quiet s s := ⟨rfl, rfl, fun _ => rfl, id⟩

theorem trans {s'' : HttpRequestParser} (h : Kept quiet s s') (h' : Kept quiet s' s'') :
    Kept quiet s s'' :=
  ⟨h'.cs.trans h.cs, h'.uriRelaxed.trans h.uriRelaxed,
    fun hq => (h'.bodyStart hq).trans (h.bodyStart hq), fun he => h'.error (h.error he)⟩

theorem mono (hq : quiet' → quiet) (h : Kept quiet s s') : Kept quiet' s s' :=
  ⟨h.cs, h.uriRelaxed, fun h' => h.bodyStart (hq h'), h.error⟩

end Kept

theorem act_kept (h : act mem p s a = .ok s') : Kept (a ≠ .done) s s' := by
  obtain ⟨hparser, herror⟩ := act_spec h
  obtain ⟨hcs, hrelaxed, hbody⟩ := record_frame p s.parser a
  rw [← hparser] at hcs hrelaxed hbody
  exact ⟨hcs, hrelaxed, hbody, herror⟩

theorem acts_kept {as : List Action} (h : as.foldlM (act mem p) s = .ok s') :
    Kept (.done ∉ as) s s' := by
  induction as generalizing s with
  | nil =>
    obtain rfl := Except.ok.inj h
    exact .refl s
  | cons a as ih =>
    rw [List.foldlM_cons] at h
    obtain ⟨s₁, h₁, h⟩ := bind_eq_ok.mp h
    have hhead : Kept (.done ∉ a :: as) s s₁ :=
      (act_kept h₁).mono fun hd => (List.ne_of_not_mem_cons hd).symm
    have htail : Kept (.done ∉ a :: as) s₁ s' := (ih h).mono List.not_mem_of_not_mem_cons
    exact hhead.trans htail

section Scan

variable {r : Bool} {cs : Nat} {b : UInt8} {bs more : Bytes} {arc : Arc}

theorem scan_none (hn : next s.parser.uriRelaxed cs b = none) :
    scan mem p cs (b :: bs) s = .ok (p, httpParserError, s) := by
  simp only [scan, hn]

theorem scan_done (hn : next s.parser.uriRelaxed cs b = some arc) (hd : .done ∈ arc.actions) :
    scan mem p cs (b :: bs) s =
      arc.actions.foldlM (act mem p) s >>= fun s => .ok (p + 1, arc.target, s) := by
  simp only [scan, hn, if_pos hd]
  rfl

theorem scan_some (hn : next s.parser.uriRelaxed cs b = some arc) (hd : .done ∉ arc.actions) :
    scan mem p cs (b :: bs) s =
      arc.actions.foldlM (act mem p) s >>= scan mem (p + 1) arc.target bs := by
  simp only [scan, hn, if_neg hd]

theorem scan_cons {x : Nat × Nat × HttpRequestParser} (h : scan mem p cs (b :: bs) s = .ok x) :
    (next s.parser.uriRelaxed cs b = none ∧ x = (p, httpParserError, s)) ∨
      ∃ arc s₁, next s.parser.uriRelaxed cs b = some arc ∧
        arc.actions.foldlM (act mem p) s = .ok s₁ ∧
        (.done ∈ arc.actions ∧ x = (p + 1, arc.target, s₁) ∨
          .done ∉ arc.actions ∧ scan mem (p + 1) arc.target bs s₁ = .ok x) := by
  cases hn : next s.parser.uriRelaxed cs b with
  | none =>
    rw [scan_none hn] at h
    exact .inl ⟨rfl, (Except.ok.inj h).symm⟩
  | some arc =>
    by_cases hd : .done ∈ arc.actions
    · rw [scan_done hn hd] at h
      obtain ⟨s₁, h₁, h⟩ := bind_eq_ok.mp h
      exact .inr ⟨arc, s₁, rfl, h₁, .inl ⟨hd, (Except.ok.inj h).symm⟩⟩
    · rw [scan_some hn hd] at h
      obtain ⟨s₁, h₁, h⟩ := bind_eq_ok.mp h
      exact .inr ⟨arc, s₁, rfl, h₁, .inr ⟨hd, h⟩⟩

theorem scan_kept {x : Nat × Nat × HttpRequestParser} (h : scan mem p cs bs s = .ok x) :
    x.2.1 = run s.parser.uriRelaxed cs bs ∧ Kept (x.2.1 < httpParserFirstFinal) s x.2.2 := by
  induction bs generalizing p cs s with
  | nil =>
    obtain rfl := Except.ok.inj h
    exact ⟨rfl, .refl s⟩
  | cons b bs ih =>
    rcases scan_cons h with ⟨hn, rfl⟩ | ⟨arc, s₁, hn, h₁, ⟨hd, rfl⟩ | ⟨hd, h⟩⟩
    · exact ⟨by simp only [run, hn], .refl s⟩
    · refine ⟨by simp only [run, hn, if_pos hd], (acts_kept h₁).mono fun hlt => ?_⟩
      exact absurd ((next_target hn).2.mpr hd) (Nat.not_le_of_lt hlt)
    · have hkept := acts_kept h₁
      obtain ⟨hrun, hkept'⟩ := ih h
      rw [hkept.uriRelaxed] at hrun
      exact ⟨hrun.trans (run_cons hn hd).symm, (hkept.mono fun _ => hd).trans hkept'⟩

theorem scan_takes {x : Nat × Nat × HttpRequestParser} (h : scan mem p cs bs s = .ok x)
    (hc : completes s.parser.uriRelaxed cs (bs ++ more)) : x.1 = p + bs.length := by
  induction bs generalizing p cs s with
  | nil =>
    obtain rfl := Except.ok.inj h
    rfl
  | cons b bs ih =>
    obtain ⟨arc, hn, hstep⟩ := completes_next hc
    rcases scan_cons h with ⟨hn', -⟩ | ⟨arc', s₁, hn', h₁, hrest⟩
    · rw [hn] at hn'
      cases hn'
    · obtain rfl : arc = arc' := Option.some.inj (hn.symm.trans hn')
      rcases hstep with ⟨hd, hnil⟩ | ⟨hd, hc⟩
      · obtain ⟨rfl, -⟩ := List.append_eq_nil_iff.mp hnil
        rcases hrest with ⟨-, rfl⟩ | ⟨hd', -⟩
        · rfl
        · exact absurd hd hd'
      · rcases hrest with ⟨hd', -⟩ | ⟨-, h⟩
        · exact absurd hd' hd
        · rw [ih h ((acts_kept h₁).uriRelaxed ▸ hc), List.length_cons]
          omega

theorem scan_error : scan mem p httpParserError bs s = .ok (p, httpParserError, s) := by
  cases bs with
  | nil => rfl
  | cons b bs => exact scan_none next_error

theorem scan_append (h : run s.parser.uriRelaxed cs bs < httpParserFirstFinal) :
    scan mem p cs (bs ++ more) s =
      scan mem p cs bs s >>= fun x => scan mem x.1 x.2.1 more x.2.2 := by
  induction bs generalizing p cs s with
  | nil => rfl
  | cons b bs ih =>
    rw [List.cons_append]
    cases hn : next s.parser.uriRelaxed cs b with
    | none =>
      rw [scan_none hn, scan_none hn]
      exact scan_error.symm
    | some arc =>
      have hd : .done ∉ arc.actions := by
        intro hd
        simp only [run, hn, if_pos hd] at h
        exact absurd ((next_target hn).2.mpr hd) (Nat.not_le_of_lt h)
      rw [run_cons hn hd] at h
      rw [scan_some hn hd, scan_some hn hd]
      cases hacts : arc.actions.foldlM (act mem p) s with
      | error e => rfl
      | ok s₁ => exact ih ((acts_kept hacts).uriRelaxed ▸ h)

theorem scan_completed (more : Bytes) (hc : completes s.parser.uriRelaxed cs bs) :
    scan mem p cs (bs ++ more) s = scan mem p cs bs s := by
  induction bs generalizing p cs s with
  | nil => cases hc
  | cons b bs ih =>
    rw [List.cons_append]
    obtain ⟨arc, hn, ⟨hd, -⟩ | ⟨hd, hc⟩⟩ := completes_next hc
    · rw [scan_done hn hd, scan_done hn hd]
    · rw [scan_some hn hd, scan_some hn hd]
      cases hacts : arc.actions.foldlM (act mem p) s with
      | error e => rfl
      | ok s₁ => exact ih ((acts_kept hacts).uriRelaxed ▸ hc)

end Scan

structure Bounded (lim p : Nat) (parser : HttpParser) : Prop where
  bodyStart : parser.bodyStart ≤ lim
  mark : parser.mark < lim
  fieldLen : parser.fieldLen ≤ lim
  fieldStart : parser.fieldStart < lim
  begun : parser.fieldStart ≤ p

namespace Bounded

variable {lim : Nat} {parser : HttpParser}

theorem later (h : Bounded lim p parser) : Bounded lim (p + 1) parser :=
  { h with begun := Nat.le_succ_of_le h.begun }

theorem record (hp : p < lim) (h : Bounded lim p parser) (a : Action) :
    Bounded lim p (record p parser a) := by
  cases a with
  | mark => exact { h with mark := hp }
  | start_field => exact { h with fieldStart := hp, begun := Nat.le_refl p }
  | write_field =>
    have hlen : len parser.fieldStart p ≤ lim := by
      rw [len, if_pos h.begun]
      omega
    exact { h with fieldLen := hlen }
  | done =>
    simp only [Http.record]
    split
    · exact { h with bodyStart := Nat.le_of_lt h.mark }
    · exact { h with bodyStart := hp }
  | _ => exact { h with }

end Bounded

theorem acts_bounded {lim : Nat} {as : List Action} (hp : p < lim) (hb : Bounded lim p s.parser)
    (h : as.foldlM (act mem p) s = .ok s') : Bounded lim p s'.parser := by
  induction as generalizing s with
  | nil =>
    obtain rfl := Except.ok.inj h
    exact hb
  | cons a as ih =>
    rw [List.foldlM_cons] at h
    obtain ⟨s₁, h₁, h⟩ := bind_eq_ok.mp h
    have hb₁ : Bounded lim p s₁.parser := (act_spec h₁).1 ▸ hb.record hp a
    exact ih hb₁ h

theorem scan_bounded {lim cs : Nat} {bs : Bytes} {x : Nat × Nat × HttpRequestParser}
    (hp : p + bs.length = lim) (hb : Bounded lim p s.parser)
    (h : scan mem p cs bs s = .ok x) : x.1 ≤ lim ∧ Bounded lim x.1 x.2.2.parser := by
  induction bs generalizing p cs s with
  | nil =>
    obtain rfl := Except.ok.inj h
    exact ⟨Nat.le_of_eq hp, hb⟩
  | cons b bs ih =>
    rw [List.length_cons] at hp
    rcases scan_cons h with ⟨-, rfl⟩ | ⟨arc, s₁, -, h₁, ⟨-, rfl⟩ | ⟨-, h⟩⟩
    · exact ⟨by omega, hb⟩
    · exact ⟨by omega, (acts_bounded (by omega) hb h₁).later⟩
    · exact ih (by omega) (acts_bounded (by omega) hb h₁).later h

end Sylar.Http
