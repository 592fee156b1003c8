import Sylar.Http.Limits
import Sylar.Http.RequestLine

/-! What `recvRequest` can throw. The offsets that the callbacks use are set in the read that is
scanned, or put to its front when the read begins, so that they stay inside the buffer; only the
offset of the query is kept from one read to the next. The method is compared with texts of up
to 11 bytes, which a buffer of that size holds. -/
namespace Sylar.Http

open Lib Lib.Blocks

/-- The computation returns with the property, or it throws `std::length_error` and this is
permitted. -/
def Throws {α : Type} (permitted : Bool) (P : α → Prop) (x : Except Fault α) : Prop :=
  (∃ a, x = .ok a ∧ P a) ∨ (x = .error .lengthError ∧ permitted = true)

theorem Throws.bind {α β : Type} {permitted : Bool} {P : α → Prop} {Q : β → Prop}
    {x : Except Fault α} {f : α → Except Fault β} (h : Throws permitted P x)
    (hf : ∀ a, P a → Throws permitted Q (f a)) : Throws permitted Q (x >>= f) := by
  rcases h with ⟨a, rfl, ha⟩ | ⟨rfl, hk⟩
  · exact hf a ha
  · exact .inr ⟨rfl, hk⟩

def inValue (cs : Nat) : Bool := cs == 15 || cs == 16

/-- What is known of the offsets: whether that of the query and the end of the name are set, and
whether the mark is at the front of the read. -/
structure Marks where
  query : Bool
  field : Bool
  front : Bool

/-- What is known after an action; `none` if the action uses an offset of which it is not.
`first` says that the action is made at the first byte. -/
def Marks.act (first : Bool) (x : Marks) : Action → Option Marks
  | .mark => some { x with front := first }
  | .start_query => some { x with query := true }
  | .query_string => if x.query then some x else none
  | .start_field => some { x with field := false }
  | .write_field => some { x with field := true }
  | .write_value => if x.field then some x else none
  | .request_method => if x.front then some x else none
  | _ => some x

def Marks.at (cs : Nat) : Marks := ⟨inQuery cs, inValue cs, inMethod cs⟩

structure Marks.Covers (x y : Marks) : Prop where
  query : y.query = true → x.query = true
  field : y.field = true → x.field = true
  front : y.front = true → x.front = true

theorem next_marks {r : Bool} {cs : Nat} {b : UInt8} {arc : Arc} (h : next r cs b = some arc) :
    arc.target ≠ httpParserStart ∧ ∃ x : Marks,
      arc.actions.foldlM (Marks.act (cs == httpParserStart)) (.at cs) = some x ∧
        x.Covers (.at arc.target) := by
  obtain ⟨_, _, h, _⟩ := next_entry
    (P := fun cs e => (e.2.2.target != httpParserStart &&
      (e.2.2.actions.foldlM (Marks.act (cs == httpParserStart)) (.at cs)).any fun x =>
        (!inQuery e.2.2.target || x.query) && (!inValue e.2.2.target || x.field) &&
          (!inMethod e.2.2.target || x.front)) = true)
    (by decide +kernel) h
  obtain ⟨hstart, h⟩ := Bool.and_eq_true_iff.mp h
  obtain ⟨x, hx, htarget⟩ := Option.any_eq_true _ _ |>.mp h
  simp only [Bool.and_eq_true, Bool.or_eq_true, Bool.not_eq_true'] at htarget
  obtain ⟨⟨hquery, hfield⟩, hfront⟩ := htarget
  refine ⟨by simpa using hstart, x, hx, fun hy => ?_, fun hy => ?_, fun hy => ?_⟩
  · exact hquery.resolve_left (Bool.ne_false_iff.mpr hy)
  · exact hfield.resolve_left (Bool.ne_false_iff.mpr hy)
  · exact hfront.resolve_left (Bool.ne_false_iff.mpr hy)

/-- The offsets at `p`. That of the query may be one of an earlier read, when `stale` says so. -/
structure Safe (stale : Bool) (lim p : Nat) (x : Marks) (parser : HttpParser) : Prop where
  mark : parser.mark ≤ p
  fieldStart : parser.fieldStart ≤ p
  field : x.field = true → parser.fieldStart + parser.fieldLen ≤ p
  query : x.query = true → parser.queryStart ≤ p ∨ stale = true ∧ parser.queryStart ≤ lim
  front : x.front = true → parser.mark = 0

variable {stale first : Bool} {lim p : Nat} {x y : Marks} {parser : HttpParser} {a : Action}
  {mem : Bytes} {s : HttpRequestParser}

theorem Safe.of_record (h : Safe stale lim p x parser) (hx : x.act first a = some y)
    (hfirst : first = true → p = 0) : Safe stale lim p y (record p parser a) := by
  cases a with
  | mark =>
    obtain rfl := Option.some.inj hx
    exact { h with mark := Nat.le_refl p, front := hfirst }
  | start_field =>
    obtain rfl := Option.some.inj hx
    exact { h with fieldStart := Nat.le_refl p, field := fun h => by cases h }
  | write_field =>
    obtain rfl := Option.some.inj hx
    exact { h with field := fun _ => Nat.le_of_eq (add_len h.fieldStart) }
  | start_query =>
    obtain rfl := Option.some.inj hx
    exact { h with query := fun _ => .inl (Nat.le_refl p) }
  | write_value | query_string | request_method =>
    obtain ⟨-, hx⟩ := Option.ite_none_right_eq_some.mp hx
    exact Option.some.inj hx ▸ h
  | done =>
    obtain rfl := Option.some.inj hx
    simp only [record]
    split <;> exact { h with }
  | _ => exact Option.some.inj hx ▸ { h with }

theorem Safe.mono (h : Safe stale lim p x parser) (hy : x.Covers y) {q : Nat} (hq : p ≤ q) :
    Safe stale lim q y parser where
  mark := h.mark.trans hq
  fieldStart := h.fieldStart.trans hq
  field hn := (h.field (hy.field hn)).trans hq
  query hn := (h.query (hy.query hn)).imp_left fun hle => hle.trans hq
  front hn := h.front (hy.front hn)

/-- An action throws only where it takes the query from an offset of an earlier read. -/
theorem Safe.act_ok (h : Safe stale lim p x s.parser) (hx : x.act first a = some y)
    (hroom : 11 ≤ mem.length) (hp : p < mem.length) (hlt : p < 2 ^ 63) (hlim : lim < 2 ^ 63) :
    (∃ s', act mem p s a = .ok s') ∨ (act mem p s a = .error .lengthError ∧ stale = true) := by
  obtain ⟨text, htext⟩ := stdString_ok h.mark (Nat.le_of_lt hp) hlt
  cases a with
  | write_value =>
    have hend := h.field (Option.ite_none_right_eq_some.mp hx).1
    have hkey : ∃ key, stdString mem s.parser.fieldStart s.parser.fieldLen = .ok key := by
      rw [stdString, if_neg (by omega), if_pos (by omega)]
      exact ⟨_, rfl⟩
    obtain ⟨key, hkey⟩ := hkey
    simp only [act, onRequestHttpField, htext, hkey]
    by_cases hzero : s.parser.fieldLen = 0
    · exact .inl ⟨s, if_pos hzero⟩
    · exact .inl ⟨_, if_neg hzero⟩
  | fragment | request_path =>
    simp only [act, onRequestFragment, onRequestPath, onText, htext]
    exact .inl ⟨_, rfl⟩
  | query_string =>
    simp only [act, onRequestQuery, onText]
    by_cases hle : s.parser.queryStart ≤ p
    · obtain ⟨query, hquery⟩ := stdString_ok hle (Nat.le_of_lt hp) hlt
      rw [hquery]
      exact .inl ⟨_, rfl⟩
    · obtain ⟨hstale, hold⟩ := (h.query (Option.ite_none_right_eq_some.mp hx).1).resolve_left hle
      have hlong : 2 ^ 63 ≤ len s.parser.queryStart p := by
        rw [len, if_neg hle]
        omega
      rw [stdString, if_pos hlong]
      exact .inr ⟨rfl, hstale⟩
  | request_method =>
    have hfront := h.front (Option.ite_none_right_eq_some.mp hx).1
    simp only [act, hfront, List.drop_zero, charsInside_of_length hroom, comparing_true]
    exact .inl ⟨_, rfl⟩
  | http_version =>
    have hinside : s.parser.mark + len s.parser.mark p ≤ mem.length :=
      (add_len h.mark).symm ▸ Nat.le_of_lt hp
    simp only [act, versionInside_of_le hinside, comparing_true]
    exact .inl ⟨_, rfl⟩
  | done =>
    simp only [act]
    split <;> exact .inl ⟨_, rfl⟩
  | _ => exact .inl ⟨_, rfl⟩

theorem Safe.of_act (h : Safe stale lim p x s.parser) (hx : x.act first a = some y)
    (hfirst : first = true → p = 0) (hroom : 11 ≤ mem.length) (hp : p < mem.length)
    (hlt : p < 2 ^ 63) (hlim : lim < 2 ^ 63) :
    Throws stale (fun s' => Safe stale lim p y s'.parser) (act mem p s a) := by
  rcases h.act_ok hx hroom hp hlt hlim with ⟨s', hs'⟩ | herror
  · have hsafe : Safe stale lim p y s'.parser := (act_spec hs').1 ▸ h.of_record hx hfirst
    exact .inl ⟨s', hs', hsafe⟩
  · exact .inr herror

theorem Safe.of_acts {as : List Action} (h : Safe stale lim p x s.parser)
    (hx : as.foldlM (Marks.act first) x = some y) (hfirst : first = true → p = 0)
    (hroom : 11 ≤ mem.length) (hp : p < mem.length) (hlt : p < 2 ^ 63) (hlim : lim < 2 ^ 63) :
    Throws stale (fun s' => Safe stale lim p y s'.parser) (as.foldlM (act mem p) s) := by
  induction as generalizing s x with
  | nil => exact .inl ⟨s, rfl, Option.some.inj hx ▸ h⟩
  | cons a as ih =>
    rw [List.foldlM_cons] at hx ⊢
    obtain ⟨x₁, hx₁, hx⟩ := Option.bind_eq_some_iff.mp hx
    exact (h.of_act hx₁ hfirst hroom hp hlt hlim).bind fun s₁ h₁ => ih h₁ hx

theorem Safe.of_scan {cs : Nat} {bs : Bytes}
    (h : Safe stale lim p (.at cs) s.parser) (hstart : cs = httpParserStart → p = 0)
    (hroom : 11 ≤ mem.length) (hmem : p + bs.length ≤ mem.length) (hlt : p + bs.length ≤ lim)
    (hlim : lim < 2 ^ 63) :
    Throws stale (fun x => Safe stale lim x.1 (.at x.2.1) x.2.2.parser)
      (scan mem p cs bs s) := by
  induction bs generalizing p cs s with
  | nil => exact .inl ⟨_, rfl, h⟩
  | cons b bs ih =>
    rw [List.length_cons] at hmem hlt
    cases hn : next s.parser.uriRelaxed cs b with
    | none =>
      rw [scan_none hn]
      exact .inl ⟨_, rfl, h.mark, h.fieldStart, nofun, nofun, nofun⟩
    | some arc =>
      obtain ⟨hgone, x, hx, htarget⟩ := next_marks hn
      have hacts : Throws stale _ (arc.actions.foldlM (act mem p) s) :=
        h.of_acts hx (fun hfirst => hstart (beq_iff_eq.mp hfirst)) hroom (by omega) (by omega) hlim
      by_cases hd : .done ∈ arc.actions
      · rw [scan_done hn hd]
        exact hacts.bind fun s₁ h₁ => .inl ⟨_, rfl, h₁.mono htarget (Nat.le_succ p)⟩
      · rw [scan_some hn hd]
        exact hacts.bind fun s₁ h₁ =>
          ih (h₁.mono htarget (Nat.le_succ p)) (fun h => absurd h hgone) (by omega) (by omega)

namespace HttpSession

variable {buffSize : Nat} {reads : List Bytes}

def cutInQuery (r : Bool) : Nat → List Bytes → Bool
  | _, [] => false
  | cs, c :: cuts => inQuery cs || cutInQuery r (run r cs c) cuts

theorem recvHead_throws (hs : Reading s) (hroom : 11 ≤ buffSize) (hmem : buffSize ≤ mem.length)
    (hlim : buffSize < 2 ^ 63)
    (hquery : inQuery s.parser.cs = true → s.parser.queryStart ≤ buffSize) :
    Throws (cutInQuery s.parser.uriRelaxed s.parser.cs reads) (fun _ => True)
      (recvHead buffSize reads 0 mem s) := by
  induction reads generalizing mem s with
  | nil => exact .inl ⟨none, rfl, trivial⟩
  | cons c reads ih =>
    by_cases hguard : c = [] ∨ buffSize - 0 < c.length
    · exact .inl ⟨none, if_pos hguard, trivial⟩
    obtain ⟨hc, hfit⟩ := not_or.mp hguard
    replace hfit : c.length ≤ buffSize := Nat.le_of_not_lt hfit
    have hlen : (overwrite mem 0 c).length = mem.length := length_overwrite _ _ _ (by omega)
    have hstart : Safe (inQuery s.parser.cs) buffSize 0 (.at s.parser.cs) s.rewind.parser :=
      ⟨Nat.le_refl 0, Nat.le_refl 0, fun _ => Nat.le_refl 0, fun h => .inr ⟨h, hquery h⟩,
        fun _ => rfl⟩
    have hthrows : Throws _ _ (scan (overwrite mem 0 c) 0 s.parser.cs c s.rewind) :=
      hstart.of_scan (fun _ => rfl) (by omega) (by omega) (by omega) hlim
    rw [cutInQuery]
    rcases hthrows with ⟨x, hscan, hsafe⟩ | ⟨hscan, hcut⟩
    · rcases recvHead_cases hs hc hfit hscan with
        hnone | ⟨head, surplus, -, -, hsome⟩ | ⟨hread, hne, hlt, -, hnext⟩
      · exact .inl ⟨none, hnone, trivial⟩
      · exact .inl ⟨_, hsome, trivial⟩
      obtain ⟨hrun, hkept⟩ := scan_kept hscan
      have hcs : (x.2.2.stopped x.1 x.2.1).parser.cs = x.2.1 :=
        HttpRequestParser.stopped_cs (hkept.cs ▸ hs.cs)
      -- an offset of the query is from this read or from one that fitted
      have hold : inQuery (x.2.2.stopped x.1 x.2.1).parser.cs = true →
          (x.2.2.stopped x.1 x.2.1).parser.queryStart ≤ buffSize := by
        intro hin
        rw [hcs] at hin
        rcases hsafe.query hin with hle | ⟨-, hle⟩
        · exact hle.trans (hread.trans_le hfit)
        · exact hle
      have hrest := ih (hs.stopped hscan hne hlt) (hmem.trans_eq hlen.symm) hold
      have hrelaxed : (x.2.2.stopped x.1 x.2.1).parser.uriRelaxed = s.parser.uriRelaxed :=
        hkept.uriRelaxed
      rw [hcs, hrelaxed] at hrest
      rw [hnext]
      rcases hrest with hok | ⟨herror, hcut⟩
      · exact .inl hok
      · rw [hrun] at hcut
        exact .inr ⟨herror, Bool.or_eq_true _ _ |>.mpr (.inr hcut)⟩
    · rw [recvHead_cons hc hfit (hs.bodyStart ▸ Nat.zero_le _), hscan]
      exact .inr ⟨rfl, Bool.or_eq_true _ _ |>.mpr (.inl hcut)⟩

/-- A call of `recvRequest` on any reads keeps its assertions and reads nothing outside of its
buffer. It throws `std::length_error` if a read ended inside a query, and what `resize` throws
for a length that cannot be allocated. -/
theorem recvRequest_throws (session : HttpSession) (reads : List Bytes) (f : Fault)
    (hroom : 11 ≤ session.buffSize) (hlim : session.buffSize < 2 ^ 63)
    (h : session.recvRequest reads = .error f) :
    (f = .lengthError ∧ cutInQuery session.uriRelaxed httpParserStart reads = true) ∨
      (∃ x, recvHead session.buffSize reads 0 session.memory session.parser = .ok (some x) ∧
        session.free < (x.2.2.1.getContentLength session.lexicalCast).toInt64.toInt ∧
        (f = .lengthError ∨ f = .badAlloc)) := by
  have hquery : inQuery session.parser.parser.cs = true →
      session.parser.parser.queryStart ≤ session.buffSize := nofun
  unfold recvRequest at h
  rcases recvHead_throws session.parser_reading hroom session.fits hlim hquery with
    ⟨out, hout, -⟩ | ⟨herror, hcut⟩
  · rw [hout] at h
    cases out with
    | none => cases h
    | some x =>
      right
      refine ⟨x, hout, ?_⟩
      cases hsize : session.resizeBody x.2.2.1 with
      | ok =>
        simp only [bind, Except.bind, hsize] at h
        cases h
      | error e =>
        simp only [bind, Except.bind, hsize] at h
        obtain rfl := Except.error.inj h
        exact resizeBody_eq_error hsize
  · rw [herror] at h
    exact .inl ⟨(Except.error.inj h).symm, hcut⟩

/-- The second read ends the query that the first one began. -/
theorem recvRequest_throws_query :
    HttpServer.roomy.recvRequest [ascii "GET /?ab".toList, ascii " ".toList] = .error .lengthError ∧
      cutInQuery false httpParserStart [ascii "GET /?ab".toList, ascii " ".toList] = true := by
  have hthrown : HttpServer.roomy.recvRequest [ascii "GET /?ab".toList, ascii " ".toList] =
      .error .lengthError := by decide +kernel
  have hwhole : recvHead HttpServer.roomy.buffSize [ascii "GET /?ab".toList, ascii " ".toList] 0
      HttpServer.roomy.memory HttpServer.roomy.parser = .error .lengthError := by decide +kernel
  refine ⟨hthrown, ?_⟩
  rcases recvRequest_throws HttpServer.roomy _ _ (by decide) (by decide) hthrown with
    ⟨-, hcut⟩ | ⟨x, hx, -⟩
  · exact hcut
  · rw [hwhole] at hx
    cases hx

end HttpSession

end Sylar.Http
