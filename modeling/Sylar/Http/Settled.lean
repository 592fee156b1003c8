import Sylar.Http.Receive

/-! Reads that use no offset of an earlier read. Each read starts with its offsets
at the front of the buffer while the automaton goes on in its state, so a callback
in a read works as in one whole read if that read set the offsets it uses. -/
namespace Sylar.Http

open Lib Lib.Blocks

structure Fresh where
  mark : Bool
  fieldStart : Bool
  fieldLen : Bool
  query : Bool

namespace Fresh

def none : Fresh := ⟨false, false, false, false⟩

def marked : Fresh := ⟨true, false, false, false⟩

/-- Go on after an action, unless it uses an offset from an earlier read. -/
def use (f : Fresh) : Action → Option Fresh
  | .mark => some { f with mark := true }
  | .start_field => some { f with fieldStart := true, fieldLen := false }
  | .write_field => if f.fieldStart then some { f with fieldLen := true } else Option.none
  | .write_value => if f.fieldStart && f.fieldLen && f.mark then some f else Option.none
  | .request_method | .fragment | .http_version | .request_path =>
    if f.mark then some f else Option.none
  | .start_query => some { f with query := true }
  | .query_string => if f.query then some f else Option.none
  | .request_uri | .done | .xml | .json => some f

end Fresh

/-- Every action in a read from the state `cs` uses offsets of this read only. -/
def settled (r : Bool) : Nat → Fresh → Bytes → Bool
  | _, _, [] => true
  | cs, f, b :: bs =>
    match next r cs b with
    | none => true
    | some arc =>
      match arc.actions.foldlM Fresh.use f with
      | none => false
      | some f => if .done ∈ arc.actions then true else settled r arc.target f bs

def settledCuts (r : Bool) : Nat → List Bytes → Bool
  | _, [] => true
  | cs, c :: cuts => settled r cs .none c && settledCuts r (run r cs c) cuts

section Settled

variable {r : Bool} {cs : Nat} {f : Fresh} {b : UInt8} {bs t g : Bytes} {arc : Arc}

theorem settled_next (h : settled r cs f (b :: bs)) (hn : next r cs b = some arc) :
    ∃ f', arc.actions.foldlM Fresh.use f = some f' ∧
      (.done ∉ arc.actions → settled r arc.target f' bs) := by
  cases hf : arc.actions.foldlM Fresh.use f with
  | none => simp [settled, hn, hf] at h
  | some f' =>
    refine ⟨f', rfl, fun hd => ?_⟩
    simpa only [settled, hn, hf, if_neg hd] using h

theorem settled_silent {n : Nat} (hn : next r cs b = some (.st n)) :
    settled r cs f (b :: bs) = settled r n f bs := by
  simp only [settled, hn]
  rfl

theorem settled_word (hw : word r cs t) :
    settled r cs f (t ++ 32 :: g) = (f.mark && settled r 3 f g) := by
  induction t generalizing cs with
  | nil =>
    obtain ⟨mark, fieldStart, fieldLen, query⟩ := f
    cases mark <;> simp only [List.nil_append, settled, next_blank hw] <;> rfl
  | cons b t ih =>
    obtain ⟨n, hn, -, hw⟩ := word_next hw
    rw [List.cons_append, settled_silent hn, ih hw]

theorem settled_start (hb : methodStart b) (hw : word r 2 t) :
    settled r httpParserStart .none (b :: (t ++ 32 :: g)) = settled r 3 .marked g := by
  have hstep : settled r httpParserStart .none (b :: (t ++ 32 :: g)) =
      settled r 2 .marked (t ++ 32 :: g) := by
    simp only [settled, next_start hb]
    rfl
  rw [hstep, settled_word hw]
  rfl

/-- A read of a word and its blank ends in the word or goes past the blank. -/
theorem cut_word {c rest : Bytes} (h : c ++ rest = t ++ 32 :: g) :
    (∃ u, t = c ++ u ∧ rest = u ++ 32 :: g) ∨ ∃ g₀, c = t ++ 32 :: g₀ ∧ g = g₀ ++ rest := by
  rcases List.append_eq_append_iff.mp h with ⟨u, rfl, hrest⟩ | ⟨u, rfl, hrest⟩
  · exact .inl ⟨u, rfl, hrest⟩
  · cases u with
    | nil => exact .inl ⟨[], by simp, hrest.symm⟩
    | cons b g₀ =>
      obtain ⟨rfl, hg⟩ := List.cons.inj hrest
      exact .inr ⟨g₀, rfl, hg⟩

theorem settledCuts_word {cuts : List Bytes} (hw : word r cs t) (h : cuts.flatten = t ++ 32 :: g) :
    settledCuts r cs cuts = false := by
  induction cuts generalizing cs t with
  | nil => simp at h
  | cons c cuts ih =>
    rw [List.flatten_cons] at h
    rcases cut_word h with ⟨u, rfl, hrest⟩ | ⟨g₀, rfl, -⟩
    · rw [settledCuts, ih (word_append hw) hrest, Bool.and_false]
    · rw [settledCuts, settled_word hw]
      rfl

end Settled

/-- The offsets of a whole read at `base + p` and those of a later read at `p`. -/
structure Offsets (f : Fresh) (base p : Nat) (w c : HttpParser) : Prop where
  uriRelaxed : c.uriRelaxed = w.uriRelaxed
  mark : f.mark → w.mark = base + c.mark ∧ c.mark ≤ p
  fieldStart : f.fieldStart → w.fieldStart = base + c.fieldStart ∧ c.fieldStart ≤ p
  fieldLen : f.fieldLen → w.fieldLen = c.fieldLen ∧ c.fieldStart + c.fieldLen ≤ p
  query : f.query → w.queryStart = base + c.queryStart ∧ c.queryStart ≤ p

@[simp] theorem len_add (base off p : Nat) : len (base + off) (base + p) = len off p := by
  simp only [len]
  split <;> split <;> omega

theorem add_len {off p : Nat} (h : off ≤ p) : off + len off p = p := by
  rw [len, if_pos h]
  omega

namespace Offsets

variable {f f' : Fresh} {base p : Nat} {w c : HttpParser} {a : Action}

theorem later (h : Offsets f base p w c) : Offsets f base (p + 1) w c :=
  { uriRelaxed := h.uriRelaxed
    mark := fun hf => ⟨(h.mark hf).1, Nat.le_succ_of_le (h.mark hf).2⟩
    fieldStart := fun hf => ⟨(h.fieldStart hf).1, Nat.le_succ_of_le (h.fieldStart hf).2⟩
    fieldLen := fun hf => ⟨(h.fieldLen hf).1, Nat.le_succ_of_le (h.fieldLen hf).2⟩
    query := fun hf => ⟨(h.query hf).1, Nat.le_succ_of_le (h.query hf).2⟩ }

theorem record (h : Offsets f base p w c) (hf : f.use a = some f') :
    Offsets f' base p (record (base + p) w a) (record p c a) := by
  cases a with
  | mark =>
    obtain rfl := Option.some.inj hf
    exact { h with mark := fun _ => ⟨rfl, Nat.le_refl p⟩ }
  | start_field =>
    obtain rfl := Option.some.inj hf
    exact { h with
      fieldStart := fun _ => ⟨rfl, Nat.le_refl p⟩
      fieldLen := fun hlen => absurd hlen Bool.false_ne_true }
  | write_field =>
    obtain ⟨hstart, hf⟩ := Option.ite_none_right_eq_some.mp hf
    obtain rfl := Option.some.inj hf
    obtain ⟨heq, hle⟩ := h.fieldStart hstart
    have hlen : len w.fieldStart (base + p) = len c.fieldStart p := by rw [heq, len_add]
    exact { h with fieldLen := fun _ => ⟨hlen, Nat.le_of_eq (add_len hle)⟩ }
  | start_query =>
    obtain rfl := Option.some.inj hf
    exact { h with query := fun _ => ⟨rfl, Nat.le_refl p⟩ }
  | done =>
    obtain rfl := Option.some.inj hf
    simp only [Http.record]
    split <;> split <;> exact { h with }
  | xml | json | request_uri =>
    obtain rfl := Option.some.inj hf
    exact { h with }
  | write_value | request_method | fragment | query_string | http_version | request_path =>
    obtain ⟨-, hf⟩ := Option.ite_none_right_eq_some.mp hf
    obtain rfl := Option.some.inj hf
    exact h

end Offsets

section Pieces

variable {piece : Bytes} {off n : Nat} (pre after after' : Bytes)

theorem take_drop_piece (h : off + n ≤ piece.length) :
    ((pre ++ (piece ++ after)).drop (pre.length + off)).take n = (piece.drop off).take n := by
  rw [List.drop_length_add_append, List.drop_append_of_le_length (by omega),
    List.take_append_of_le_length (by rw [List.length_drop]; omega)]

theorem stdString_piece (h : off + n ≤ piece.length) :
    stdString (pre ++ (piece ++ after)) (pre.length + off) n = stdString (piece ++ after') off n := by
  have hwhole : pre.length + off + n ≤ (pre ++ (piece ++ after)).length := by
    simp only [List.length_append]
    omega
  have hcut : off + n ≤ (piece ++ after').length := by
    simp only [List.length_append]
    omega
  have hsame := take_drop_piece [] after' h
  simp only [List.nil_append, List.length_nil, Nat.zero_add] at hsame
  rw [stdString, stdString, if_pos hwhole, if_pos hcut, take_drop_piece pre after h,
    hsame]

theorem strncmpEq_take (a b : Bytes) (n : Nat) : strncmpEq (a.take n) b n = strncmpEq a b n := by
  induction n generalizing a b with
  | zero => simp [strncmpEq]
  | succ n ih =>
    cases a with
    | nil => rfl
    | cons x a =>
      cases b with
      | nil => rfl
      | cons y b => simp only [List.take_succ_cons, strncmpEq, ih]

theorem strncmpEq_piece (text : Bytes) (h : off + n ≤ piece.length) :
    strncmpEq ((pre ++ (piece ++ after)).drop (pre.length + off)) text n =
      strncmpEq ((piece ++ after').drop off) text n := by
  have hsame := take_drop_piece [] after' h
  simp only [List.nil_append, List.length_nil, Nat.zero_add] at hsame
  rw [← strncmpEq_take, take_drop_piece pre after h, ← hsame, strncmpEq_take]

end Pieces

def HttpRequestParser.view (s : HttpRequestParser) : HttpRequest × Nat := (s.data, s.error)

/-- The parser in a whole read at `base + p` and in a later read at `p`. -/
structure Sim (f : Fresh) (base p : Nat) (w c : HttpRequestParser) : Prop where
  offsets : Offsets f base p w.parser c.parser
  data : c.data = w.data
  error : c.error = w.error

theorem Sim.marked {p : Nat} {s : HttpRequestParser} (h : s.parser.mark ≤ p) :
    Sim .marked 0 p s s :=
  { offsets :=
      { uriRelaxed := rfl
        mark := fun _ => ⟨(Nat.zero_add _).symm, h⟩
        fieldStart := fun hf => absurd hf Bool.false_ne_true
        fieldLen := fun hf => absurd hf Bool.false_ne_true
        query := fun hf => absurd hf Bool.false_ne_true }
    data := rfl
    error := rfl }

section Sim

variable {pre piece after : Bytes} {f f' : Fresh} {p : Nat} {w w' c : HttpRequestParser}
  {a : Action}

theorem onText_view (mem : Bytes) (set : Bytes → HttpRequest → HttpRequest) (off n : Nat)
    (s : HttpRequestParser) :
    (onText mem set off n s).map HttpRequestParser.view =
      (stdString mem off n).map fun text => (set text s.data, s.error) := by
  simp only [onText]
  cases stdString mem off n <;> rfl

theorem onRequestHttpField_view (mem : Bytes) (field flen value vlen : Nat)
    (s : HttpRequestParser) :
    (onRequestHttpField mem field flen value vlen s).map HttpRequestParser.view =
      if flen = 0 then .ok (s.data, s.error)
      else (stdString mem field flen).bind fun key => (stdString mem value vlen).map fun val =>
        ({ s.data with headers := s.data.headers.set key val }, s.error) := by
  simp only [onRequestHttpField]
  split
  · rfl
  · cases stdString mem field flen with
    | error e => rfl
    | ok key => cases stdString mem value vlen <;> rfl

theorem act_view (after after' : Bytes) (h : Sim f pre.length p w c) (hf : f.use a = some f')
    (ha : a ≠ .request_method) (hp : p ≤ piece.length) :
    (act (piece ++ after') p c a).map HttpRequestParser.view =
      (act (pre ++ (piece ++ after)) (pre.length + p) w a).map HttpRequestParser.view := by
  have hmark : f.mark → w.parser.mark = pre.length + c.parser.mark ∧
      c.parser.mark + len c.parser.mark p ≤ piece.length := by
    intro hm
    obtain ⟨heq, hle⟩ := h.offsets.mark hm
    exact ⟨heq, (add_len hle).symm ▸ hp⟩
  cases a with
  | request_method => exact absurd rfl ha
  | write_value =>
    obtain ⟨hfresh, -⟩ := Option.ite_none_right_eq_some.mp hf
    simp only [Bool.and_eq_true] at hfresh
    obtain ⟨⟨hstart, hflen⟩, hm⟩ := hfresh
    obtain ⟨hmarkEq, hin⟩ := hmark hm
    obtain ⟨hflenEq, hflenIn⟩ := h.offsets.fieldLen hflen
    simp only [act, onRequestHttpField_view, h.data, h.error, hmarkEq, hflenEq,
      (h.offsets.fieldStart hstart).1, len_add]
    rw [stdString_piece pre after after' (Nat.le_trans hflenIn hp),
      stdString_piece pre after after' hin]
  | fragment | request_path =>
    obtain ⟨hm, -⟩ := Option.ite_none_right_eq_some.mp hf
    obtain ⟨hmarkEq, hin⟩ := hmark hm
    simp only [act, onRequestFragment, onRequestPath, onText_view, h.data, h.error, hmarkEq, len_add]
    rw [stdString_piece pre after after' hin]
  | query_string =>
    obtain ⟨hq, -⟩ := Option.ite_none_right_eq_some.mp hf
    obtain ⟨hqEq, hle⟩ := h.offsets.query hq
    have hin : c.parser.queryStart + len c.parser.queryStart p ≤ piece.length :=
      (add_len hle).symm ▸ hp
    simp only [act, onRequestQuery, onText_view, h.data, h.error, hqEq, len_add]
    rw [stdString_piece pre after after' hin]
  | http_version =>
    obtain ⟨hm, -⟩ := Option.ite_none_right_eq_some.mp hf
    obtain ⟨hmarkEq, hin⟩ := hmark hm
    have hwhole : versionInside (pre ++ (piece ++ after)) (pre.length + c.parser.mark)
        (len c.parser.mark p) = true :=
      versionInside_of_le (by simp only [List.length_append]; omega)
    have hcut : versionInside (piece ++ after') c.parser.mark (len c.parser.mark p) = true :=
      versionInside_of_le (by simp only [List.length_append]; omega)
    simp only [act, onRequestVersion, hmarkEq, len_add, hwhole, hcut, comparing_true,
      strncmpEq_piece pre after after' _ hin]
    split
    · simp only [Except.map, HttpRequestParser.view, h.data, h.error]
    · split <;> simp only [Except.map, HttpRequestParser.view, h.data, h.error]
  | done =>
    simp only [act]
    split <;> split <;> simp only [Except.map, HttpRequestParser.view, h.data, h.error]
  | mark | start_field | write_field | request_uri | start_query | xml | json =>
    simp only [act, Except.map, HttpRequestParser.view, h.data, h.error]

theorem act_sim (after' : Bytes) (h : Sim f pre.length p w c) (hf : f.use a = some f') (ha : a ≠ .request_method)
    (hp : p ≤ piece.length) (hact : act (pre ++ (piece ++ after)) (pre.length + p) w a = .ok w') :
    ∃ c', act (piece ++ after') p c a = .ok c' ∧ Sim f' pre.length p w' c' := by
  have hview := act_view after after' h hf ha hp
  rw [hact] at hview
  cases hcut : act (piece ++ after') p c a with
  | error e =>
    rw [hcut] at hview
    cases hview
  | ok c' =>
    rw [hcut] at hview
    obtain ⟨hdata, herror⟩ := Prod.mk.inj (Except.ok.inj hview)
    refine ⟨c', rfl, ?_, hdata, herror⟩
    rw [(act_spec hcut).1, (act_spec hact).1]
    exact h.offsets.record hf

theorem acts_sim {as : List Action} (after' : Bytes) (h : Sim f pre.length p w c)
    (hf : as.foldlM Fresh.use f = some f') (ha : .request_method ∉ as) (hp : p ≤ piece.length)
    (hacts : as.foldlM (act (pre ++ (piece ++ after)) (pre.length + p)) w = .ok w') :
    ∃ c', as.foldlM (act (piece ++ after') p) c = .ok c' ∧ Sim f' pre.length p w' c' := by
  induction as generalizing f w c with
  | nil =>
    obtain rfl := Except.ok.inj hacts
    obtain rfl := Option.some.inj hf
    exact ⟨c, rfl, h⟩
  | cons a as ih =>
    rw [List.foldlM_cons] at hf hacts
    obtain ⟨f₁, hf₁, hf⟩ := Option.bind_eq_some_iff.mp hf
    obtain ⟨w₁, hw₁, hacts⟩ := bind_eq_ok.mp hacts
    obtain ⟨hne, hnot⟩ := List.ne_and_not_mem_of_not_mem_cons ha
    obtain ⟨c₁, hc₁, h₁⟩ := act_sim after' h hf₁ hne.symm hp hw₁
    obtain ⟨c', hc', h'⟩ := ih h₁ hf hnot hacts
    refine ⟨c', ?_, h'⟩
    rw [List.foldlM_cons, hc₁]
    exact hc'

/-- The scan of a read that is settled follows the scan of the whole read. -/
theorem scan_sim {r : Bool} {cs : Nat} {bs : Bytes} {x : Nat × Nat × HttpRequestParser}
    (pre after' : Bytes) (h : Sim f pre.length p w c) (hr : w.parser.uriRelaxed = r) (hcs : pastMethod cs)
    (hf : settled r cs f bs) (hp : p + bs.length ≤ piece.length)
    (hscan : scan (pre ++ (piece ++ after)) (pre.length + p) cs bs w = .ok x) :
    ∃ f' y, scan (piece ++ after') p cs bs c = .ok y ∧ y.2.1 = x.2.1 ∧
      Sim f' pre.length y.1 x.2.2 y.2.2 := by
  induction bs generalizing p cs f w c with
  | nil =>
    obtain rfl := Except.ok.inj hscan
    exact ⟨f, _, rfl, rfl, h⟩
  | cons b bs ih =>
    subst hr
    rw [List.length_cons] at hp
    have hrc := h.offsets.uriRelaxed
    rcases scan_cons hscan with ⟨hn, rfl⟩ | ⟨arc, w₁, hn, hw₁, hrest⟩
    · exact ⟨f, _, scan_none (hrc ▸ hn), rfl, h⟩
    · obtain ⟨hnot, htarget⟩ := next_pastMethod hcs hn
      obtain ⟨f₁, hf₁, hf⟩ := settled_next hf hn
      obtain ⟨c₁, hc₁, h₁⟩ := acts_sim after' h hf₁ hnot (by omega) hw₁
      have hlater : Sim f₁ pre.length (p + 1) w₁ c₁ := { h₁ with offsets := h₁.offsets.later }
      rcases hrest with ⟨hd, rfl⟩ | ⟨hd, hscan⟩
      · refine ⟨f₁, (p + 1, arc.target, c₁), ?_, rfl, hlater⟩
        rw [scan_done (hrc ▸ hn) hd, hc₁]
        rfl
      · obtain ⟨f', y, hy, htgt, hsim⟩ :=
          ih hlater (acts_kept hw₁).uriRelaxed htarget (hf hd) (by omega) hscan
        refine ⟨f', y, ?_, htgt, hsim⟩
        rw [scan_some (hrc ▸ hn) hd, hc₁]
        exact hy

end Sim

end Sylar.Http
