import Sylar.Uri.Fields

/-! Where `Uri::Create` throws. The action that saves an empty port clears the mark, and
after a scheme the path that follows is then saved without one. Whether something is
held is enough to tell which actions fail, so the places are found by trying out the
phases. -/
namespace Sylar.Uri

open Lib Lib.Grammar Lib.Numerals
open Http (Bytes ascii)
open Reader (before)

namespace Reader

variable {marked : Bool}

def holds (r : Reader) : Bool := r.held.isSome

/-- Whether something is held after an action, `none` if it throws. -/
def holdsAfter (marked : Bool) (held : Bool) : Action → Option Bool
  | .marku => some true
  | .markh => some true
  | .save_host => if held then some true else if marked then none else some false
  | .save_userinfo => if held then some false else if marked then none else some false
  | _ => if held then some false else none

theorem holds_acts (r : Reader) (a : Action) :
    (r.acts marked a).toOption.map holds = holdsAfter marked r.holds a := by
  obtain ⟨held, uri⟩ := r
  cases held <;> cases marked <;> cases a <;> rfl

theorem holds_foldlM (as : List Action) (r : Reader) :
    (as.foldlM (acts marked) r).toOption.map holds = as.foldlM (holdsAfter marked) r.holds := by
  induction as generalizing r with
  | nil => rfl
  | cons a as ih =>
    rw [List.foldlM_cons, List.foldlM_cons, ← holds_acts]
    cases r.acts marked a with
    | error f => rfl
    | ok t => exact ih t

def mayLack : Phase → Bool
  | .dead | .start | .text | .colon | .slash | .rootSlash | .path => true
  | .authority _ | .hostStart _ => true
  | .queryStart | .fragmentStart => true
  | _ => false

/-- A path without a mark or an empty port after a scheme. -/
def exposed (ph : Phase) (held : Bool) : Bool :=
  (ph == .path && !held) || ph == .portOrUserStart true || ph == .portStart true

theorem holdsAfter_none : ∀ marked ph k held, held || mayLack ph →
    (ph.step k).1.foldlM (holdsAfter marked) held = none →
      exposed ph held ∧ (k = .question ∨ k = .hash) := by
  decide

theorem holdsAfter_some : ∀ marked ph k held held', held || mayLack ph →
    (ph.step k).1.foldlM (holdsAfter marked) held = some held' →
      held' || mayLack (ph.step k).2 := by
  decide

theorem holdsAfter_atEof : ∀ marked ph held, held || mayLack ph →
    (ph.atEof.foldlM (holdsAfter marked) held = none ↔ exposed ph held) := by
  decide

theorem holdsAfter_exposed : ∀ marked ph k held, exposed ph held → k = .question ∨ k = .hash →
    (ph.step k).1.foldlM (holdsAfter marked) held = none := by
  decide

section Runs

variable {q u : Bytes} {b : UInt8} {x y : Phase × Reader} {ph : Phase} {r : Reader}

def Sound (x : Phase × Reader) : Prop := x.2.holds || mayLack x.1

theorem toOption_foldlM_eq {as : List Action} {t : Reader} (h : as.foldlM (acts marked) r = .ok t) :
    as.foldlM (holdsAfter marked) r.holds = some t.holds := by
  rw [← holds_foldlM, h]
  rfl

theorem toOption_foldlM_error {as : List Action} {f : Fault}
    (h : as.foldlM (acts marked) r = .error f) : as.foldlM (holdsAfter marked) r.holds = none := by
  rw [← holds_foldlM, h]
  rfl

theorem foldlM_error_of_none {as : List Action}
    (h : as.foldlM (holdsAfter marked) r.holds = none) :
    as.foldlM (acts marked) r = .error .nullMark := by
  rw [← holds_foldlM] at h
  cases hr : as.foldlM (acts marked) r with
  | error f => rfl
  | ok t =>
    rw [hr] at h
    cases h

@[simp] theorem holds_push : (r.push b).holds = r.holds := Option.isSome_map ..

theorem Sound.step (hx : Sound x) (h : step marked x b = .ok y) : Sound y := by
  obtain ⟨t, ht, hy⟩ := bind_eq_ok.mp h
  obtain rfl := Except.ok.inj hy
  have hsome := holdsAfter_some _ _ _ _ _ hx (toOption_foldlM_eq ht)
  rwa [Sound, holds_push]

theorem Sound.read (hx : Sound x) (h : read marked x u = .ok y) : Sound y := by
  induction u generalizing x with
  | nil =>
    obtain rfl := Except.ok.inj h
    exact hx
  | cons b u ih =>
    obtain ⟨z, hz, h⟩ := bind_eq_ok.mp h
    exact ih (hx.step hz) h

theorem sound_start : Sound (.start, .fresh) := rfl

/-- Where reading throws: at a question mark or hash in an exposed phase. -/
theorem exists_exposed {f : Fault} (hx : Sound x) (h : read marked x u = .error f) :
    ∃ q b v y, u = q ++ b :: v ∧ read marked x q = .ok y ∧ Sound y ∧ exposed y.1 y.2.holds ∧
      (kind b = .question ∨ kind b = .hash) := by
  induction u generalizing x with
  | nil => cases h
  | cons b u ih =>
    cases hstep : step marked x b with
    | error f' =>
      have hnone : (x.1.step (kind b)).1.foldlM (holdsAfter marked) x.2.holds = none := by
        cases hfold : (x.1.step (kind b)).1.foldlM (acts marked) x.2 with
        | error f' => exact toOption_foldlM_error hfold
        | ok t =>
          rw [step, hfold] at hstep
          cases hstep
      obtain ⟨hexposed, hkind⟩ := holdsAfter_none _ _ _ _ hx hnone
      exact ⟨[], b, u, x, rfl, rfl, hx, hexposed, hkind⟩
    | ok z =>
      have hrest : read marked z u = .error f := by
        rw [read, List.foldlM_cons, hstep] at h
        exact h
      obtain ⟨q, c, v, y, rfl, hq, hy⟩ := ih (hx.step hstep) hrest
      exact ⟨b :: q, c, v, y, rfl, bind_eq_ok.mpr ⟨z, hstep, hq⟩, hy⟩

theorem finish_error_iff (hx : Sound x) :
    finish marked x = .error .nullMark ↔ exposed x.1 x.2.holds := by
  rw [← holdsAfter_atEof marked _ _ hx]
  exact ⟨toOption_foldlM_error, foldlM_error_of_none⟩

theorem read_exposed (hx : exposed x.1 x.2.holds) (hb : kind b = .question ∨ kind b = .hash)
    (v : Bytes) : read marked x (b :: v) = .error .nullMark := by
  have hfold := foldlM_error_of_none (holdsAfter_exposed marked _ _ _ hx hb)
  rw [read, List.foldlM_cons, step, hfold]
  rfl

end Runs

end Reader

section Opening

def Phase.hier : Phase → Bool
  | .authority hier | .userOrHost hier | .hostStart hier | .host hier | .literal hier => hier
  | .portOrUserStart hier | .portOrUser hier | .user hier | .portStart hier | .port hier => hier
  | .path => true
  | _ => false

theorem step_ne_start : ∀ (ph : Phase) k, (ph.step k).2 ≠ .start := by decide

theorem step_eq_scheme : ∀ (ph : Phase) k, (ph.step k).2 = .scheme →
    ph = .start ∧ k = .alpha ∨ ph = .scheme ∧ k.inScheme := by
  decide

theorem step_eq_colon : ∀ (ph : Phase) k, (ph.step k).2 = .colon → ph = .scheme ∧ k = .colon := by
  decide

theorem step_eq_slash : ∀ (ph : Phase) k, (ph.step k).2 = .slash → ph = .colon ∧ k = .slash := by
  decide

theorem step_hier : ∀ (ph : Phase) k, (ph.step k).2.hier →
    ph.hier ∨ ph = .slash ∧ k = .slash := by
  decide

theorem kind_eq_slash : ∀ b, kind b = .slash → b = 47 := forall_byte (by decide +kernel)

theorem scheme_bits : ∀ b, (kind b = .alpha → (ranges alphas).testBit b.toNat) ∧
    ((kind b).inScheme → (ranges (alphas ++ digits ++ [(43, 43), (45, 46)])).testBit b.toNat) :=
  forall_byte (by decide +kernel)

theorem mem_scheme {b : UInt8} {v : Bytes} (hb : kind b = .alpha) (hv : ∀ c ∈ v, (kind c).inScheme) :
    b :: v ∈ ragel .scheme := by
  have hfirst : [b] ∈ lang (grammar .ragel) (oneOf alphas) :=
    mem_lang_bytes.mpr ⟨b, (scheme_bits b).1 hb, rfl⟩
  have hrest := mem_many_bytes (g := grammar .ragel).mpr fun c hc => (scheme_bits c).2 (hv c hc)
  exact .rule (.seq hfirst hrest)

/-- What has been read in the phases up to an authority after a scheme. -/
structure Opened (q : Bytes) (ph : Phase) : Prop where
  start : ph = .start → q = []
  scheme : ph = .scheme → q ∈ ragel .scheme
  colon : ph = .colon → ∃ σ ∈ ragel .scheme, q = σ ++ [58]
  slash : ph = .slash → ∃ σ ∈ ragel .scheme, q = σ ++ [58, 47]
  hier : ph.hier → ∃ σ ∈ ragel .scheme, ∃ rest, q = σ ++ 58 :: 47 :: 47 :: rest

theorem Opened.step {q : Bytes} {ph : Phase} (h : Opened q ph) (b : UInt8) :
    Opened (q ++ [b]) (ph.step (kind b)).2 where
  start hph := absurd hph (step_ne_start ph (kind b))
  scheme hph := by
    rcases step_eq_scheme ph (kind b) hph with ⟨hstart, hb⟩ | ⟨hscheme, hb⟩
    · rw [h.start hstart]
      exact mem_scheme hb (by simp)
    · obtain ⟨c, v, rfl, hc, hv⟩ := scheme_kinds (h.scheme hscheme)
      refine mem_scheme hc ?_
      intro d hd
      rcases List.mem_append.mp hd with hd | hd
      · exact hv d hd
      · rw [List.mem_singleton.mp hd]
        exact hb
  colon hph := by
    obtain ⟨hscheme, hb⟩ := step_eq_colon ph (kind b) hph
    exact ⟨q, h.scheme hscheme, by rw [kind_eq_colon b hb]⟩
  slash hph := by
    obtain ⟨hcolon, hb⟩ := step_eq_slash ph (kind b) hph
    obtain ⟨σ, hσ, rfl⟩ := h.colon hcolon
    exact ⟨σ, hσ, by rw [kind_eq_slash b hb, List.append_assoc]; rfl⟩
  hier hph := by
    rcases step_hier ph (kind b) hph with hhier | ⟨hslash, hb⟩
    · obtain ⟨σ, hσ, rest, rfl⟩ := h.hier hhier
      exact ⟨σ, hσ, rest ++ [b], by simp⟩
    · obtain ⟨σ, hσ, rfl⟩ := h.slash hslash
      exact ⟨σ, hσ, [], by rw [kind_eq_slash b hb, List.append_assoc]; rfl⟩

theorem opened_start : Opened [] .start where
  start _ := rfl
  scheme h := by cases h
  colon h := by cases h
  slash h := by cases h
  hier h := by cases h

theorem opened_read {marked : Bool} {q u : Bytes} {x y : Phase × Reader} (hx : Opened q x.1)
    (h : Reader.read marked x u = .ok y) : Opened (q ++ u) y.1 := by
  induction u generalizing q x with
  | nil =>
    obtain rfl := Except.ok.inj h
    rwa [List.append_nil]
  | cons b u ih =>
    obtain ⟨z, hz, h⟩ := bind_eq_ok.mp h
    obtain ⟨t, -, hz⟩ := bind_eq_ok.mp hz
    obtain rfl := Except.ok.inj hz
    rw [List.append_cons]
    exact ih (hx.step b) h

end Opening

/-- `scheme://[userinfo@]host:path`, with nothing between the colon and the path, and then
the end, a query or a fragment. -/
def EmptyPort (text : Bytes) : Prop :=
  ∃ p : Parts, p.port = some [] ∧ p.query = none ∧ p.fragment = none ∧
    ∃ rest, text = p.text ++ rest ∧ ∀ b ∈ rest.head?, b = 63 ∨ b = 35

namespace Parts

variable {p : Parts}

theorem emptyPort_text (h : p.port = some []) : EmptyPort p.text := by
  refine ⟨{ p with
    query := none
    fragment := none
    query_mem := by simp
    fragment_mem := by simp }, h, rfl, rfl, before 63 p.query ++ before 35 p.fragment, ?_, ?_⟩
  · simp [text, before]
  · cases p.query with
    | some q => simp [before]
    | none =>
      cases p.fragment with
      | some f => simp [before]
      | none => simp [before]

theorem read_empty_port (marked : Bool) (h : p.port = some []) : ∃ x,
    Reader.read marked (.start, .fresh)
        (p.scheme ++ [58, 47, 47] ++ userPrefix p.userinfo ++ p.host ++ before 58 p.port ++ p.path) =
      .ok x ∧ Reader.exposed x.1 x.2.holds := by
  obtain ⟨x, h', hread, hafter⟩ := p.read_upto_host marked
  obtain ⟨ph, hph, hcolon⟩ := hafter.colon marked
  have hauthority := Reader.read_append hread hcolon
  rw [h]
  rcases path_kinds p.path_mem with hpath | ⟨rest, hpath, hrest⟩
  · rw [hpath]
    refine ⟨_, Reader.read_append hauthority rfl, ?_⟩
    rcases hph with rfl | rfl
    · rfl
    · rfl
  · rw [hpath]
    generalize { Uri.fresh with
      scheme := p.scheme
      userinfo := (p.userinfo.map kept).getD []
      host := p.host } = uri at hauthority
    have hslash : Reader.read marked (ph, ⟨some (p.host ++ [58]), uri⟩) [47] =
        .ok (.path, ⟨none, uri⟩) := by
      rcases hph with rfl | rfl
      · exact Reader.read_byte (t := ⟨none, uri⟩) kind_slash rfl
      · exact Reader.read_byte (t := ⟨none, uri⟩) kind_slash rfl
    exact ⟨_, Reader.read_append hauthority
      (Reader.read_cons hslash (Reader.read_quiet (Reader.path_quiet hrest) _)), rfl⟩

/-- With an empty port, a query or a fragment is not reached. -/
theorem none_of_read {marked : Bool} {y : Phase × Reader} (h : p.port = some [])
    (hread : Reader.read marked (.start, .fresh) p.text = .ok y) :
    p.query = none ∧ p.fragment = none := by
  obtain ⟨x, hx, hexposed⟩ := read_empty_port marked h
  have hrest : Reader.read marked x (before 63 p.query ++ before 35 p.fragment) = .ok y := by
    rw [text, List.append_assoc _ (before 63 p.query), Reader.read, List.foldlM_append] at hread
    obtain ⟨x', hx', hy⟩ := bind_eq_ok.mp hread
    obtain rfl := Except.ok.inj (hx.symm.trans hx')
    exact hy
  cases hq : p.query with
  | some q =>
    rw [hq, before, List.cons_append, Reader.read_exposed hexposed (.inl kind_question)] at hrest
    cases hrest
  | none =>
    cases hf : p.fragment with
    | some f =>
      rw [hq, hf, before, List.nil_append, before,
        Reader.read_exposed hexposed (.inr kind_hash)] at hrest
      cases hrest
    | none => exact ⟨rfl, rfl⟩

end Parts

section Throwing

variable {text q v : Bytes} {b : UInt8} {cs : Nat} {marked : Bool} {y : Phase × Reader}

theorem phase_of_read (h : reach uriParserStart q = some cs)
    (hread : Reader.read marked (.start, .fresh) q = .ok y) : y.1 = phaseOf cs := by
  have hrel := read_start marked (List.append_nil q).symm h
  rw [hread] at hrel
  obtain ⟨m, -, hphase, -⟩ := hrel.exists_ok
  exact hphase

theorem createWith_error_of_read {f : Fault} (h : reach uriParserStart q = some cs)
    (hread : Reader.read marked (.start, .fresh) q = .error f) (htext : text = q ++ v) :
    createWith (acts marked text) text = .error f := by
  have hrel := read_start marked htext h
  rw [hread] at hrel
  have hscan := scan_append (acts marked text) (v := v) (p := 0)
    (m := { mark := none, uri := .fresh }) h
  rw [← htext] at hscan
  rw [createWith, hscan, hrel.eq_error]
  rfl

theorem final_of_exposed : ∀ cs < 561, ∀ held, Reader.exposed (phaseOf cs) held →
    (next cs 63).isSome ∨ (next cs 35).isSome → uriParserFirstFinal ≤ cs := by
  decide +kernel

theorem kind_ends : ∀ b, kind b = .question ∨ kind b = .hash → b = 63 ∨ b = 35 :=
  forall_byte (by decide +kernel)

theorem emptyPort_of_exposed (hmem : q ∈ ragel .URI_reference)
    (hread : Reader.read marked (.start, .fresh) q = .ok y)
    (hexposed : Reader.exposed y.1 y.2.holds) :
    ∃ p : Parts, p.text = q ∧ p.port = some [] ∧ p.query = none ∧ p.fragment = none := by
  have hhier : ∀ ph held, Reader.exposed ph held → ph.hier := by decide
  obtain ⟨σ, hσ, rest, rfl⟩ := (opened_read opened_start hread).hier (hhier _ _ hexposed)
  obtain ⟨p, -, htext⟩ := exists_parts hσ hmem
  refine ⟨p, htext, ?_⟩
  have hport : p.port = some [] := by
    by_contra hport
    obtain ⟨x, hx, hfinish⟩ := p.read_text marked hport
    rw [htext] at hx
    obtain rfl := Except.ok.inj (hread.symm.trans hx)
    rw [(Reader.finish_error_iff (Reader.sound_start.read hread)).mpr hexposed] at hfinish
    cases hfinish
  exact ⟨hport, Parts.none_of_read hport (htext ▸ hread)⟩

theorem emptyPort_of_read {f : Fault} {u : Bytes} (hreach : reach uriParserStart u = some cs)
    (hread : Reader.read marked (.start, .fresh) u = .error f) (htext : text = u ++ v) :
    EmptyPort text := by
  obtain ⟨q, b, w, y, rfl, hq, -, hexposed, hkind⟩ :=
    Reader.exists_exposed Reader.sound_start hread
  rw [reach_append] at hreach
  obtain ⟨cs', hcs', hb⟩ := Option.bind_eq_some_iff.mp hreach
  obtain ⟨arc, harc, -⟩ := Option.bind_eq_some_iff.mp hb
  have hends := kind_ends b hkind
  have hfinal : uriParserFirstFinal ≤ cs' := by
    rw [phase_of_read hcs' hq] at hexposed
    apply final_of_exposed cs' (state_lt harc) _ hexposed
    rcases hends with rfl | rfl
    · exact .inl (by rw [harc]; rfl)
    · exact .inr (by rw [harc]; rfl)
  obtain ⟨p, rfl, hport, hquery, hfragment⟩ :=
    emptyPort_of_exposed (mem_iff_reach.mpr ⟨cs', hcs', hfinal⟩) hq hexposed
  refine ⟨p, hport, hquery, hfragment, b :: w ++ v, by rw [htext, List.append_assoc], ?_⟩
  intro c hc
  obtain rfl := Option.some.inj hc
  exact hends

theorem emptyPort_of_error {f : Fault} (h : createWith (acts marked text) text = .error f) :
    EmptyPort text := by
  rcases reach_or_stuck uriParserStart text with ⟨cs, hreach⟩ | ⟨u, b, v, cs, htext, hreach, hb⟩
  · rw [createWith_of_reach hreach] at h
    rcases bind_eq_error.mp h with hread | ⟨x, hread, h⟩
    · exact emptyPort_of_read hreach hread (List.append_nil text).symm
    · rcases bind_eq_error.mp h with hfinish | ⟨r, -, h⟩
      · unfold Reader.finishAt at hfinish
        split at hfinish
        · rename_i hfinal
          have hexposed := (Reader.finish_error_iff (Reader.sound_start.read hread)).mp hfinish
          obtain ⟨p, rfl, hport, hquery, hfragment⟩ :=
            emptyPort_of_exposed (mem_iff_reach.mpr ⟨cs, hreach, hfinal⟩) hread hexposed
          exact ⟨p, hport, hquery, hfragment, [], (List.append_nil _).symm, by simp⟩
        · cases hfinish
      · cases h
  · rw [createWith_of_stuck htext hreach hb] at h
    rcases bind_eq_error.mp h with hread | ⟨x, -, h⟩
    · exact emptyPort_of_read hreach hread htext
    · cases h

theorem error_of_emptyPort (marked : Bool) (h : EmptyPort text) :
    createWith (acts marked text) text = .error .nullMark := by
  obtain ⟨p, hport, hquery, hfragment, rest, htext, hrest⟩ := h
  obtain ⟨x, hread, hexposed⟩ := Parts.read_empty_port marked hport
  have hp : Reader.read marked (.start, .fresh) p.text = .ok x := by
    rw [Parts.text, hquery, hfragment, before, before, List.append_nil, List.append_nil]
    exact hread
  cases rest with
  | nil =>
    rw [List.append_nil] at htext
    have hfinish : Reader.finish marked x = .error .nullMark :=
      (Reader.finish_error_iff (Reader.sound_start.read hread)).mpr hexposed
    rw [htext, createWith_of_mem p.text_mem]
    exact bind_eq_error.mpr (.inr ⟨x, hp, bind_eq_error.mpr (.inl hfinish)⟩)
  | cons b v =>
    -- the automaton also takes the question mark or the hash
    have hmem : p.text ++ [b] ∈ ragel .URI_reference := by
      rcases hrest b rfl with rfl | rfl
      · have hq : ({ p with
            query := some []
            query_mem := fun w hw => Option.some.inj hw ▸ mem_ragel 20 (by decide) } :
            Parts).text = p.text ++ [63] := by
          simp [Parts.text, hquery, hfragment, before]
        rw [← hq]
        exact Parts.text_mem _
      · have hf : ({ p with
            fragment := some []
            fragment_mem := fun w hw => Option.some.inj hw ▸ mem_ragel 20 (by decide) } :
            Parts).text = p.text ++ [35] := by
          simp [Parts.text, hquery, hfragment, before]
        rw [← hf]
        exact Parts.text_mem _
    obtain ⟨cs, hreach, -⟩ := mem_iff_reach.mp hmem
    have hkind : kind b = .question ∨ kind b = .hash := by
      rcases hrest b rfl with rfl | rfl
      · exact .inl kind_question
      · exact .inr kind_hash
    have herror : Reader.read marked (.start, .fresh) (p.text ++ [b]) = .error .nullMark := by
      rw [Reader.read, List.foldlM_append]
      exact bind_eq_error.mpr (.inr ⟨x, hp, Reader.read_exposed hexposed hkind []⟩)
    exact createWith_error_of_read hreach herror (by rw [htext, List.append_assoc]; rfl)

theorem scan_mono {A B : Nat → Machine → Action → Except Fault Machine}
    (hAB : ∀ p m a t, A p m a = .ok t → B p m a = .ok t) {p : Nat} {m : Machine} {r : Nat × Machine}
    (h : scan A p cs text m = .ok r) : scan B p cs text m = .ok r := by
  have hfold : ∀ (as : List Action) p m t, as.foldlM (A p) m = .ok t → as.foldlM (B p) m = .ok t := by
    intro as p
    induction as with
    | nil => exact fun _ _ h => h
    | cons a as ih =>
      intro m t h
      obtain ⟨m', hm', h⟩ := bind_eq_ok.mp h
      exact bind_eq_ok.mpr ⟨m', hAB _ _ _ _ hm', ih m' t h⟩
  induction text generalizing p cs m with
  | nil =>
    obtain ⟨t, ht, h⟩ := bind_eq_ok.mp h
    exact bind_eq_ok.mpr ⟨t, hfold _ _ _ _ ht, h⟩
  | cons b text ih =>
    simp only [scan] at h ⊢
    split at h
    · exact h
    · obtain ⟨t, ht, h⟩ := bind_eq_ok.mp h
      exact bind_eq_ok.mpr ⟨t, hfold _ _ _ _ ht, ih h⟩

theorem create_of_createMarked {uri : Option Uri} (h : createMarked text = .ok uri) :
    create text = .ok uri := by
  obtain ⟨r, hr, h⟩ := bind_eq_ok.mp h
  refine bind_eq_ok.mpr ⟨r, scan_mono ?_ hr, h⟩
  intro p m a t ht
  unfold actMarked at ht
  split at ht
  · cases ht
  · exact ht

/-- Every `save_` action that runs has a mark, and so `Uri::Create` returns, exactly on the
texts without an empty port after a scheme; on the others it throws. -/
theorem create_marked (text : Bytes) :
    create text = createMarked text ∧
      ((∃ uri, createMarked text = .ok uri) ↔ ¬ EmptyPort text) := by
  by_cases hempty : EmptyPort text
  · have herror : createMarked text = .error .nullMark :=
      error_of_emptyPort true hempty
    have hcreate : create text = .error .nullMark := error_of_emptyPort false hempty
    refine ⟨hcreate.trans herror.symm, ?_⟩
    simp [herror, hempty]
  · cases h : createMarked text with
    | error f =>
      have h' : createWith (acts true text) text = .error f := h
      exact absurd (emptyPort_of_error h') hempty
    | ok uri =>
      refine ⟨create_of_createMarked h, ?_⟩
      simp [hempty]

/-- `http://h:` -/
theorem empty_port_throws :
    create (ascii ['h', 't', 't', 'p', ':', '/', '/', 'h', ':']) = .error .nullMark := by
  rfl

end Throwing

end Sylar.Uri
