import Sylar.Http.Settled
import Sylar.Lib.Pieces

/-! A request head that arrives in several reads. If every read is settled the
request is the one that a single read gives. When the first read is the first
letter of the method, the second one looks up the method without it and the
request is refused, so no head gives the same request under all cuttings. -/
namespace Sylar.Http

open Lib Lib.Blocks Lib.Pieces

section Method

variable {r : Bool} {cs p : Nat} {mem t g : Bytes} {b : UInt8} {s : HttpRequestParser}

theorem scan_word (hw : word s.parser.uriRelaxed cs t) :
    scan mem p cs (t ++ 32 :: g) s =
      act mem (p + t.length) s .request_method >>= scan mem (p + t.length + 1) 3 g := by
  induction t generalizing p cs with
  | nil =>
    rw [List.nil_append, scan_some (next_blank hw) (by decide)]
    exact congrArg (· >>= _) (bind_pure _)
  | cons b t ih =>
    obtain ⟨n, hn, -, hw⟩ := word_next hw
    rw [List.cons_append, scan_some hn List.not_mem_nil, List.length_cons]
    have hstep : scan mem (p + 1) n (t ++ 32 :: g) s =
        act mem (p + (t.length + 1)) s .request_method >>=
          scan mem (p + (t.length + 1) + 1) 3 g := by
      rw [ih hw, show p + 1 + t.length = p + (t.length + 1) by omega]
    exact hstep

theorem not_completes_blank {after : Bytes} (h : [45, 32, 83] <+: g ++ after) :
    completes r 3 g = false := by
  match g with
  | [] => rfl
  | [a] =>
    obtain ⟨rfl, -⟩ := List.cons_prefix_cons.mp h
    cases r <;> rfl
  | [a, b] =>
    obtain ⟨rfl, h₁⟩ := List.cons_prefix_cons.mp h
    obtain ⟨rfl, -⟩ := List.cons_prefix_cons.mp h₁
    cases r <;> rfl
  | a :: b :: c :: g =>
    obtain ⟨rfl, h₁⟩ := List.cons_prefix_cons.mp h
    obtain ⟨rfl, h₂⟩ := List.cons_prefix_cons.mp h₁
    obtain ⟨rfl, -⟩ := List.cons_prefix_cons.mp h₂
    cases r <;> rfl

/-- What is read as the method before its blank in a request that is completed. -/
theorem method_word (after : Bytes) (ht : 32 ∉ t) (hg : completes r 3 g)
    (hv : charsToHttpMethod (t ++ 32 :: (g ++ after)) ≠ .INVAILD_METHOD) :
    ∃ e ∈ httpMethodMap, e.2 <+: t := by
  obtain ⟨e, he, hpre⟩ := charsToHttpMethod_valid hv
  rcases (httpMethodMap_text e he).2 with hblank | hblank
  · exact ⟨e, he, (prefix_word hblank).mp hpre⟩
  · obtain ⟨-, hmore⟩ := prefix_blank ht (hblank.trans hpre)
    rw [not_completes_blank hmore] at hg
    cases hg

end Method

section Rounds

variable {buffSize : Nat} {mem pre piece after : Bytes} {cuts : List Bytes}
  {w c : HttpRequestParser} {x : Nat × Nat × HttpRequestParser}

/-- Two parsers that are at the same place, in a whole read and between two reads. -/
structure Alike (w c : HttpRequestParser) : Prop where
  uriRelaxed : c.parser.uriRelaxed = w.parser.uriRelaxed
  data : c.data = w.data
  error : c.error = w.error

theorem Sim.alike {f : Fresh} {base p : Nat} (h : Sim f base p w c) : Alike w c :=
  ⟨h.offsets.uriRelaxed, h.data, h.error⟩

theorem Alike.sim (h : Alike w c) (base : Nat) : Sim .none base 0 w c.rewind :=
  { offsets :=
      { uriRelaxed := h.uriRelaxed
        mark := fun hf => absurd hf Bool.false_ne_true
        fieldStart := fun hf => absurd hf Bool.false_ne_true
        fieldLen := fun hf => absurd hf Bool.false_ne_true
        query := fun hf => absurd hf Bool.false_ne_true }
    data := h.data
    error := h.error }

/-- The scan of the read `piece` into the buffer `mem` follows the scan of the same
bytes in a whole read. -/
def Follows (whole : Bytes) (base : Nat) (piece mem : Bytes) (w c : HttpRequestParser) : Prop :=
  ∀ x, scan whole base c.parser.cs piece w = .ok x → x.2.2.error = 0 →
    ∃ y, scan (overwrite mem 0 piece) 0 c.parser.cs piece c.rewind = .ok y ∧ y.2.1 = x.2.1 ∧
      Alike x.2.2 y.2.2

theorem Alike.follows (h : Alike w c) (hcs : pastMethod c.parser.cs)
    (hf : settled w.parser.uriRelaxed c.parser.cs .none piece) :
    Follows (pre ++ (piece ++ after)) pre.length piece mem w c := by
  intro x hscan _
  rw [overwrite_front]
  obtain ⟨f, y, hy, hcs', hsim⟩ :=
    scan_sim pre _ (h.sim pre.length) rfl hcs hf (Nat.le_of_eq (Nat.zero_add _)) hscan
  exact ⟨y, hy, hcs', hsim.alike⟩

theorem Follows.taken {whole more : Bytes} {base : Nat}
    (hfollow : Follows whole base piece mem w c) (halike : Alike w c)
    (hc : completes w.parser.uriRelaxed c.parser.cs (piece ++ more))
    (hscan : scan whole base c.parser.cs piece w = .ok x) (herr : x.2.2.error = 0) :
    ∃ c', scan (overwrite mem 0 piece) 0 c.parser.cs piece c.rewind =
        .ok (piece.length, x.2.1, c') ∧ Alike x.2.2 c' ∧ x.2.1 ≠ httpParserError := by
  obtain ⟨y, hy, hycs, hyx⟩ := hfollow x hscan herr
  have htaken : y.1 = piece.length := by
    rw [scan_takes hy (halike.uriRelaxed.symm ▸ hc), Nat.zero_add]
  have hrun : x.2.1 ≠ httpParserError := by
    rw [(scan_kept hscan).1]
    exact run_ne_error (completes_ne_error hc) hc
  obtain ⟨q, n, c'⟩ := y
  obtain rfl : q = piece.length := htaken
  obtain rfl : n = x.2.1 := hycs
  exact ⟨c', hy, hyx, hrun⟩

theorem recvHead_round {whole more : Bytes} {base : Nat} (reads : List Bytes)
    (hfollow : Follows whole base piece mem w c) (halike : Alike w c)
    (hne : piece ≠ []) (hfit : piece.length ≤ buffSize)
    (hroom : HttpSession.full buffSize 0 = false) (hbody : c.parser.bodyStart = 0)
    (hc : completes w.parser.uriRelaxed c.parser.cs (piece ++ more))
    (hscan : scan whole base c.parser.cs piece w = .ok x) (herr : x.2.2.error = 0)
    (hlt : x.2.1 < httpParserFirstFinal) :
    ∃ c', HttpSession.recvHead buffSize (piece :: reads) 0 mem c =
        HttpSession.recvHead buffSize reads 0 (overwrite mem 0 piece) c' ∧
      Alike x.2.2 c' ∧ c'.parser.cs = x.2.1 ∧ c'.parser.bodyStart = 0 := by
  obtain ⟨c', hy, hxc, hrun⟩ := hfollow.taken halike hc hscan herr
  have hcs := completes_ne_error hc
  have hkept := (scan_kept hy).2
  refine ⟨c'.stopped piece.length x.2.1, ?_, ⟨hxc.uriRelaxed, hxc.data, hxc.error⟩, ?_, ?_⟩
  · rw [HttpSession.recvHead_taken hne hfit hroom (hbody ▸ Nat.zero_le _) hcs hy
      (hxc.error.trans herr) hrun, if_neg (Nat.not_le_of_lt hlt)]
  · exact HttpRequestParser.stopped_cs (hkept.cs ▸ hcs)
  · exact (hkept.bodyStart hlt).trans hbody

theorem recvHead_last {whole d : Bytes} {base : Nat} (reads : List Bytes)
    (hfollow : Follows whole base piece (overwrite mem 0 (piece ++ d)) w c) (halike : Alike w c)
    (hne : piece ≠ []) (hfit : (piece ++ d).length ≤ buffSize)
    (hroom : HttpSession.full buffSize d.length = false) (hbody : c.parser.bodyStart = 0)
    (hc : completes w.parser.uriRelaxed c.parser.cs piece)
    (hscan : scan whole base c.parser.cs piece w = .ok x) (herr : x.2.2.error = 0) :
    ∃ mem' c', HttpSession.recvHead buffSize ((piece ++ d) :: reads) 0 mem c =
      .ok (some (d.length, d ++ mem', c', reads)) ∧ c'.data = x.2.2.data := by
  have hc' : completes w.parser.uriRelaxed c.parser.cs (piece ++ []) := by
    rw [List.append_nil]
    exact hc
  obtain ⟨c', hy, hxc, hrun⟩ := hfollow.taken halike hc' hscan herr
  have hfinal : httpParserFirstFinal ≤ x.2.1 := by
    rw [(scan_kept hscan).1]
    exact completes_run hc
  -- the bytes after the head are in the buffer, but are not scanned
  have hstored : overwrite (overwrite mem 0 (piece ++ d)) 0 piece =
      overwrite mem 0 (piece ++ d) := by
    rw [overwrite_front, overwrite_front mem, List.append_assoc, List.drop_left]
  rw [hstored, ← scan_completed d (halike.uriRelaxed.symm ▸ hc)] at hy
  obtain ⟨mem', hrecv⟩ := HttpSession.recvHead_ended reads hne hfit hroom
    (hbody ▸ Nat.zero_le _) (completes_ne_error hc) hy (hxc.error.trans herr) hrun hfinal
  exact ⟨mem', _, hrecv, hxc.data⟩

theorem recvHead_follows (pre d : Bytes) (rest : List Bytes)
    (hfollow : ∀ mem, Follows (pre ++ (piece ++ (cuts.flatten ++ after))) pre.length piece mem w c)
    (halike : Alike w c) (hne : ∀ e ∈ piece :: cuts, e ≠ [])
    (hfit : ∀ e ∈ goOn d [] piece cuts, e.length ≤ buffSize)
    (hempty : cuts ≠ [] → HttpSession.full buffSize 0 = false)
    (hroom : HttpSession.full buffSize d.length = false)
    (hcs : c.parser.cs < httpParserFirstFinal) (hbody : c.parser.bodyStart = 0)
    (hpast : pastMethod (run w.parser.uriRelaxed c.parser.cs piece))
    (hf : settledCuts w.parser.uriRelaxed (run w.parser.uriRelaxed c.parser.cs piece) cuts)
    (hc : completes w.parser.uriRelaxed c.parser.cs (piece ++ cuts.flatten))
    (hscan : scan (pre ++ (piece ++ (cuts.flatten ++ after))) pre.length c.parser.cs
      (piece ++ cuts.flatten) w = .ok x) (herr : x.2.2.error = 0) :
    ∃ mem' c', HttpSession.recvHead buffSize (goOn d rest piece cuts) 0 mem c =
      .ok (some (d.length, d ++ mem', c', rest)) ∧ c'.data = x.2.2.data := by
  induction cuts generalizing pre piece mem w c with
  | nil =>
    rw [List.flatten_nil, List.append_nil] at hscan hc
    exact recvHead_last rest (hfollow _) halike (hne piece List.mem_cons_self)
      (hfit _ List.mem_cons_self) hroom hbody hc hscan herr
  | cons e cuts ih =>
    have hmore : (e :: cuts).flatten ≠ [] := by
      have := hne e (by simp)
      simp [this]
    obtain ⟨hlt, hc'⟩ := completes_append hmore hcs hc
    rw [scan_append hlt] at hscan
    obtain ⟨x₁, hscan₁, hscan⟩ := bind_eq_ok.mp hscan
    have herr₁ : x₁.2.2.error = 0 := by
      by_contra hne
      exact (scan_kept hscan).2.error hne herr
    have hrun := (scan_kept hscan₁).1
    rw [← hrun] at hlt hpast
    obtain ⟨c', hrecv, hxc, hcs', hbody'⟩ := recvHead_round (goOn d rest e cuts) (hfollow mem)
      halike (hne piece List.mem_cons_self) (hfit piece List.mem_cons_self)
      (hempty (List.cons_ne_nil e cuts)) hbody hc hscan₁ herr₁ hlt
    -- the whole read is now past `piece`, and the round has left the buffer empty
    have hbase : x₁.1 = (pre ++ piece).length := by
      rw [scan_takes hscan₁ hc, List.length_append]
    have hwhole : pre ++ (piece ++ ((e :: cuts).flatten ++ after)) =
        (pre ++ piece) ++ (e ++ (cuts.flatten ++ after)) := by
      simp only [List.flatten_cons, List.append_assoc]
    rw [← hrun, ← (scan_kept hscan₁).2.uriRelaxed] at hf hc'
    rw [hbase, hwhole] at hscan
    rw [← hcs'] at hlt hpast hf hc' hscan
    obtain ⟨hsettled, hf⟩ := Bool.and_eq_true_iff.mp hf
    obtain ⟨mem', c'', hrest, hdata⟩ := ih (pre ++ piece)
      (fun _ => hxc.follows hpast hsettled) hxc (fun e' he => hne e' (List.mem_cons_of_mem _ he))
      (fun e' he => hfit e' (List.mem_cons_of_mem _ he))
      (fun _ => hempty (List.cons_ne_nil e cuts)) hlt hbody' (run_pastMethod hpast) hf hc' hscan
    exact ⟨mem', c'', hrecv.trans hrest, hdata⟩

end Rounds

section First

variable {r : Bool} {mem piece after t g : Bytes} {b : UInt8} {s c : HttpRequestParser}
  {x : Nat × Nat × HttpRequestParser}

def HttpRequestParser.begun (s : HttpRequestParser) : HttpRequestParser :=
  { s with parser := { s.parser with mark := 0 } }

theorem scan_start (hb : methodStart b) (bs : Bytes) :
    scan mem 0 httpParserStart (b :: bs) s = scan mem 1 2 bs s.begun := by
  rw [scan_some (next_start hb) (by decide)]
  rfl

theorem scan_first (hb : methodStart b) (hw : word s.parser.uriRelaxed 2 t) :
    scan mem 0 httpParserStart (b :: (t ++ 32 :: g)) s =
      comparing (charsInside mem) (onRequestMethod mem 0 s.begun) >>=
        scan mem (t.length + 2) 3 g := by
  have hw' : word s.begun.parser.uriRelaxed 2 t := hw
  rw [scan_start hb, scan_word hw', show 1 + t.length + 1 = t.length + 2 by omega]
  rfl

theorem onRequestMethod_error (off : Nat)
    (h : charsToHttpMethod (mem.drop off) = .INVAILD_METHOD) :
    (onRequestMethod mem off s).error ≠ 0 := by
  simp only [onRequestMethod, if_pos h]
  exact Nat.succ_ne_zero _

theorem blank_not_mem_method (hb : methodStart b) (hw : word r 2 t) : 32 ∉ b :: t := by
  refine List.not_mem_cons_of_ne_of_not_mem ?_ (blank_not_mem_word hw)
  rintro rfl
  exact absurd hb (by decide)

theorem scan_method {head : Bytes} (hstart : head.head?.any methodStart)
    (hc : completes s.parser.uriRelaxed httpParserStart head)
    (hscan : scan (head ++ after) 0 httpParserStart head s = .ok x) (herr : x.2.2.error = 0) :
    ∃ b t g, head = b :: (t ++ 32 :: g) ∧ methodStart b ∧ word s.parser.uriRelaxed 2 t ∧
      ∃ e ∈ httpMethodMap, e.2 <+: b :: t := by
  cases head with
  | nil => cases hstart
  | cons b bs =>
    have hb : methodStart b := hstart
    rw [completes_cons (next_start hb) (by decide)] at hc
    obtain ⟨t, g, rfl, hw, hg⟩ := completes_word (by decide) hc
    refine ⟨b, t, g, rfl, hb, hw, ?_⟩
    rw [scan_first hb hw] at hscan
    obtain ⟨_, hmethod, hscan⟩ := bind_eq_ok.mp hscan
    obtain ⟨-, rfl⟩ := comparing_eq_ok.mp hmethod
    refine method_word after (blank_not_mem_method hb hw) hg fun hv => ?_
    refine (scan_kept hscan).2.error (onRequestMethod_error _ ?_) herr
    simpa using hv

theorem follows_first (hb : methodStart b) (hw : word c.parser.uriRelaxed 2 t)
    (hmethod : ∃ e ∈ httpMethodMap, e.2 <+: b :: t) (hcs : c.parser.cs = httpParserStart)
    (hf : settled c.parser.uriRelaxed httpParserStart .none (b :: (t ++ 32 :: g))) :
    Follows (b :: (t ++ 32 :: g) ++ after) 0 (b :: (t ++ 32 :: g)) mem c.rewind c := by
  intro x hscan _
  rw [hcs] at hscan ⊢
  have hw' : word c.rewind.parser.uriRelaxed 2 t := hw
  rw [scan_first hb hw'] at hscan
  obtain ⟨_, hlooked, hscan⟩ := bind_eq_ok.mp hscan
  obtain ⟨-, rfl⟩ := comparing_eq_ok.mp hlooked
  obtain ⟨e, he, hpre⟩ := hmethod
  have hM : b :: t ≠ [77] := by
    intro hM
    exact (httpMethodMap_invaild e he).2 (hM ▸ hpre)
  have hinside : charsInside
      (b :: (t ++ 32 :: g) ++ mem.drop (b :: (t ++ 32 :: g)).length) = true := by
    rw [List.cons_append, List.append_assoc]
    exact charsInside_word _ (blank_not_mem_method hb hw) hM
  rw [overwrite_front, scan_first hb hw', hinside, comparing_true]
  have hsame : onRequestMethod (b :: (t ++ 32 :: g) ++ after) 0 c.rewind.begun =
      onRequestMethod (b :: (t ++ 32 :: g) ++ mem.drop (b :: (t ++ 32 :: g)).length) 0
        c.rewind.begun := by
    have hlookup := charsToHttpMethod_word (g := g ++ after)
      (g ++ mem.drop (b :: (t ++ 32 :: g)).length) (blank_not_mem_method hb hw) hM
    simp only [List.cons_append] at hlookup
    simp only [onRequestMethod, List.drop_zero, List.cons_append, List.append_assoc, hlookup]
  rw [← hsame]
  -- up to here the two scans agree; the rest starts with the mark at the method
  have hmark : (onRequestMethod (b :: (t ++ 32 :: g) ++ after) 0 c.rewind.begun).parser.mark ≤
      t.length + 2 := by
    rw [(onRequestMethod_reported _ _ _).parser]
    exact Nat.zero_le _
  have hr : (onRequestMethod (b :: (t ++ 32 :: g) ++ after) 0 c.rewind.begun).parser.uriRelaxed =
      c.parser.uriRelaxed := by
    rw [(onRequestMethod_reported _ _ _).parser]
    rfl
  have hlen : t.length + 2 + g.length ≤ (b :: (t ++ 32 :: g)).length := by
    simp only [List.length_cons, List.length_append]
    omega
  rw [settled_start hb hw] at hf
  obtain ⟨f, y, hy, hcs', hsim⟩ := scan_sim [] _ (.marked hmark) hr (by decide) hf hlen
    (by rw [List.length_nil, Nat.zero_add]; exact hscan)
  exact ⟨y, hy, hcs', hsim.alike⟩

theorem charsToHttpMethod_tail (hmethod : ∃ e ∈ httpMethodMap, e.2 <+: b :: t) :
    charsToHttpMethod (t ++ after) = .INVAILD_METHOD := by
  obtain ⟨e, he, hpre⟩ := hmethod
  have htail : e.2.tail <+: t ++ after := by
    cases hname : e.2 with
    | nil => exact List.nil_prefix
    | cons a name =>
      rw [hname] at hpre
      exact (List.cons_prefix_cons.mp hpre).2.trans (List.prefix_append _ _)
  refine charsToHttpMethod_invaild fun e' he' hpre' => ?_
  rcases List.prefix_or_prefix_of_prefix hpre' htail with h | h
  · exact (httpMethodMap_tail e he e' he').1 h
  · exact (httpMethodMap_tail e he e' he').2 h

end First

namespace HttpSession

/-- A complete head of a request, no longer than the buffer. A head begins with a
method; the automaton also takes socket messages, which begin with `<` or `@`. -/
structure RequestHead (session : HttpSession) (head : Bytes) : Prop where
  start : head.head?.any methodStart
  complete : completes session.uriRelaxed httpParserStart head
  fits : head.length ≤ session.buffSize

structure CutOf (head : Bytes) (cuts : List Bytes) : Prop where
  flatten : cuts.flatten = head
  ne_nil : ∀ c ∈ cuts, c ≠ []

def SameHead (req req' : HttpRequest) : Prop :=
  req.method = req'.method ∧ req.path = req'.path ∧ req.query = req'.query ∧
    req.fragment = req'.fragment ∧ req.version = req'.version ∧ req.headers = req'.headers

variable {session : HttpSession} {head : Bytes} {rest : List Bytes}
  {z : HttpRequest × List Bytes}

theorem RequestHead.ne_nil (h : session.RequestHead head) : head ≠ [] := by
  rintro rfl
  exact absurd h.complete Bool.false_ne_true

theorem RequestHead.scanned {y : Nat × Bytes × HttpRequestParser × List Bytes}
    (h : session.RequestHead head)
    (hhead : recvHead session.buffSize (head :: rest) 0 session.memory session.parser =
      .ok (some y)) :
    ∃ x, scan (head ++ session.memory.drop head.length) 0 httpParserStart head
      session.parser.rewind = .ok x ∧ x.2.2.error = 0 ∧ full session.buffSize 0 = false ∧
      y.1 = 0 ∧ y.2.2.1.data = x.2.2.data ∧ y.2.2.2 = rest := by
  obtain ⟨x, hscan, herr, hroom⟩ := recvHead_scanned h.ne_nil h.fits (Nat.zero_le _) hhead
  have hself : Follows (head ++ session.memory.drop head.length) 0 head
      (overwrite session.memory 0 (head ++ [])) session.parser.rewind session.parser := by
    intro x hx _
    rw [List.append_nil, overwrite_front session.memory, overwrite_front, List.drop_left]
    exact ⟨x, hx, rfl, rfl, rfl, rfl⟩
  rw [overwrite_front] at hscan
  have hcomplete : completes session.uriRelaxed httpParserStart (head ++ []) := by
    rw [List.append_nil]
    exact h.complete
  rw [scan_takes hscan hcomplete, Nat.zero_add, Nat.sub_self] at hroom
  have hfit : (head ++ []).length ≤ session.buffSize := by
    rw [List.append_nil]
    exact h.fits
  obtain ⟨mem', c', hrecv, hdata⟩ :=
    recvHead_last rest hself ⟨rfl, rfl, rfl⟩ h.ne_nil hfit hroom rfl h.complete hscan herr
  rw [List.append_nil, hhead] at hrecv
  obtain rfl := Option.some.inj (Except.ok.inj hrecv)
  exact ⟨x, hscan, herr, hroom, rfl, hdata, rfl⟩

theorem first_settled {r : Bool} {b : UInt8} {t g : Bytes} {cuts : List Bytes}
    (hb : methodStart b) (hw : word r 2 t) (hcut : CutOf (b :: (t ++ 32 :: g)) cuts)
    (hf : settledCuts r httpParserStart cuts) :
    ∃ g₀ cuts', cuts = (b :: (t ++ 32 :: g₀)) :: cuts' ∧ g = g₀ ++ cuts'.flatten := by
  cases cuts with
  | nil => cases hcut.flatten
  | cons c cuts =>
    obtain ⟨b', c, rfl⟩ := List.exists_cons_of_ne_nil (hcut.ne_nil c List.mem_cons_self)
    obtain ⟨rfl, hflat⟩ := List.cons.inj hcut.flatten
    rcases cut_word hflat with ⟨u, rfl, hrest⟩ | ⟨g₀, rfl, hg⟩
    · have hstale := settledCuts_word (word_append hw) hrest
      rw [settledCuts, run_cons (next_start hb) (by decide)] at hf
      exact absurd ((Bool.and_eq_true_iff.mp hf).2) (Bool.not_eq_true _ ▸ hstale)
    · exact ⟨g₀, cuts, rfl, hg⟩

/-- What a call receives from the settled reads of a head that was scanned in a whole
read, when the last of them goes on with `d`. -/
theorem recvRequest_goOn {first after d : Bytes} {cuts : List Bytes} (rest : List Bytes)
    {x : Nat × Nat × HttpRequestParser} (hstart : (first ++ cuts.flatten).head?.any methodStart)
    (hc : completes session.uriRelaxed httpParserStart (first ++ cuts.flatten))
    (hscan : scan (first ++ cuts.flatten ++ after) 0 httpParserStart (first ++ cuts.flatten)
      session.parser.rewind = .ok x) (herr : x.2.2.error = 0)
    (hne : ∀ e ∈ first :: cuts, e ≠ [])
    (hfit : ∀ e ∈ goOn d [] first cuts, e.length ≤ session.buffSize)
    (hempty : cuts ≠ [] → full session.buffSize 0 = false)
    (hroom : full session.buffSize d.length = false) (hsize : session.Resizes x.2.2)
    (hf : settledCuts session.uriRelaxed httpParserStart (first :: cuts)) :
    session.recvRequest (goOn d rest first cuts) =
      .ok (recvBody session.lexicalCast d.length d x.2.2 rest) := by
  obtain ⟨b, t, g, hhead, hb, hw, hmethod⟩ := scan_method hstart hc hscan herr
  have hcut : CutOf (b :: (t ++ 32 :: g)) (first :: cuts) := ⟨hhead, hne⟩
  obtain ⟨g₀, cuts', hcuts, -⟩ := first_settled hb hw hcut hf
  obtain ⟨rfl, rfl⟩ := List.cons.inj hcuts
  have hw' : word session.uriRelaxed 2 t := hw
  have hpast : pastMethod (run session.uriRelaxed httpParserStart (b :: (t ++ 32 :: g₀))) := by
    rw [run_method hb hw']
    exact run_pastMethod (by decide)
  obtain ⟨hfirst, hothers⟩ := Bool.and_eq_true_iff.mp hf
  have hfollow : ∀ mem, Follows (b :: (t ++ 32 :: g₀) ++ (cuts.flatten ++ after)) 0
      (b :: (t ++ 32 :: g₀)) mem session.parser.rewind session.parser :=
    fun _ => follows_first hb hw' hmethod rfl hfirst
  rw [List.append_assoc] at hscan
  obtain ⟨mem', c', hrecv, hdata⟩ := recvHead_follows (w := session.parser.rewind)
    (c := session.parser) [] d rest hfollow ⟨rfl, rfl, rfl⟩ hne hfit hempty hroom
    (show httpParserStart < httpParserFirstFinal by decide) rfl hpast hothers hc hscan herr
  rw [recvRequest_eq hrecv (hsize.congr hdata), recvBody_front session.lexicalCast hdata]

theorem recvRequest_settled {cuts : List Bytes} (h : session.RequestHead head)
    (hreq : session.recvRequest (head :: rest) = .ok (some z)) (hcut : CutOf head cuts)
    (hf : settledCuts session.uriRelaxed httpParserStart cuts) :
    session.recvRequest (cuts ++ rest) = .ok (some z) := by
  obtain ⟨⟨offset, mem, s, left⟩, hhead, hsize⟩ := recvRequest_some hreq
  obtain ⟨x, hscan, herr, hroom, rfl, hdata, rfl⟩ := h.scanned hhead
  have hwhole : session.recvRequest (head :: left) =
      .ok (recvBody session.lexicalCast 0 [] x.2.2 left) := by
    rw [recvRequest_eq hhead hsize]
    exact congrArg _ (recvBody_front (d := []) session.lexicalCast hdata)
  obtain ⟨hflat, hne⟩ := hcut
  cases cuts with
  | nil => exact absurd hflat.symm h.ne_nil
  | cons first cuts =>
    obtain rfl : first ++ cuts.flatten = head := hflat
    have hfit : ∀ e ∈ goOn [] [] first cuts, e.length ≤ session.buffSize := by
      intro e he
      rw [goOn_nil, List.append_nil] at he
      exact (List.sublist_flatten_of_mem he).length_le.trans h.fits
    have hreads := recvRequest_goOn left h.start h.complete hscan herr hne hfit
      (fun _ => hroom) hroom (hsize.congr hdata.symm) hf
    rw [goOn_nil] at hreads
    exact hreads.trans (hwhole.symm.trans hreq)

theorem recvRequest_first (h : session.RequestHead head)
    (hreq : session.recvRequest (head :: rest) = .ok (some z)) :
    ∃ cuts, CutOf head cuts ∧ ∀ z, session.recvRequest (cuts ++ rest) ≠ .ok (some z) := by
  obtain ⟨_, hhead, -⟩ := recvRequest_some hreq
  obtain ⟨x, hscan, herr, hroom, -⟩ := h.scanned hhead
  obtain ⟨b, t, g, rfl, hb, hw, hmethod⟩ := scan_method h.start h.complete hscan herr
  refine ⟨[[b], t ++ 32 :: g], ⟨by simp, by simp⟩, fun z hz => ?_⟩
  obtain ⟨y, hy, -⟩ := recvRequest_some hz
  have hone : scan (overwrite session.memory 0 [b]) 0 httpParserStart [b] session.parser.rewind =
      .ok ([b].length, 2, session.parser.rewind.begun) := scan_start hb []
  have hfits := h.fits
  rw [List.length_cons] at hfits
  have hcs : session.parser.parser.cs ≠ httpParserError := Nat.one_ne_zero
  rw [List.cons_append, recvHead_taken (List.cons_ne_nil b []) (by simp; omega) hroom
    (Nat.zero_le _) hcs hone rfl (by decide), if_neg (by decide)] at hy
  obtain ⟨x', hscan', herr', -⟩ := recvHead_scanned (by simp) (by omega) (Nat.zero_le _) hy
  rw [overwrite_front] at hscan'
  have hw' : word (session.parser.rewind.begun.stopped [b].length 2).rewind.parser.uriRelaxed 2 t := hw
  have hcs : (session.parser.rewind.begun.stopped [b].length 2).parser.cs = 2 := rfl
  rw [hcs, scan_word hw'] at hscan'
  obtain ⟨_, hlooked, hscan'⟩ := bind_eq_ok.mp hscan'
  obtain ⟨-, rfl⟩ := comparing_eq_ok.mp hlooked
  refine (scan_kept hscan').2.error (onRequestMethod_error _ ?_) herr'
  rw [List.append_assoc]
  exact charsToHttpMethod_tail hmethod

/-- A head that one read delivers gives the same request in settled reads, and
there is no head that does so under every cutting. -/
theorem recvRequest_cuts (session : HttpSession) (head : Bytes) (rest left : List Bytes)
    (req : HttpRequest) (h : session.RequestHead head)
    (hreq : session.recvRequest (head :: rest) = .ok (some (req, left))) :
    (∀ cuts, CutOf head cuts → settledCuts session.uriRelaxed httpParserStart cuts →
      session.recvRequest (cuts ++ rest) = .ok (some (req, left))) ∧
    ¬ ∀ cuts, CutOf head cuts → ∃ req' left',
      session.recvRequest (cuts ++ rest) = .ok (some (req', left')) ∧ SameHead req' req := by
  refine ⟨fun cuts hcut hf => recvRequest_settled h hreq hcut hf, fun hall => ?_⟩
  obtain ⟨cuts, hcut, hnone⟩ := recvRequest_first h hreq
  obtain ⟨req', left', hsome, -⟩ := hall cuts hcut
  exact hnone _ hsome

def small : HttpSession :=
  { buffSize := 24
    memory := List.replicate 24 0
    queryStart := 0
    uriRelaxed := false
    lexicalCast := fun _ => none
    maxSize := 2 ^ 31
    free := 2 ^ 31
    fits := Nat.le_refl 24
    free_le := Nat.le_refl _
    room := Nat.le_refl _ }

def shortCuts : List Bytes :=
  [ascii ['G', 'E', 'T', ' '], ascii ['/', ' '],
    ascii ['H', 'T', 'T', 'P', '/', '1', '.', '0', '\r', '\n'], ascii ['\r', '\n']]

def shortRequest : HttpRequest := { HttpRequest.fresh with version := 0x10 }

theorem recvRequest_cuts_short :
    small.recvRequest [shortCuts.flatten] = .ok (some (shortRequest, [])) ∧
      small.recvRequest shortCuts = .ok (some (shortRequest, [])) := by
  have hhead : small.RequestHead shortCuts.flatten :=
    ⟨by decide, by decide, by decide⟩
  have hreq : small.recvRequest [shortCuts.flatten] = .ok (some (shortRequest, [])) := by
    decide
  have hcuts := (recvRequest_cuts small shortCuts.flatten [] [] shortRequest hhead hreq).1 shortCuts
    ⟨rfl, by decide⟩ (by decide)
  exact ⟨hreq, hcuts⟩

/-- The same head is refused when its first letter comes alone. -/
theorem first_letter_alone_refused :
    small.recvRequest [shortCuts.flatten] = .ok (some (shortRequest, [])) ∧
      small.recvRequest [shortCuts.flatten.take 1, shortCuts.flatten.drop 1] = .ok none := by
  decide

end HttpSession

end Sylar.Http
