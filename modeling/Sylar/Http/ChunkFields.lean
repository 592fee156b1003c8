import Sylar.Http.ChunkLengths
import Sylar.Http.Headers

/-! The headers of a chunked response. The parser is started on every size line with the callbacks
of the head, and the names and values of a chunk's extensions go where the headers of the head
went. What is read apart from that does not depend on the headers. -/
namespace Sylar.Http

open Lib Lib.Blocks

def HttpResponseParser.withHeaders (headers : Headers) (s : HttpResponseParser) :
    HttpResponseParser :=
  { s with data := { s.data with headers } }

namespace Client

def silent : Nat → Bytes → Bool
  | _, [] => true
  | cs, b :: bs =>
    match next cs b with
    | none => true
    | some arc => !arc.actions.contains .write_value && (arc.actions.contains .done ||
        silent arc.target bs)

def unnamed (cs : Nat) : Bool :=
  cs ≤ 5 || (8 ≤ cs && cs ≤ 21) || (24 ≤ cs && cs ≤ 34) || (44 ≤ cs && cs ≤ 60) ||
    (101 ≤ cs && cs ≤ 111) || cs == httpclientParserFirstFinal

/-- Whether a name has been read after the actions, `none` if a value comes before it or if the
name is empty. `fresh` says that the name begins at the byte of the actions. -/
def naming : Bool → Bool → List Action → Option Bool
  | named, _, [] => some named
  | named, fresh, a :: as =>
    match a with
    | .start_field => naming named true as
    | .write_field => if fresh then none else naming true fresh as
    | .write_value => if named then naming named fresh as else none
    | _ => naming named fresh as

section Table

variable {cs : Nat} {b : UInt8} {arc : Arc}

theorem next_entry {P : Nat → Arc → Prop} (h : ∀ cs < 150, ∀ e ∈ state cs, P cs e.2.2)
    (hn : next cs b = some arc) : P cs arc := by
  obtain ⟨lo, hi, hmem, -⟩ := RangeTable.mem_of_pick hn
  have hcs : cs < 150 := by
    by_contra hcs
    have hblock : blocks[cs / 50]? = none := List.getElem?_eq_none (show 3 ≤ cs / 50 by omega)
    simp [state, hblock] at hmem
  exact h cs hcs _ hmem

theorem next_naming (hn : next cs b = some arc) :
    ∃ named, naming (!unnamed cs) (cs == httpclientParserStart) arc.actions = some named ∧
      (unnamed arc.target = false → named = true) ∧ arc.target ≠ httpclientParserStart := by
  have h : (naming (!unnamed cs) (cs == httpclientParserStart) arc.actions).any
      (fun named => (unnamed arc.target || named) && arc.target != httpclientParserStart) = true :=
    next_entry (P := fun cs arc =>
      (naming (!unnamed cs) (cs == httpclientParserStart) arc.actions).any
      (fun named => (unnamed arc.target || named) && arc.target != httpclientParserStart) = true)
      (by decide +kernel) hn
  obtain ⟨named, hnamed, h⟩ := Option.any_eq_true _ _ |>.mp h
  simp only [Bool.and_eq_true, Bool.or_eq_true, bne_iff_ne] at h
  refine ⟨named, hnamed, fun htarget => ?_, h.2⟩
  exact h.1.resolve_left (by rw [htarget]; decide)

end Table

section Scan

variable {mem : Bytes} {p cs : Nat} {bs : Bytes} {a : Action} {s s' : HttpResponseParser}
  {named named' fresh : Bool}

structure Naming (named fresh : Bool) (p : Nat) (s : HttpResponseParser) : Prop where
  name : named = true → s.parser.fieldLen ≠ 0
  start : s.parser.fieldStart ≤ p
  past : fresh = false → s.parser.fieldStart < p

/-- The actions, or a whole scan, do the same whatever the headers are, and set some fields. -/
def Sets {α : Type} (f : HttpResponseParser → Except Fault α) (s : HttpResponseParser)
    (result : HttpResponseParser → α) (s' : HttpResponseParser) (fields : List (Bytes × Bytes)) :
    Prop :=
  ∀ headers, f (s.withHeaders headers) = .ok (result (s'.withHeaders (headers.setAll fields)))

theorem Sets.bind {α : Type} {f : HttpResponseParser → Except Fault HttpResponseParser}
    {g : HttpResponseParser → Except Fault α} {result : HttpResponseParser → α}
    {s₁ : HttpResponseParser} {fields more : List (Bytes × Bytes)} (hf : Sets f s id s₁ fields)
    (hg : Sets g s₁ result s' more) : Sets (fun s => f s >>= g) s result s' (fields ++ more) := by
  intro headers
  rw [Headers.setAll_append]
  exact bind_eq_ok.mpr ⟨_, hf headers, hg _⟩

theorem onResponseVersion_withHeaders (headers : Headers) (off length : Nat)
    (s : HttpResponseParser) : onResponseVersion mem off length (s.withHeaders headers) =
      (onResponseVersion mem off length s).withHeaders headers := by
  unfold onResponseVersion
  dsimp only
  split
  · rfl
  · split <;> rfl

theorem sets_other (h : act mem p s a = .ok s') (ha : a ≠ .write_value) :
    Sets (act mem p · a) s id s' [] := by
  intro headers
  cases a with
  | write_value => exact absurd rfl ha
  | reason_phrase =>
    obtain ⟨text, htext, h⟩ := bind_eq_ok.mp h
    obtain rfl := Except.ok.inj h
    exact bind_eq_ok.mpr ⟨text, htext, rfl⟩
  | http_version =>
    obtain rfl := Except.ok.inj h
    exact congrArg Except.ok (onResponseVersion_withHeaders headers _ _ s)
  | _ =>
    obtain rfl := Except.ok.inj h
    rfl

theorem sets_value (h : act mem p s .write_value = .ok s') (hname : s.parser.fieldLen ≠ 0) :
    ∃ e, Sets (act mem p · .write_value) s id s' [e] ∧ s'.parser = s.parser := by
  simp only [act, onResponseHttpField, if_neg hname] at h
  obtain ⟨key, hkey, h⟩ := bind_eq_ok.mp h
  obtain ⟨val, hval, h⟩ := bind_eq_ok.mp h
  obtain rfl := Except.ok.inj h
  refine ⟨(key, val), fun headers => ?_, rfl⟩
  simp only [act, onResponseHttpField]
  rw [if_neg (show (s.withHeaders headers).parser.fieldLen ≠ 0 from hname)]
  exact bind_eq_ok.mpr ⟨key, hkey, bind_eq_ok.mpr ⟨val, hval, rfl⟩⟩

theorem act_field (h : act mem p s a = .ok s') (ha : a ≠ .write_value) :
    s'.parser.fieldStart = (if a = .start_field then p else s.parser.fieldStart) ∧
      s'.parser.fieldLen =
        if a = .write_field then len s.parser.fieldStart p else s.parser.fieldLen := by
  cases a with
  | write_value => exact absurd rfl ha
  | reason_phrase =>
    obtain ⟨text, -, h⟩ := bind_eq_ok.mp h
    obtain rfl := Except.ok.inj h
    exact ⟨rfl, rfl⟩
  | http_version =>
    obtain rfl := Except.ok.inj h
    unfold onResponseVersion
    dsimp only
    split
    · exact ⟨rfl, rfl⟩
    · split <;> exact ⟨rfl, rfl⟩
  | _ =>
    obtain rfl := Except.ok.inj h
    exact ⟨rfl, rfl⟩

theorem len_ne_zero {off : Nat} (h : off < p) : len off p ≠ 0 := by
  unfold len
  rw [if_pos (Nat.le_of_lt h)]
  omega

theorem Naming.of_eq (h : Naming named fresh p s)
    (hstart : s'.parser.fieldStart = s.parser.fieldStart)
    (hlen : s'.parser.fieldLen = s.parser.fieldLen) : Naming named fresh p s' := by
  refine ⟨?_, ?_, ?_⟩
  · rw [hlen]
    exact h.name
  · rw [hstart]
    exact h.start
  · rw [hstart]
    exact h.past

theorem Naming.act (h : Naming named fresh p s) (hact : act mem p s a = .ok s')
    {as : List Action} (hnaming : naming named fresh (a :: as) = some named') :
    ∃ named₁ fresh₁, Naming named₁ fresh₁ p s' ∧ naming named₁ fresh₁ as = some named' ∧
      (a = .write_value → s.parser.fieldLen ≠ 0) := by
  by_cases hvalue : a = .write_value
  · subst hvalue
    obtain ⟨rfl, hrest⟩ : named = true ∧ naming named fresh as = some named' := by
      simpa [naming] using hnaming
    obtain ⟨e, -, hparser⟩ := sets_value hact (h.name rfl)
    exact ⟨true, fresh, h.of_eq (by rw [hparser]) (by rw [hparser]), hrest, fun _ => h.name rfl⟩
  · obtain ⟨hstart, hlen⟩ := act_field hact hvalue
    by_cases hbegin : a = .start_field
    · subst hbegin
      refine ⟨named, true, ⟨?_, ?_, fun hfresh => by cases hfresh⟩, hnaming, fun h => by cases h⟩
      · rw [hlen]
        exact h.name
      · rw [hstart]
        exact Nat.le_refl p
    · rw [if_neg hbegin] at hstart
      by_cases hend : a = .write_field
      · subst hend
        obtain ⟨rfl, hrest⟩ : fresh = false ∧ naming true fresh as = some named' := by
          simpa [naming] using hnaming
        refine ⟨true, false, ⟨fun _ => ?_, ?_, fun _ => ?_⟩, hrest, fun h => by cases h⟩
        · rw [hlen, if_pos rfl]
          exact len_ne_zero (h.past rfl)
        · rw [hstart]
          exact h.start
        · rw [hstart]
          exact h.past rfl
      · rw [if_neg hend] at hlen
        refine ⟨named, fresh, h.of_eq hstart hlen, ?_, fun h => absurd h hvalue⟩
        cases a <;> first | contradiction | exact hnaming

theorem sets_acts {as : List Action} (h : Naming named fresh p s)
    (hacts : as.foldlM (Client.act mem p) s = .ok s')
    (hnaming : naming named fresh as = some named') :
    ∃ fields, Sets (fun s => as.foldlM (Client.act mem p) s) s id s' fields ∧
      (fields = [] ↔ .write_value ∉ as) ∧ Naming named' false (p + 1) s' := by
  induction as generalizing s named fresh with
  | nil =>
    obtain rfl := Except.ok.inj hacts
    obtain rfl := Option.some.inj hnaming
    refine ⟨[], fun headers => rfl, by simp, h.name, Nat.le_succ_of_le h.start, fun _ => ?_⟩
    exact Nat.lt_succ_of_le h.start
  | cons a as ih =>
    rw [List.foldlM_cons] at hacts
    obtain ⟨s₁, hact, hacts⟩ := bind_eq_ok.mp hacts
    obtain ⟨named₁, fresh₁, h₁, hnaming₁, hname⟩ := h.act hact hnaming
    obtain ⟨fields, hsets, hnil, h'⟩ := ih h₁ hacts hnaming₁
    simp only [List.foldlM_cons]
    by_cases hvalue : a = .write_value
    · subst hvalue
      obtain ⟨e, hfirst, -⟩ := sets_value hact (hname rfl)
      exact ⟨e :: fields, hfirst.bind hsets, by simp, h'⟩
    · refine ⟨fields, (sets_other hact hvalue).bind hsets, ?_, h'⟩
      rw [hnil, List.mem_cons, not_or]
      exact ⟨fun hnot => ⟨fun heq => hvalue heq.symm, hnot⟩, fun hnot => hnot.2⟩

theorem sets_scan {x : Nat × Nat × HttpResponseParser}
    (h : Naming (!unnamed cs) (cs == httpclientParserStart) p s)
    (hscan : scan mem p cs bs s = .ok x) :
    ∃ fields, Sets (scan mem p cs bs) s (fun s => (x.1, x.2.1, s)) x.2.2 fields ∧
      (fields = [] ↔ silent cs bs = true) := by
  induction bs generalizing p cs s with
  | nil =>
    obtain rfl := Except.ok.inj hscan
    exact ⟨[], fun headers => rfl, by simp [silent]⟩
  | cons b bs ih =>
    rw [scan] at hscan
    unfold silent
    cases hn : next cs b with
    | none =>
      rw [hn] at hscan
      obtain rfl := Except.ok.inj hscan
      refine ⟨[], fun headers => ?_, by simp⟩
      rw [scan, hn]
      rfl
    | some arc =>
      rw [hn] at hscan
      obtain ⟨s₁, hacts, hscan⟩ := bind_eq_ok.mp hscan
      obtain ⟨named, hnaming, htarget, hstart⟩ := next_naming hn
      obtain ⟨fields, hsets, hnil, h₁⟩ := sets_acts h hacts hnaming
      by_cases hd : .done ∈ arc.actions
      · rw [if_pos hd] at hscan
        obtain rfl := Except.ok.inj hscan
        refine ⟨fields, fun headers => ?_, ?_⟩
        · rw [scan, hn]
          simp only [hsets headers, Bind.bind, Except.bind, if_pos hd]
          rfl
        · rw [hnil]
          simp [hd]
      · rw [if_neg hd] at hscan
        have hnext :
            Naming (!unnamed arc.target) (arc.target == httpclientParserStart) (p + 1) s₁ := by
          refine ⟨fun hn => h₁.name (htarget (by simpa using hn)), h₁.start, fun _ => h₁.past rfl⟩
        obtain ⟨more, hmore, hnil'⟩ := ih hnext hscan
        refine ⟨fields ++ more, fun headers => ?_, ?_⟩
        · rw [scan, hn, Headers.setAll_append, ← hmore]
          simp only [hsets headers, Bind.bind, Except.bind, if_neg hd]
          rfl
        · rw [List.append_eq_nil_iff, hnil, hnil']
          simp [hd]

end Scan

end Client

open Client (Sets silent httpclientParserStart httpclientParserError)

namespace HttpResponseParser

variable {mem : Bytes} {length : Nat} {s : HttpResponseParser}

theorem naming_anew (s : HttpResponseParser) :
    Client.Naming (!Client.unnamed httpclientParserStart)
      (httpclientParserStart == httpclientParserStart) 0 s.anew.rewind where
  name h := absurd h (by decide)
  start := Nat.le_refl 0
  past h := absurd h (by decide)

theorem sets_parserExecute {x : Nat × HttpResponseParser}
    (h : s.anew.httpclientParserExecute mem length = .ok x) :
    ∃ fields, Sets (fun s => s.anew.httpclientParserExecute mem length) s (fun s => (x.1, s)) x.2
        fields ∧ (fields = [] ↔ silent httpclientParserStart (mem.take length) = true) := by
  have hstart : ∀ s : HttpResponseParser,
      ¬(s.anew.parser.cs = httpclientParserError ∧ length ≠ 0) :=
    fun s h => absurd (show httpclientParserStart = httpclientParserError from h.1) (by decide)
  unfold httpclientParserExecute at h
  rcases ite_eq_iff.mp h with ⟨-, h⟩ | ⟨hnull, h⟩
  · cases h
  rcases ite_eq_iff.mp h with ⟨hbad, -⟩ | ⟨-, h⟩
  · exact absurd hbad (hstart s)
  obtain ⟨⟨p, cs, s₁⟩, hscan, h⟩ := bind_eq_ok.mp h
  rcases ite_eq_iff.mp h with ⟨hle, h⟩ | ⟨-, h⟩
  · rcases ite_eq_iff.mp h with ⟨hin, h⟩ | ⟨-, h⟩
    · obtain rfl := Except.ok.inj h
      obtain ⟨fields, hsets, hnil⟩ := Client.sets_scan s.naming_anew hscan
      refine ⟨fields, fun headers => ?_, hnil⟩
      have hscan' := hsets headers
      change Client.scan mem 0 (s.withHeaders headers).anew.parser.cs (mem.take length)
        (s.withHeaders headers).anew.rewind = _ at hscan'
      simp only [httpclientParserExecute]
      rw [if_neg hnull, if_neg (hstart _), hscan']
      exact (if_pos hle).trans (if_pos hin)
    · cases h
  · cases h

theorem sets_execute {x : Nat × Bytes × HttpResponseParser}
    (h : s.execute mem length true = .ok x) :
    ∃ fields, Sets (·.execute mem length true) s (fun s => (x.1, x.2.1, s)) x.2.2 fields ∧
      (fields = [] ↔ silent httpclientParserStart (mem.take length) = true) := by
  obtain ⟨y, hexec, h⟩ := bind_eq_ok.mp h
  obtain rfl := Except.ok.inj h
  obtain ⟨fields, hsets, hnil⟩ := sets_parserExecute hexec
  refine ⟨fields, fun headers => ?_, hnil⟩
  exact bind_eq_ok.mpr ⟨_, hsets headers, rfl⟩

end HttpResponseParser

namespace ResponseCall

section Texts

variable (buffSize : Nat)

def recvSizeTexts : List Bytes → Nat → Bytes → HttpResponseParser → List Bytes
  | [], _, _, _ => []
  | c :: reads, length, mem, s =>
    (overwrite mem length c).take (length + c.length) ::
      match parseSize buffSize (length + c.length) (overwrite mem length c) s with
      | .ok (some (length, mem, s)) =>
        if s.isFinished then [] else recvSizeTexts reads length mem s
      | _ => []

def chunkSizeTexts (reads : List Bytes) (length : Nat) (mem : Bytes) (s : HttpResponseParser) :
    List Bytes :=
  if length = 0 then recvSizeTexts buffSize reads length mem s
  else
    mem.take length ::
      match parseSize buffSize length mem s with
      | .ok (some (length, mem, s)) =>
        if s.isFinished then [] else recvSizeTexts buffSize reads length mem s
      | _ => []

/-- The texts that are taken for size lines, in the order of `recvChunks`. -/
def recvChunksTexts : Nat → List Bytes → Nat → Bytes → HttpResponseParser → Bytes → List Bytes
  | 0, _, _, _, _, _ => []
  | rounds + 1, reads, length, mem, s, body =>
    chunkSizeTexts buffSize reads length mem s ++
      match chunkSize buffSize reads length mem s with
      | .ok (some (length, mem, s, reads)) =>
        match chunkData buffSize reads length mem s.parser.contentLen body with
        | .ok (some (length, mem, body, reads)) =>
          if s.parser.chunksDone then [] else recvChunksTexts rounds reads length mem s body
        | _ => []
      | _ => []

end Texts

section Rounds

variable {buffSize length : Nat} {mem : Bytes} {reads : List Bytes} {s : HttpResponseParser}

theorem length_le_of_execute {x : Nat × Bytes × HttpResponseParser}
    (h : s.execute (overwrite mem length [0]) length true = .ok x) : length ≤ mem.length := by
  obtain ⟨y, h, -⟩ := bind_eq_ok.mp h
  unfold HttpResponseParser.httpclientParserExecute at h
  rcases ite_eq_iff.mp h with ⟨-, h⟩ | ⟨hnull, -⟩
  · cases h
  have hlt := (List.getElem?_eq_some_iff.mp (not_not.mp hnull)).1
  simp only [overwrite, List.length_append, List.length_take, List.length_drop,
    List.length_singleton] at hlt
  omega

theorem sets_parseSize {y : Nat × Bytes × HttpResponseParser}
    (h : parseSize buffSize length mem s = .ok (some y)) :
    ∃ fields, Sets (parseSize buffSize length mem) s (fun s => some (y.1, y.2.1, s)) y.2.2 fields ∧
      (fields = [] ↔ silent httpclientParserStart (mem.take length) = true) := by
  obtain ⟨x, hexec, h⟩ := bind_eq_ok.mp h
  have hlen := length_le_of_execute hexec
  have htext : (overwrite mem length [0]).take length = mem.take length := by
    rw [overwrite, List.append_assoc]
    exact List.take_left' (List.length_take_of_le hlen)
  rcases ite_eq_iff.mp h with ⟨-, h⟩ | ⟨herror, h⟩
  · cases h
  rcases ite_eq_iff.mp h with ⟨-, h⟩ | ⟨hroom, h⟩
  · cases h
  obtain rfl := Option.some.inj (Except.ok.inj h)
  obtain ⟨fields, hsets, hnil⟩ := HttpResponseParser.sets_execute hexec
  rw [htext] at hnil
  refine ⟨fields, fun headers => ?_, hnil⟩
  refine bind_eq_ok.mpr ⟨_, hsets headers, ?_⟩
  exact (if_neg herror).trans (if_neg hroom)

theorem sets_finish {y : Nat × Bytes × HttpResponseParser}
    {x : Nat × Bytes × HttpResponseParser × List Bytes}
    (h : (if y.2.2.isFinished then .ok (some (y.1, y.2.1, y.2.2, reads))
      else recvSize buffSize reads y.1 y.2.1 y.2.2) = .ok (some x))
    (hreads : recvSize buffSize reads y.1 y.2.1 y.2.2 = .ok (some x) →
      ∃ fields, Sets (recvSize buffSize reads y.1 y.2.1) y.2.2
          (fun s => some (x.1, x.2.1, s, x.2.2.2)) x.2.2.1 fields ∧
        (fields = [] ↔ ∀ text ∈ recvSizeTexts buffSize reads y.1 y.2.1 y.2.2,
          silent httpclientParserStart text = true)) :
    ∃ fields, Sets (fun s => if s.isFinished then .ok (some (y.1, y.2.1, s, reads))
          else recvSize buffSize reads y.1 y.2.1 s) y.2.2
        (fun s => some (x.1, x.2.1, s, x.2.2.2)) x.2.2.1 fields ∧
      (fields = [] ↔
        ∀ text ∈ if y.2.2.isFinished then [] else recvSizeTexts buffSize reads y.1 y.2.1 y.2.2,
          silent httpclientParserStart text = true) := by
  by_cases hfin : y.2.2.isFinished = true
  · obtain rfl := Option.some.inj (Except.ok.inj ((if_pos hfin).symm.trans h))
    refine ⟨[], fun headers => ?_, by simp [hfin]⟩
    exact if_pos hfin
  · obtain ⟨fields, hsets, hnil⟩ := hreads ((if_neg hfin).symm.trans h)
    refine ⟨fields, fun headers => ?_, by rw [hnil, if_neg hfin]⟩
    exact (if_neg hfin).trans (hsets headers)

theorem sets_recvSize {x : Nat × Bytes × HttpResponseParser × List Bytes}
    (h : recvSize buffSize reads length mem s = .ok (some x)) :
    ∃ fields, Sets (recvSize buffSize reads length mem) s
        (fun s => some (x.1, x.2.1, s, x.2.2.2)) x.2.2.1 fields ∧
      (fields = [] ↔ ∀ text ∈ recvSizeTexts buffSize reads length mem s,
        silent httpclientParserStart text = true) := by
  induction reads generalizing length mem s with
  | nil => cases h
  | cons c reads ih =>
    rw [recvSize] at h
    rcases ite_eq_iff.mp h with ⟨-, h⟩ | ⟨hguard, h⟩
    · cases h
    obtain ⟨r, hparse, h⟩ := bind_eq_ok.mp h
    cases r with
    | none => cases h
    | some y =>
      obtain ⟨fields, hsets, hnil⟩ := sets_parseSize hparse
      obtain ⟨more, hmore, hnil'⟩ := sets_finish h ih
      refine ⟨fields ++ more, fun headers => ?_, ?_⟩
      · rw [recvSize, if_neg hguard, Headers.setAll_append]
        exact bind_eq_ok.mpr ⟨_, hsets headers, hmore _⟩
      · rw [recvSizeTexts, hparse, List.append_eq_nil_iff, hnil, hnil', List.forall_mem_cons]

theorem sets_chunkSize {x : Nat × Bytes × HttpResponseParser × List Bytes}
    (h : chunkSize buffSize reads length mem s = .ok (some x)) :
    ∃ fields, Sets (chunkSize buffSize reads length mem) s
        (fun s => some (x.1, x.2.1, s, x.2.2.2)) x.2.2.1 fields ∧
      (fields = [] ↔ ∀ text ∈ chunkSizeTexts buffSize reads length mem s,
        silent httpclientParserStart text = true) := by
  unfold chunkSize at h
  unfold chunkSizeTexts
  by_cases hempty : length = 0
  · rw [if_pos hempty] at h ⊢
    obtain ⟨fields, hsets, hnil⟩ := sets_recvSize h
    refine ⟨fields, fun headers => ?_, hnil⟩
    exact (if_pos hempty).trans (hsets headers)
  · rw [if_neg hempty] at h ⊢
    obtain ⟨r, hparse, h⟩ := bind_eq_ok.mp h
    cases r with
    | none => cases h
    | some y =>
      obtain ⟨fields, hsets, hnil⟩ := sets_parseSize hparse
      obtain ⟨more, hmore, hnil'⟩ := sets_finish h sets_recvSize
      refine ⟨fields ++ more, fun headers => ?_, ?_⟩
      · rw [chunkSize, if_neg hempty, Headers.setAll_append]
        exact bind_eq_ok.mpr ⟨_, hsets headers, hmore _⟩
      · rw [hparse, List.append_eq_nil_iff, hnil, hnil', List.forall_mem_cons]

theorem sets_recvChunks {rounds : Nat} {body : Bytes} {x : HttpResponseParser × Bytes × List Bytes}
    (h : recvChunks buffSize rounds reads length mem s body = .ok (some x)) :
    ∃ fields, Sets (recvChunks buffSize rounds reads length mem · body) s
        (fun s => some (s, x.2)) x.1 fields ∧
      (fields = [] ↔ ∀ text ∈ recvChunksTexts buffSize rounds reads length mem s body,
        silent httpclientParserStart text = true) := by
  induction rounds generalizing reads length mem s body with
  | zero => cases h
  | succ rounds ih =>
    rw [recvChunks] at h
    obtain ⟨r, hsize, h⟩ := bind_eq_ok.mp h
    cases r with
    | none => cases h
    | some y =>
      obtain ⟨d, hdata, h⟩ := bind_eq_ok.mp h
      cases d with
      | none => cases h
      | some z =>
        obtain ⟨fields, hsets, hnil⟩ := sets_chunkSize hsize
        have htexts : recvChunksTexts buffSize (rounds + 1) reads length mem s body =
            chunkSizeTexts buffSize reads length mem s ++
              if y.2.2.1.parser.chunksDone then []
              else recvChunksTexts buffSize rounds z.2.2.2 z.1 z.2.1 y.2.2.1 z.2.2.1 := by
          rw [recvChunksTexts, hsize]
          dsimp only
          rw [hdata]
        by_cases hdone : y.2.2.1.parser.chunksDone = true
        · obtain rfl := Option.some.inj (Except.ok.inj ((if_pos hdone).symm.trans h))
          refine ⟨fields, fun headers => ?_, ?_⟩
          · dsimp only
            rw [recvChunks]
            refine bind_eq_ok.mpr ⟨_, hsets headers, bind_eq_ok.mpr ⟨_, hdata, ?_⟩⟩
            exact if_pos hdone
          · rw [htexts, if_pos hdone, List.append_nil]
            exact hnil
        · obtain ⟨more, hmore, hnil'⟩ := ih ((if_neg hdone).symm.trans h)
          refine ⟨fields ++ more, fun headers => ?_, ?_⟩
          · dsimp only
            rw [recvChunks, Headers.setAll_append]
            refine bind_eq_ok.mpr ⟨_, hsets headers, bind_eq_ok.mpr ⟨_, hdata, ?_⟩⟩
            exact (if_neg hdone).trans (hmore _)
          · rw [htexts, if_neg hdone, List.append_eq_nil_iff, hnil, hnil', List.forall_mem_append]

end Rounds

/-- The rest of a response after its head leaves the headers alone, whatever the head made them. -/
def KeepsHeaders (buffSize : Nat) (reads : List Bytes) (length : Nat) (mem : Bytes)
    (s : HttpResponseParser) : Prop :=
  ∀ headers resp left,
    ChunkLoop.response buffSize ⟨reads, length, mem, s.withHeaders headers, []⟩ =
      .ok (some (resp, left)) → resp.headers = headers

def sizeTexts (buffSize : Nat) (reads : List Bytes) (length : Nat) (mem : Bytes)
    (s : HttpResponseParser) : List Bytes :=
  recvChunksTexts buffSize (length + reads.flatten.length + 1) reads length mem s []

/-- The headers of a chunked response are determined by its head exactly when none of the texts
that are taken for size lines sets a field. -/
theorem keepsHeaders_iff (call : ResponseCall) (reads : List Bytes) {length : Nat} {mem : Bytes}
    {s : HttpResponseParser} {rest : List Bytes}
    (hhead : recvHead call.buffSize reads 0 call.memory call.parser =
      .ok (some (length, mem, s, rest)))
    (hchunked : s.parser.chunked = true) {resp : HttpResponse} {left : List Bytes}
    (hresp : call.recvResponse reads = .ok (some (resp, left))) :
    KeepsHeaders call.buffSize rest length mem s ↔
      ∀ text ∈ sizeTexts call.buffSize rest length mem s,
        silent httpclientParserStart text = true := by
  have hreached : call.Reached reads ⟨rest, length, mem, s, []⟩ :=
    ⟨length, mem, s, rest, hhead, hchunked, .refl⟩
  rw [hreached.response] at hresp
  obtain ⟨r, hchunks, hresp⟩ := bind_eq_ok.mp hresp
  cases r with
  | none => cases hresp
  | some x =>
    obtain ⟨fields, hsets, hnil⟩ := sets_recvChunks hchunks
    have hresponse : ∀ headers,
        ChunkLoop.response call.buffSize ⟨rest, length, mem, s.withHeaders headers, []⟩ =
          .ok (some ({ (x.1.withHeaders (headers.setAll fields)).data with body := x.2.1 },
            x.2.2)) := by
      intro headers
      exact bind_eq_ok.mpr ⟨_, hsets headers, rfl⟩
    unfold sizeTexts
    rw [← hnil]
    constructor
    · intro hkeeps
      have hempty := hkeeps [] _ _ (hresponse [])
      exact (Headers.setAll_nil_iff fields).mp hempty
    · rintro rfl headers resp' left' hresp'
      obtain ⟨rfl, -⟩ := Prod.mk.inj
        (Option.some.inj (Except.ok.inj ((hresponse headers).symm.trans hresp')))
      rfl

/-- The last chunk alone, after the head of a chunked response. -/
theorem keepsHeaders_iff_zero :
    ∃ m, recvHead tiny.buffSize [chunkedHead ++ zero.bytes] 0 tiny.memory tiny.parser =
        .ok (some (zero.bytes.length, zero.bytes ++ m, chunkedParsed, [])) ∧
      (KeepsHeaders tiny.buffSize [] zero.bytes.length (zero.bytes ++ m) chunkedParsed ↔
        ∀ text ∈ sizeTexts tiny.buffSize [] zero.bytes.length (zero.bytes ++ m) chunkedParsed,
          silent httpclientParserStart text = true) := by
  have hhead : tiny.Announces chunkedHead zero.bytes chunkedParsed :=
    ⟨by decide, by decide, by decide, by decide, by decide, by decide⟩
  obtain ⟨m, hm⟩ := hhead.recvHead_eq []
  have hresp : tiny.recvResponse [chunkedHead ++ zero.bytes] =
      .ok (some (chunkedParsed.data, [])) := by
    decide
  exact ⟨m, hm, keepsHeaders_iff tiny _ hm rfl hresp⟩

/-- The size line `0;a=b` adds a header `a` to the response. -/
theorem extension_adds_header :
    tiny.recvResponse [chunkedHead ++ ascii ['0', ';', 'a', '=', 'b', '\r', '\n', '\r', '\n']] =
      .ok (some ({ chunkedParsed.data with
        headers := (ascii ['a'], ascii ['b']) :: chunkedParsed.data.headers }, [])) ∧
    tiny.recvResponse [chunkedHead ++ zero.bytes] = .ok (some (chunkedParsed.data, [])) := by
  decide

end ResponseCall

end Sylar.Http
