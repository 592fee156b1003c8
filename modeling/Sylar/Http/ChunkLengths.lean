import Mathlib.Logic.Relation
import Sylar.Http.Chunks
import Sylar.Http.Pending

/-! The lengths in the loop over the chunks of a response. The size of a chunk goes through
a `long` into an `int` and is then added to, so it is the size that was sent only below
`2 ^ 31 - 2`; nothing in the loop rejects a larger one. -/
namespace Sylar.Http

open Lib Lib.Blocks
open Lib.Numerals (forall_byte)

namespace Client

variable {mem bs last : Bytes} {p cs : Nat} {t : UInt8} {arc : Arc} {s s' : HttpResponseParser}

def pastSize : List Nat := [3, 4, 5, 6, 7, httpclientParserFirstFinal]

def keepsLength (a : Action) : Bool := a != .chunk_size && a != .write_content_len

/-- A jump to a state after the digits, which ends the scan if that is the final one. -/
def staysPast (arc : Arc) : Bool :=
  pastSize.contains arc.target &&
    (arc.actions.contains .done == (arc.target == httpclientParserFirstFinal))

theorem next_pastSize : ∀ b : UInt8, pastSize.all fun cs =>
    (next cs b).all fun arc => staysPast arc && arc.actions.all keepsLength :=
  forall_byte (by decide +kernel)

theorem next_endSize : ∀ b : UInt8, 16 ≤ digitValue b → (next 2 b).all fun arc =>
    staysPast arc && arc.actions.head? == some .chunk_size && arc.actions.tail.all keepsLength &&
      b != 120 && b != 88 :=
  forall_byte (by decide +kernel)

theorem act_keepsLength {a : Action} (h : act mem p s a = .ok s') (ha : keepsLength a) :
    s'.parser.contentLen = s.parser.contentLen := by
  cases a with
  | chunk_size | write_content_len => cases ha
  | write_value =>
    rcases ite_eq_iff.mp h with ⟨-, h⟩ | ⟨-, h⟩
    · obtain rfl := Except.ok.inj h
      rfl
    · obtain ⟨key, -, h⟩ := bind_eq_ok.mp h
      obtain ⟨val, -, h⟩ := bind_eq_ok.mp h
      obtain rfl := Except.ok.inj h
      rfl
  | reason_phrase =>
    obtain ⟨text, -, h⟩ := bind_eq_ok.mp h
    obtain rfl := Except.ok.inj h
    rfl
  | http_version =>
    obtain rfl := Except.ok.inj h
    unfold onResponseVersion
    simp only
    split
    · rfl
    · split <;> rfl
  | mark | start_field | write_field | write_connection_close | status_code | trans_chunked
  | done =>
    obtain rfl := Except.ok.inj h
    rfl

theorem acts_keepLength {as : List Action} (h : as.foldlM (act mem p) s = .ok s')
    (has : as.all keepsLength) : s'.parser.contentLen = s.parser.contentLen := by
  induction as generalizing s with
  | nil =>
    obtain rfl := Except.ok.inj h
    rfl
  | cons a as ih =>
    rw [List.foldlM_cons] at h
    obtain ⟨s₁, h₁, h⟩ := bind_eq_ok.mp h
    rw [List.all_cons, Bool.and_eq_true] at has
    exact (ih h has.2).trans (act_keepsLength h₁ has.1)

theorem staysPast_iff : staysPast arc = true ↔ arc.target ∈ pastSize ∧
    (.done ∈ arc.actions ↔ arc.target = httpclientParserFirstFinal) := by
  rw [staysPast, Bool.and_eq_true, List.contains_iff_mem, beq_iff_eq, Bool.eq_iff_iff,
    List.contains_iff_mem, beq_iff_eq]

theorem scan_pastSize {x : Nat × Nat × HttpResponseParser} (h : scan mem p cs bs s = .ok x)
    (hcs : cs ∈ pastSize) (hne : cs ≠ httpclientParserFirstFinal) (hlast : last <+: bs)
    (hrun : run cs last = some httpclientParserFirstFinal) :
    x.2.1 = httpclientParserFirstFinal ∧ x.2.2.parser.contentLen = s.parser.contentLen := by
  induction last generalizing p cs bs s with
  | nil => exact absurd (Option.some.inj hrun) hne
  | cons b last ih =>
    obtain ⟨more, rfl⟩ := hlast
    obtain ⟨arc, hn, hrun⟩ := Option.bind_eq_some_iff.mp hrun
    have hrow := List.all_eq_true.mp (next_pastSize b) cs hcs
    rw [hn, Option.all_some, Bool.and_eq_true, staysPast_iff] at hrow
    obtain ⟨⟨htarget, hdone⟩, hkeep⟩ := hrow
    rw [List.cons_append, scan, hn] at h
    obtain ⟨s₁, h₁, h⟩ := bind_eq_ok.mp h
    have hlen := acts_keepLength h₁ hkeep
    rcases ite_eq_iff.mp h with ⟨hd, h⟩ | ⟨hd, h⟩
    · obtain rfl := Except.ok.inj h
      exact ⟨hdone.mp hd, hlen⟩
    · obtain ⟨hfinal, hlen'⟩ := ih h htarget (mt hdone.mpr hd) ⟨more, rfl⟩ hrun
      exact ⟨hfinal, hlen'.trans hlen⟩

theorem scan_endSize {x : Nat × Nat × HttpResponseParser} (h : scan mem p 2 (t :: bs) s = .ok x)
    (ht : 16 ≤ digitValue t) (hlast : last <+: bs)
    (hrun : run 2 (t :: last) = some httpclientParserFirstFinal) :
    (t ≠ 120 ∧ t ≠ 88) ∧ x.2.1 = httpclientParserFirstFinal ∧
      x.2.2.parser.contentLen = toInt (strtol 16 (mem.drop s.parser.mark)) := by
  obtain ⟨arc, hn, hrun⟩ := Option.bind_eq_some_iff.mp hrun
  have hrow := next_endSize t ht
  simp only [hn, Option.all_some, Bool.and_eq_true, staysPast_iff, beq_iff_eq, bne_iff_ne] at hrow
  obtain ⟨⟨⟨⟨⟨htarget, hdone⟩, hfirst⟩, hkeep⟩, h120⟩, h88⟩ := hrow
  obtain ⟨more, hacts⟩ := List.head?_eq_some_iff.mp hfirst
  rw [hacts, List.tail_cons] at hkeep
  rw [scan, hn] at h
  obtain ⟨s₁, h₁, h⟩ := bind_eq_ok.mp h
  rw [hacts, List.foldlM_cons] at h₁
  have hlen : s₁.parser.contentLen = toInt (strtol 16 (mem.drop s.parser.mark)) :=
    acts_keepLength h₁ hkeep
  refine ⟨⟨h120, h88⟩, ?_⟩
  rcases ite_eq_iff.mp h with ⟨hd, h⟩ | ⟨hd, h⟩
  · obtain rfl := Except.ok.inj h
    exact ⟨hdone.mp hd, hlen⟩
  · obtain ⟨hfinal, hlen'⟩ := scan_pastSize h htarget (mt hdone.mpr hd) hlast hrun
    exact ⟨hfinal, hlen'.trans hlen⟩

theorem run_digits {ds : Bytes} (bs : Bytes) (h : ∀ b ∈ ds, digitValue b < 16) :
    run 2 (ds ++ bs) = run 2 bs := by
  induction ds with
  | nil => rfl
  | cons d ds ih =>
    rw [List.cons_append, run, next_digit d (h d List.mem_cons_self), Option.bind_some]
    exact ih fun b hb => h b (List.mem_cons_of_mem _ hb)

theorem run_size {d : UInt8} {ds : Bytes} (bs : Bytes) (h : ∀ b ∈ d :: ds, digitValue b < 16) :
    run httpclientParserStart (d :: ds ++ bs) = run 2 bs := by
  rw [List.cons_append, run, next_start d (h d List.mem_cons_self), Option.bind_some]
  exact run_digits bs fun b hb => h b (List.mem_cons_of_mem _ hb)

theorem size_split {line : Bytes} (hdigit : line.head?.any (digitValue · < 16))
    (hrun : run httpclientParserStart line = some httpclientParserFirstFinal) :
    ∃ ds t last, line = ds ++ t :: last ∧ ds ≠ [] ∧ (∀ b ∈ ds, digitValue b < 16) ∧
      16 ≤ digitValue t ∧ run 2 (t :: last) = some httpclientParserFirstFinal := by
  obtain ⟨d, line, rfl⟩ : ∃ d l, line = d :: l := by
    cases line with
    | nil => cases hdigit
    | cons d l => exact ⟨d, l, rfl⟩
  have hd : digitValue d < 16 := of_decide_eq_true hdigit
  obtain ⟨ds, rest, rfl, hds, hrest⟩ : ∃ ds rest, line = ds ++ rest ∧
      (∀ b ∈ ds, digitValue b < 16) ∧ ∀ t ∈ rest.head?, 16 ≤ digitValue t := by
    refine ⟨line.takeWhile (digitValue · < 16), line.dropWhile (digitValue · < 16),
      List.takeWhile_append_dropWhile.symm, ?_, ?_⟩
    · intro b hb
      simpa using List.mem_takeWhile_imp hb
    · intro t ht
      have := List.head?_dropWhile_not (digitValue · < 16) line
      rw [Option.mem_def.mp ht] at this
      exact Nat.le_of_not_lt (of_decide_eq_false this)
  have hhex : ∀ b ∈ d :: ds, digitValue b < 16 := List.forall_mem_cons.mpr ⟨hd, hds⟩
  rw [← List.cons_append, run_size rest hhex] at hrun
  cases rest with
  | nil => exact absurd (Option.some.inj hrun) (by decide)
  | cons t last =>
    exact ⟨d :: ds, t, last, rfl, List.cons_ne_nil d ds, hhex, hrest t rfl, hrun⟩

end Client

namespace ResponseCall

open Client (httpclientParserStart httpclientParserFirstFinal)

section Size

variable {buffSize : Nat} {c m ds last extra : Bytes} {t : UInt8} {s : HttpResponseParser}

theorem parseSize_whole {y : Nat × Bytes × HttpResponseParser} (hc : c = ds ++ t :: (last ++ extra))
    (hne : ds ≠ []) (hds : ∀ b ∈ ds, digitValue b < 16) (ht : 16 ≤ digitValue t)
    (hrun : Client.run 2 (t :: last) = some httpclientParserFirstFinal)
    (h : parseSize buffSize c.length (c ++ m) s = .ok (some y)) :
    y.2.2.isFinished ∧
      y.2.2.parser.contentLen = toInt (min (hexValue ds : Int) (2 ^ 63 - 1)) := by
  obtain ⟨x, hexec, -, rfl⟩ := parseSize_some h
  rw [overwrite_null] at hexec
  obtain ⟨p, cs, s₁, hscan, -, rfl⟩ := HttpResponseParser.execute_scanned hexec (.inl rfl)
  simp only [if_true, List.take_left] at hscan
  obtain ⟨d, ds, rfl⟩ := List.exists_cons_of_ne_nil hne
  subst hc
  rw [scan_size _ (hds d List.mem_cons_self) fun b hb => hds b (List.mem_cons_of_mem _ hb)] at hscan
  obtain ⟨hx, hfinal, hlen⟩ := Client.scan_endSize hscan ht (List.prefix_append _ _) hrun
  refine ⟨beq_iff_eq.mpr hfinal, ?_⟩
  -- the digits stand at the front of the buffer
  have hmark : (Client.marked s.anew.rewind).parser.mark = 0 := rfl
  have hfront : d :: ds ++ t :: (last ++ extra) ++ 0 :: m.drop 1 =
      d :: ds ++ t :: (last ++ extra ++ 0 :: m.drop 1) := List.append_assoc _ _ _
  rw [hmark, List.drop_zero, hfront, strtol_hex hne hds ht hx] at hlen
  exact hlen

theorem chunkSize_whole {zeros rest reads : List Bytes}
    {x : Nat × Bytes × HttpResponseParser × List Bytes}
    (hin : zeros ++ (ds ++ t :: last ++ extra) :: rest = c :: reads)
    (hzeros : ∀ z ∈ zeros, z ≠ [] ∧ ∀ b ∈ z, b = 48) (hfit : c.length ≤ buffSize)
    (hne : ds ≠ []) (hds : ∀ b ∈ ds, digitValue b < 16) (ht : 16 ≤ digitValue t)
    (hrun : Client.run 2 (t :: last) = some httpclientParserFirstFinal) (herr : s.error = 0)
    (h : chunkSize buffSize reads c.length (c ++ m) s = .ok (some x)) :
    x.2.2.1.parser.contentLen = toInt (min (hexValue ds : Int) (2 ^ 63 - 1)) := by
  induction zeros generalizing c m reads s with
  | nil =>
    obtain ⟨rfl, rfl⟩ := List.cons.inj hin
    have hc : ds ++ t :: last ++ extra ≠ [] := by simp
    obtain ⟨y, hparse, -⟩ := (chunkSize_some h).resolve_left fun hzero =>
      hc (List.length_eq_zero_iff.mp hzero.1)
    obtain ⟨hfin, hlen⟩ :=
      parseSize_whole (List.append_assoc ds (t :: last) extra) hne hds ht hrun hparse
    rw [chunkSize_finished hc hparse hfin] at h
    obtain rfl := Option.some.inj (Except.ok.inj h)
    exact hlen
  | cons z zeros ih =>
    rw [List.cons_append] at hin
    obtain ⟨rfl, rfl⟩ := List.cons.inj hin
    obtain ⟨hz, hzero⟩ := hzeros z List.mem_cons_self
    obtain ⟨d, ds', rfl⟩ := List.exists_cons_of_ne_nil hz
    have hhex : ∀ b ∈ d :: ds', digitValue b < 16 := by
      intro b hb
      rw [hzero b hb]
      decide
    obtain ⟨m', s', hparse, hfin, -, herr'⟩ := parseSize_digits (m := m) hfit herr
      (hhex d List.mem_cons_self) (fun b hb => hhex b (List.mem_cons_of_mem _ hb)) (.inl rfl)
    rw [chunkSize_unfinished hz hparse hfin] at h
    -- the next round reads what follows into an empty buffer
    obtain ⟨c', reads', hin'⟩ : ∃ c' reads', zeros ++ (ds ++ t :: last ++ extra) :: rest =
        c' :: reads' := List.exists_cons_of_ne_nil (by simp)
    rw [hin'] at h
    obtain ⟨hc', hroom, -⟩ := recvSize_some h
    have hfit' : c'.length ≤ buffSize := hroom
    rw [recvSize_cons hc' hfit'] at h
    exact ih hin' (fun z hz => hzeros z (List.mem_cons_of_mem _ hz)) hfit' herr' h

end Size

section Fill

variable {buffSize length : Nat} {mem body : Bytes} {reads : List Bytes} {s : HttpResponseParser}

theorem parseSize_holds {y : Nat × Bytes × HttpResponseParser} (hheld : Holds buffSize length mem)
    (h : parseSize buffSize length mem s = .ok (some y)) :
    Holds buffSize y.1 y.2.1 ∧ y.2.2.error = 0 := by
  obtain ⟨x, hexec, herror, rfl⟩ := parseSize_some h
  obtain ⟨-, -, hheld', -⟩ :=
    HttpResponseParser.execute_taken hheld.null.1 hexec (.inl rfl) herror
  exact ⟨hheld', (HttpResponseParser.hasError_eq_false herror).1⟩

theorem recvSize_holds {x : Nat × Bytes × HttpResponseParser × List Bytes}
    (hheld : Holds buffSize length mem)
    (h : recvSize buffSize reads length mem s = .ok (some x)) :
    Holds buffSize x.1 x.2.1 ∧ x.2.2.1.error = 0 := by
  induction reads generalizing length mem s with
  | nil => cases h
  | cons c reads ih =>
    obtain ⟨-, hfit, y, hparse, hrest⟩ := recvSize_some h
    obtain ⟨hheld', herr⟩ := parseSize_holds (hheld.read hfit) hparse
    rcases hrest with ⟨-, rfl⟩ | hrest
    · exact ⟨hheld', herr⟩
    · exact ih hheld' hrest

theorem chunkSize_holds {x : Nat × Bytes × HttpResponseParser × List Bytes}
    (hheld : Holds buffSize length mem)
    (h : chunkSize buffSize reads length mem s = .ok (some x)) :
    Holds buffSize x.1 x.2.1 ∧ x.2.2.1.error = 0 := by
  rcases chunkSize_some h with ⟨-, h⟩ | ⟨y, hparse, hrest⟩
  · exact recvSize_holds hheld h
  obtain ⟨hheld', herr⟩ := parseSize_holds hheld hparse
  rcases hrest with ⟨-, rfl⟩ | hrest
  · exact ⟨hheld', herr⟩
  · exact recvSize_holds hheld' hrest

theorem recvLeft_length {left : Nat} {x : Bytes × Bytes × List Bytes}
    (hroom : buffSize ≤ mem.length) (h : recvLeft buffSize reads left mem body = some x) :
    x.1.length = mem.length ∧ x.2.1.length = body.length + left := by
  induction reads generalizing left mem body with
  | nil =>
    cases left with
    | zero =>
      obtain rfl := Option.some.inj h
      exact ⟨rfl, rfl⟩
    | succ left => cases h
  | cons c reads ih =>
    cases left with
    | zero =>
      obtain rfl := Option.some.inj h
      exact ⟨rfl, rfl⟩
    | succ left =>
      obtain ⟨hguard, h⟩ := Option.ite_none_left_eq_some.mp h
      have hfit : c.length ≤ min (left + 1) buffSize := Nat.le_of_not_lt (not_or.mp hguard).2
      have hmem : (overwrite mem 0 c).length = mem.length := length_overwrite _ _ _ (by omega)
      obtain ⟨hlen, hbody⟩ := ih (by omega) h
      refine ⟨hlen.trans hmem, ?_⟩
      rw [hbody, List.length_append]
      omega

theorem chunkData_holds {contentLen : Int} {x : Nat × Bytes × Bytes × List Bytes}
    (hheld : Holds buffSize length mem)
    (h : chunkData buffSize reads length mem contentLen body = .ok (some x)) :
    Holds buffSize x.1 x.2.1 := by
  have hfits := hheld.fits
  have hroom := hheld.room
  rcases chunkData_some h with ⟨text, rfl⟩ | ⟨z, hleft, rfl⟩
  · refine ⟨(Nat.sub_le _ _).trans hfits, ?_⟩
    rw [length_overwrite]
    · exact hroom
    · rw [List.length_take, List.length_drop]
      omega
  · obtain ⟨hlen, -⟩ := recvLeft_length (by omega) hleft
    exact ⟨Nat.zero_le _, hlen ▸ hroom⟩

theorem chunkData_ne_error {n : Nat} (hheld : Holds buffSize length mem) (hn : n < 2 ^ 31 - 2)
    (e : Fault) : chunkData buffSize reads length mem n body ≠ .error e := by
  have hroom := hheld.le
  have hsum : toInt ((n : Int) + 2) = n + 2 := by
    exact_mod_cast toInt_small (by omega : n + 2 < 2 ^ 31)
  rw [chunkData, hsum]
  split
  · have hsize : ((n : Int) % 2 ^ 64).toNat = n := by omega
    rw [hsize, stdString, if_neg (by omega), if_pos (by omega)]
    exact fun h => by cases h
  · split
    · exact fun h => by cases h
    · rename_i hleft
      obtain ⟨-, hbody⟩ := recvLeft_length (by have := hheld.room; omega) hleft
      simp only [List.length_append, List.length_take] at hbody
      rw [if_neg (by omega)]
      exact fun h => by cases h

end Fill

structure ChunkLoop where
  reads : List Bytes
  length : Nat
  mem : Bytes
  parser : HttpResponseParser
  body : Bytes

inductive NextRound (buffSize : Nat) (l : ChunkLoop) : ChunkLoop → Prop where
  | mk {x : Nat × Bytes × HttpResponseParser × List Bytes} {y : Nat × Bytes × Bytes × List Bytes}
    (hsize : chunkSize buffSize l.reads l.length l.mem l.parser = .ok (some x))
    (hdata : chunkData buffSize x.2.2.2 x.1 x.2.1 x.2.2.1.parser.contentLen l.body = .ok (some y))
    (hmore : x.2.2.1.parser.chunksDone = false) :
    NextRound buffSize l ⟨y.2.2.2, y.1, y.2.1, x.2.2.1, y.2.2.1⟩

/-- A round that a call comes to after the head of a chunked response. -/
def Reached (call : ResponseCall) (reads : List Bytes) (l : ChunkLoop) : Prop :=
  ∃ offset mem s left, recvHead call.buffSize reads 0 call.memory call.parser =
      .ok (some (offset, mem, s, left)) ∧ s.parser.chunked = true ∧
    Relation.ReflTransGen (NextRound call.buffSize) ⟨left, offset, mem, s, []⟩ l

def ChunkLoop.response (buffSize : Nat) (l : ChunkLoop) :
    Except Fault (Option (HttpResponse × List Bytes)) := do
  match ← recvChunks buffSize (l.length + l.reads.flatten.length + 1) l.reads l.length l.mem
      l.parser l.body with
  | none => return none
  | some (s, body, reads) => return some ({ s.data with body }, reads)

/-- The size line `line` comes in one piece, but for reads of zeros before it. -/
def ChunkLoop.Whole (l : ChunkLoop) (line : Bytes) : Prop :=
  ∃ zeros last extra rest,
    Chunk.buffered (l.mem.take l.length) l.reads = zeros ++ (last ++ extra) :: rest ∧
    line = zeros.flatten ++ last ∧ (∀ z ∈ zeros, z ≠ [] ∧ ∀ b ∈ z, b = 48) ∧
    Client.run httpclientParserStart last = some httpclientParserFirstFinal ∧
    Client.run httpclientParserStart line = some httpclientParserFirstFinal

/-- The lengths that a round uses after the size line `line`, with `length` bytes in the
buffer: the size is that of the line, neither sum overflows an `int`, and `append` and
`memmove` keep to the bytes in the buffer. -/
structure InRange (buffSize : Nat) (line : Bytes) (length : Nat) (contentLen : Int) : Prop where
  digit : line.head?.any (digitValue · < 16) = true
  size : contentLen = numeral 16 line
  sum : contentLen + 2 < 2 ^ 31
  left : -2 ^ 31 ≤ contentLen - length + 2 ∧ contentLen - length + 2 < 2 ^ 31
  filled : length ≤ buffSize
  append : toInt (contentLen + 2) ≤ length → (contentLen % 2 ^ 64).toNat ≤ length
  move : toInt (contentLen + 2) ≤ length → 0 ≤ contentLen + 2 ∧
    (contentLen + 2).toNat + (((length : Int) - contentLen - 2) % 2 ^ 64).toNat ≤ length

/-- A chunk size that an `int` takes with two bytes more. -/
def Fits (line : Bytes) : Prop :=
  line.head?.any (digitValue · < 16) = true ∧ numeral 16 line < 2 ^ 31 - 2

theorem next_digit_of_both : ∀ b : UInt8, (Client.next httpclientParserStart b).isSome →
    (Client.next 2 b).isSome → digitValue b < 16 :=
  forall_byte (by decide +kernel)

theorem last_digit {zs last : Bytes} (hzs : ∀ b ∈ zs, b = 48)
    (hdigit : (zs ++ last).head?.any (digitValue · < 16) = true)
    (hlast : Client.run httpclientParserStart last = some httpclientParserFirstFinal)
    (hline : Client.run httpclientParserStart (zs ++ last) = some httpclientParserFirstFinal) :
    last.head?.any (digitValue · < 16) = true := by
  cases zs with
  | nil => exact hdigit
  | cons z zs =>
    have hhex : ∀ b ∈ z :: zs, digitValue b < 16 := by
      intro b hb
      rw [hzs b hb]
      decide
    rw [Client.run_size last hhex] at hline
    cases last with
    | nil => exact absurd (Option.some.inj hlast) (by decide)
    | cons b last =>
      obtain ⟨_, hstart, -⟩ := Option.bind_eq_some_iff.mp hlast
      obtain ⟨_, hsecond, -⟩ := Option.bind_eq_some_iff.mp hline
      exact decide_eq_true (next_digit_of_both b (Option.isSome_of_eq_some hstart)
        (Option.isSome_of_eq_some hsecond))

section Rounds

variable {call : ResponseCall} {reads : List Bytes} {l l' : ChunkLoop} {buffSize : Nat}

theorem NextRound.response (h : NextRound buffSize l l') :
    l.response buffSize = l'.response buffSize := by
  cases h with
  | @mk x y hsize hdata hmore =>
    have hmoves := Nat.lt_of_le_of_lt (chunkData_moves hdata) (chunkSize_moves hsize)
    have hround : recvChunks buffSize (l.length + l.reads.flatten.length + 1) l.reads l.length l.mem
        l.parser l.body =
        recvChunks buffSize (y.1 + y.2.2.2.flatten.length + 1) y.2.2.2 y.1 y.2.1 x.2.2.1
          y.2.2.1 := by
      rw [recvChunks, hsize]
      simp only [bind, Except.bind, hdata, hmore, Bool.false_eq_true, if_false]
      exact recvChunks_rounds hmoves (Nat.lt_succ_self _)
    rw [ChunkLoop.response, hround]
    rfl

theorem Reached.response (h : call.Reached reads l) :
    call.recvResponse reads = l.response call.buffSize := by
  obtain ⟨offset, mem, s, left, hhead, hchunked, hrounds⟩ := h
  have hstart : call.recvResponse reads =
      ChunkLoop.response call.buffSize ⟨left, offset, mem, s, []⟩ := by
    simp only [recvResponse, hhead, bind, Except.bind, hchunked, if_true]
    rfl
  rw [hstart]
  induction hrounds with
  | refl => rfl
  | tail _ hround ih => exact ih.trans hround.response

theorem Reached.holds (h : call.Reached reads l) :
    Holds call.buffSize l.length l.mem ∧ l.parser.error = 0 := by
  obtain ⟨offset, mem, s, left, hhead, -, hrounds⟩ := h
  obtain ⟨hheld, herror, -⟩ := call.head_taken hhead
  induction hrounds with
  | refl => exact ⟨hheld, (HttpResponseParser.hasError_eq_false herror).1⟩
  | tail _ hround ih =>
    cases hround with
    | mk hsize hdata _ =>
      obtain ⟨hheld₁, herr₁⟩ := chunkSize_holds ih.1 hsize
      exact ⟨chunkData_holds hheld₁ hdata, herr₁⟩

theorem chunkSize_first {c m buf : Bytes} {reads' : List Bytes} {s : HttpResponseParser}
    {x : Nat × Bytes × HttpResponseParser × List Bytes} (hfits : buf.length ≤ buffSize)
    (hin : Chunk.buffered buf reads = c :: reads')
    (h : chunkSize buffSize reads buf.length (buf ++ m) s = .ok (some x)) :
    ∃ m', c.length ≤ buffSize ∧
      chunkSize buffSize reads' c.length (c ++ m') s = .ok (some x) := by
  have hc : c ≠ [] ∧ c.length ≤ buffSize := by
    rw [Chunk.buffered] at hin
    split at hin
    · rename_i hbuf
      rw [hbuf, hin, chunkSize, if_pos List.length_nil] at h
      obtain ⟨hc, hfit, -⟩ := recvSize_some h
      exact ⟨hc, hfit⟩
    · rename_i hbuf
      obtain ⟨rfl, -⟩ := List.cons.inj hin
      exact ⟨hbuf, hfits⟩
  obtain ⟨m', hsame⟩ := chunkSize_buffered (m := m) (s := s) hin hc.1 hc.2
  exact ⟨m', hc.2, hsame ▸ h⟩

theorem ChunkLoop.Whole.contentLen {line : Bytes}
    {x : Nat × Bytes × HttpResponseParser × List Bytes} (hwhole : l.Whole line) (hfits : Fits line)
    (hheld : Holds buffSize l.length l.mem) (herr : l.parser.error = 0)
    (h : chunkSize buffSize l.reads l.length l.mem l.parser = .ok (some x)) :
    x.2.2.1.parser.contentLen = numeral 16 line := by
  obtain ⟨zeros, last, extra, rest, hin, rfl, hzeros, hlast, hline⟩ := hwhole
  have hzero : ∀ b ∈ zeros.flatten, b = 48 := by
    intro b hb
    obtain ⟨z, hz, hb⟩ := List.mem_flatten.mp hb
    exact (hzeros z hz).2 b hb
  have hdigit := last_digit hzero hfits.1 hlast hline
  obtain ⟨ds, t, tail, rfl, hne, hds, ht, hrun⟩ := Client.size_split hdigit hlast
  -- the first of the pieces is what the first round parses
  obtain ⟨c, reads', hpieces⟩ : ∃ c reads', zeros ++ (ds ++ t :: tail ++ extra) :: rest =
      c :: reads' := List.exists_cons_of_ne_nil (by simp)
  have hlen : (l.mem.take l.length).length = l.length := List.length_take_of_le hheld.le
  have hstart : chunkSize buffSize l.reads (l.mem.take l.length).length
      (l.mem.take l.length ++ l.mem.drop l.length) l.parser = .ok (some x) := by
    rw [hlen, List.take_append_drop]
    exact h
  obtain ⟨m', hfit, hsize⟩ :=
    chunkSize_first (hlen.symm ▸ hheld.fits) (hin.trans hpieces) hstart
  have hread := chunkSize_whole hpieces hzeros hfit hne hds ht hrun herr hsize
  have hvalue : numeral 16 (zeros.flatten ++ (ds ++ t :: tail)) = hexValue ds := by
    have hhex : ∀ b ∈ zeros.flatten ++ ds, digitValue b < 16 := by
      intro b hb
      rcases List.mem_append.mp hb with hb | hb
      · rw [hzero b hb]
        decide
      · exact hds b hb
    rw [← List.append_assoc, numeral_digits hhex ht, ← hexValue, hexValue_zeros hzero]
  have hlt : hexValue ds < 2 ^ 31 - 2 := hvalue ▸ hfits.2
  rw [hread, hvalue, min_eq_left (by omega), toInt_small (by omega)]

end Rounds

/-- In every round of the loop over the chunks, after a size line that comes in one piece:
the lengths are in range if and only if there is a size and it is below `2 ^ 31 - 2`. A
round with such a size takes its data without an exception. -/
theorem chunk_lengths_iff (call : ResponseCall) (reads : List Bytes) (l : ChunkLoop)
    (hreached : call.Reached reads l) (line : Bytes) (hwhole : l.Whole line) (length : Nat)
    (mem : Bytes) (s : HttpResponseParser) (left : List Bytes)
    (hsize : chunkSize call.buffSize l.reads l.length l.mem l.parser =
      .ok (some (length, mem, s, left))) :
    call.recvResponse reads = l.response call.buffSize ∧
    (InRange call.buffSize line length s.parser.contentLen ↔ Fits line) ∧
    (Fits line → ∀ e, chunkData call.buffSize left length mem s.parser.contentLen l.body ≠
      .error e) := by
  obtain ⟨hheld, herr⟩ := hreached.holds
  obtain ⟨hheld', -⟩ := chunkSize_holds hheld hsize
  have hread : Fits line → s.parser.contentLen = numeral 16 line := fun hfits =>
    hwhole.contentLen hfits hheld herr hsize
  refine ⟨hreached.response, ⟨fun hrange => ⟨hrange.digit, ?_⟩, fun hfits => ?_⟩, fun hfits => ?_⟩
  · have hsum := hrange.sum
    rw [hrange.size] at hsum
    omega
  · have hlt := hfits.2
    have hfilled : length ≤ call.buffSize := hheld'.fits
    have hint := call.int
    have hsum : toInt ((numeral 16 line : Int) + 2) = numeral 16 line + 2 := by
      exact_mod_cast toInt_small (by omega : numeral 16 line + 2 < 2 ^ 31)
    rw [hread hfits]
    refine ⟨hfits.1, rfl, by omega, by omega, hfilled, fun hle => ?_, fun hle => ?_⟩
    · rw [hsum] at hle
      omega
    · rw [hsum] at hle
      omega
  · rw [hread hfits]
    exact chunkData_ne_error hheld' hfits.2

def sixteenRead : Bytes := sixteen.bytes ++ zero.bytes

def sixteenBuffer : Bytes :=
  overwrite (overwrite (overwrite tiny.memory 0 (chunkedHead ++ sixteenRead)) 74 [0]) 0 sixteenRead

theorem chunk_lengths_iff_sixteen : InRange tiny.buffSize sixteen.line 23 16 := by
  have hreached : tiny.Reached [chunkedHead ++ sixteenRead]
      ⟨[], 28, sixteenBuffer, chunkedParsed, []⟩ :=
    ⟨28, sixteenBuffer, chunkedParsed, [], by decide +kernel, rfl, .refl⟩
  have hwhole : ChunkLoop.Whole ⟨[], 28, sixteenBuffer, chunkedParsed, []⟩ sixteen.line :=
    ⟨[], sixteen.line, sixteen.data ++ [13, 10] ++ zero.bytes, [], by decide +kernel, rfl, by simp,
      by decide +kernel, by decide +kernel⟩
  have hiff := (chunk_lengths_iff tiny [chunkedHead ++ sixteenRead] _ hreached sixteen.line hwhole
    23 (overwrite (overwrite sixteenBuffer 28 [0]) 0 (sixteenRead.drop 5))
    { chunkedParsed with
      parser :=
        { HttpclientParser.init 200 with
          cs := 120, bodyStart := 5, contentLen := 16, chunked := true, nread := 5 } }
    [] (by decide +kernel)).2.1
  exact hiff.mpr ⟨by decide, by decide⟩

/-- A size of `2 ^ 32 - 1` is taken for `-1` and throws, and one of `2 ^ 32 + 1` is taken for
one byte. -/
theorem large_size_not_rejected :
    numeral 16 (ascii ['F', 'F', 'F', 'F', 'F', 'F', 'F', 'F', '\r', '\n']) = 2 ^ 32 - 1 ∧
    tiny.recvResponse [chunkedHead ++
        ascii ['F', 'F', 'F', 'F', 'F', 'F', 'F', 'F', '\r', '\n', 'x']] =
      .error .lengthError ∧
    numeral 16 (ascii ['1', '0', '0', '0', '0', '0', '0', '0', '1', '\r', '\n']) = 2 ^ 32 + 1 ∧
    tiny.recvResponse [chunkedHead ++
        ascii ['1', '0', '0', '0', '0', '0', '0', '0', '1', '\r', '\n', 'x', '\r', '\n'] ++
        zero.bytes] =
      .ok (some ({ chunkedParsed.data with body := ascii ['x'] }, [])) := by
  decide +kernel

end ResponseCall

end Sylar.Http
