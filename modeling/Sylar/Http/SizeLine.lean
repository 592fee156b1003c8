import Sylar.Http.Response
import Sylar.Lib.Numerals
import Sylar.Lib.Pieces
import Sylar.Lib.Run

/-! The size line of a chunk. Every call of `execute` for a chunk starts the parser
anew, and what it has parsed leaves the buffer: the digits before a cut inside a size
line are lost. A cut does no harm where all of them are zeros and a digit follows; a
cut right before the return or the line feed ends the call. -/
namespace Sylar.Http

open Lib Lib.Blocks Lib.Pieces
open Lib.Numerals (forall_byte foldl_digits)

def hexValue (ds : Bytes) : Nat := Nat.ofDigits 16 (ds.map digitValue).reverse

section Numbers

variable {b : UInt8} {ds g : Bytes}

theorem hex_plain : ∀ b : UInt8, digitValue b < 16 → isspace b = false ∧ b ≠ 45 ∧ b ≠ 43 ∧
    b ≠ 120 ∧ b ≠ 88 := by
  exact forall_byte (by decide +kernel)

theorem hexValue_zeros {zs : Bytes} (h : ∀ z ∈ zs, z = 48) (ds : Bytes) :
    hexValue (zs ++ ds) = hexValue ds := by
  induction zs with
  | nil => rfl
  | cons z zs ih =>
    obtain rfl := h z List.mem_cons_self
    rw [← ih fun z hz => h z (List.mem_cons_of_mem _ hz)]
    exact Nat.ofDigits_reverse_zero_cons ((zs ++ ds).map digitValue)

theorem sign_plain (h₁ : b ≠ 45) (h₂ : b ≠ 43) : sign (b :: g) = (false, b :: g) := by
  unfold sign
  split <;> simp_all

theorem numeral_digits {base : Nat} (hds : ∀ b ∈ ds, digitValue b < base)
    (hb : base ≤ digitValue b) :
    numeral base (ds ++ b :: g) = Nat.ofDigits base (ds.map digitValue).reverse := by
  have htake : ((ds ++ b :: g).map digitValue).takeWhile (· < base) = ds.map digitValue := by
    rw [List.map_append, List.takeWhile_append_of_pos, List.map_cons,
      List.takeWhile_cons_of_neg (by simpa using hb), List.append_nil]
    intro n hn
    obtain ⟨b, hb, rfl⟩ := List.mem_map.mp hn
    exact decide_eq_true (hds b hb)
  rw [numeral, htake, foldl_digits]

theorem strtol_digits {base : Nat} (hbase : base ≤ 16) (hne : ds ≠ [])
    (hds : ∀ b ∈ ds, digitValue b < base) (hb : base ≤ digitValue b)
    (hskip : skipHex base (ds ++ b :: g) = ds ++ b :: g) :
    strtol base (ds ++ b :: g) =
      min ((Nat.ofDigits base (ds.map digitValue).reverse : Nat) : Int) (2 ^ 63 - 1) := by
  obtain ⟨d, ds, rfl⟩ := List.exists_cons_of_ne_nil hne
  obtain ⟨hspace, h45, h43, -⟩ := hex_plain d ((hds d List.mem_cons_self).trans_le hbase)
  have hdrop : (d :: ds ++ b :: g).dropWhile isspace = d :: ds ++ b :: g := by
    rw [List.cons_append, List.dropWhile_cons_of_neg (by simp [hspace])]
  have hsign : sign (d :: ds ++ b :: g) = (false, d :: ds ++ b :: g) := sign_plain h45 h43
  simp only [strtol, hdrop, hsign, hskip, numeral_digits hds hb, Bool.false_eq_true, if_false]

theorem skipHex_plain {x : UInt8} (h₁ : x ≠ 120) (h₂ : x ≠ 88) :
    skipHex 16 (b :: x :: g) = b :: x :: g := by
  unfold skipHex
  split
  · simp_all
  · rfl

theorem strtol_hex (hne : ds ≠ []) (hhex : ∀ b ∈ ds, digitValue b < 16)
    (hb : 16 ≤ digitValue b) (hx : b ≠ 120 ∧ b ≠ 88) :
    strtol 16 (ds ++ b :: g) = min (hexValue ds : Int) (2 ^ 63 - 1) := by
  apply strtol_digits le_rfl hne hhex hb
  obtain ⟨d, ds, rfl⟩ := List.exists_cons_of_ne_nil hne
  cases ds with
  | nil => exact skipHex_plain hx.1 hx.2
  | cons x ds =>
    obtain ⟨-, -, -, h120, h88⟩ := hex_plain x (hhex x (by simp))
    exact skipHex_plain h120 h88

theorem toInt_small {n : Nat} (h : n < 2 ^ 31) : toInt n = n := by
  rw [toInt, Int.bmod_eq_of_le] <;> omega

end Numbers

namespace Client

section Scan

variable {mem ds bs : Bytes} {p cs n : Nat} {b : UInt8} {s : HttpResponseParser}

theorem next_start : ∀ b, digitValue b < 16 → next httpclientParserStart b = some Arc.tr0 :=
  forall_byte (by decide +kernel)

theorem next_digit : ∀ b, digitValue b < 16 → next 2 b = some (Arc.st 2) :=
  forall_byte (by decide +kernel)

def marked (s : HttpResponseParser) : HttpResponseParser :=
  { s with parser := { s.parser with mark := 0 } }

def sized (mem : Bytes) (s : HttpResponseParser) : HttpResponseParser :=
  let contentLen := toInt (strtol 16 (mem.drop s.parser.mark))
  { s with parser := { s.parser with chunked := true, contentLen, chunksDone := contentLen ≤ 0 } }

def ended (p : Nat) (s : HttpResponseParser) : HttpResponseParser :=
  { s with parser := { s.parser with bodyStart := p } }

theorem scan_first (hb : digitValue b < 16) :
    scan mem 0 httpclientParserStart (b :: bs) s = scan mem 1 2 bs (marked s) := by
  simp only [scan, next_start b hb]
  rfl

theorem scan_digits (bs : Bytes) (h : ∀ b ∈ ds, digitValue b < 16) :
    scan mem p 2 (ds ++ bs) s = scan mem (p + ds.length) 2 bs s := by
  induction ds generalizing p with
  | nil => rfl
  | cons d ds ih =>
    have hstep : scan mem p 2 (d :: ds ++ bs) s = scan mem (p + 1) 2 (ds ++ bs) s := by
      simp only [List.cons_append, scan, next_digit d (h d List.mem_cons_self)]
      rfl
    rw [hstep, ih fun b hb => h b (List.mem_cons_of_mem _ hb), List.length_cons,
      Nat.add_assoc, Nat.add_comm 1]

@[simp] theorem scan_return : scan mem p 2 (13 :: bs) s = scan mem (p + 1) 3 bs (sized mem s) := rfl

@[simp] theorem scan_feed : scan mem p 3 (10 :: bs) s =
    .ok (p + 1, httpclientParserFirstFinal, ended (p + 1) s) := rfl

end Scan

end Client

namespace HttpResponseParser

def anew (s : HttpResponseParser) : HttpResponseParser :=
  { s with parser := .init s.parser.status }

structure InBounds (length : Nat) (s : HttpResponseParser) : Prop where
  bodyStart : s.parser.bodyStart ≤ length
  mark : s.parser.mark < length
  fieldLen : s.parser.fieldLen ≤ length
  fieldStart : s.parser.fieldStart < length

variable {c m mem : Bytes} {p cs length : Nat} {s s' : HttpResponseParser}

theorem execute_scanned {chunck : Bool} {x : Nat × Bytes × HttpResponseParser}
    (h : s.execute mem length chunck = .ok x)
    (hcs : chunck = true ∨ s.parser.cs ≠ Client.httpclientParserError) :
    ∃ p cs s₁, Client.scan mem 0 (if chunck then Client.httpclientParserStart else s.parser.cs)
        (mem.take length) (if chunck then s.anew else s).rewind = .ok (p, cs, s₁) ∧
      p ≤ length ∧
      x = (p, overwrite mem 0 ((mem.drop p).take (length - p)), s₁.stopped p cs) := by
  obtain ⟨⟨n, s'⟩, hexec, h⟩ := bind_eq_ok.mp h
  obtain rfl := Except.ok.inj h
  obtain ⟨s₀, hs₀⟩ : ∃ s₀, (if chunck then s.anew else s) = s₀ := ⟨_, rfl⟩
  have hstart : s₀.parser.cs = if chunck then Client.httpclientParserStart else s.parser.cs := by
    rw [← hs₀]
    cases chunck <;> rfl
  have hne : s₀.parser.cs ≠ Client.httpclientParserError := by
    rw [hstart]
    rcases hcs with rfl | hcs
    · exact (by decide : Client.httpclientParserStart ≠ Client.httpclientParserError)
    · cases chunck with
      | false => exact hcs
      | true => exact (by decide : Client.httpclientParserStart ≠ Client.httpclientParserError)
  change (if chunck then s.anew else s).httpclientParserExecute mem length = _ at hexec
  rw [← hstart, hs₀]
  rw [hs₀, httpclientParserExecute] at hexec
  rcases ite_eq_iff.mp hexec with ⟨-, hexec⟩ | ⟨-, hexec⟩
  · cases hexec
  rcases ite_eq_iff.mp hexec with ⟨hbad, -⟩ | ⟨-, hexec⟩
  · exact absurd hbad.1 hne
  obtain ⟨⟨p, cs, s₁⟩, hscan, hexec⟩ := bind_eq_ok.mp hexec
  rcases ite_eq_iff.mp hexec with ⟨hle, hexec⟩ | ⟨-, hexec⟩
  · rcases ite_eq_iff.mp hexec with ⟨-, hexec⟩ | ⟨-, hexec⟩
    · obtain ⟨rfl, rfl⟩ := Prod.mk.inj (Except.ok.inj hexec)
      exact ⟨p, cs, s₁, hscan, hle.1, rfl⟩
    · cases hexec
  · cases hexec

theorem execute_eq
    (hscan : Client.scan (c ++ 0 :: m) 0 Client.httpclientParserStart c s.anew = .ok (p, cs, s'))
    (hp : p ≤ c.length) (hin : s'.InBounds c.length) :
    s.execute (c ++ 0 :: m) c.length true =
      .ok (p, overwrite (c ++ 0 :: m) 0 (c.drop p), s'.stopped p cs) := by
  have hnul : (c ++ 0 :: m)[c.length]? = some 0 := by simp
  have hstart : ¬(Client.httpclientParserStart = Client.httpclientParserError ∧ c.length ≠ 0) :=
    fun h => absurd h.1 (by decide)
  have hmove : ((c ++ 0 :: m).drop p).take (c.length - p) = c.drop p := by
    rw [List.drop_append_of_le_length hp, List.take_left' (List.length_drop)]
  have hexec : s.anew.httpclientParserExecute (c ++ 0 :: m) c.length =
      .ok (p, s'.stopped p cs) := by
    have hrewind : s.anew.rewind = s.anew := rfl
    have hcs : s.anew.parser.cs = Client.httpclientParserStart := rfl
    rw [httpclientParserExecute, hcs, if_neg hstart, List.take_left, hrewind, hscan,
      if_neg (not_not.mpr hnul)]
    exact (if_pos ⟨hp, hin.bodyStart⟩).trans (if_pos ⟨hin.mark, hin.fieldLen, hin.fieldStart⟩)
  simp only [execute, if_true]
  rw [show { s with parser := HttpclientParser.init s.parser.status } = s.anew from rfl, hexec]
  simp only [bind, Except.bind, hmove]
  rfl

end HttpResponseParser

namespace ResponseCall

open Client (httpclientParserStart httpclientParserFirstFinal httpclientParserError)

section Size

variable {buffSize p cs : Nat} {c m ds extra : Bytes} {d b : UInt8} {s s' : HttpResponseParser}

theorem overwrite_null (c m : Bytes) : overwrite (c ++ m) c.length [0] = c ++ 0 :: m.drop 1 := by
  rw [overwrite, List.take_left, List.append_assoc, List.length_singleton,
    List.drop_length_add_append]
  rfl

theorem parseSize_eq (buffSize : Nat)
    (hscan : Client.scan (c ++ 0 :: m.drop 1) 0 httpclientParserStart c s.anew = .ok (p, cs, s'))
    (hp : p ≤ c.length) (hin : s'.InBounds c.length) :
    parseSize buffSize c.length (c ++ m) s =
      if (s'.stopped p cs).hasError then .ok none
      else if c.length - p = buffSize then .ok none
      else .ok (some (c.length - p, overwrite (c ++ 0 :: m.drop 1) 0 (c.drop p),
        s'.stopped p cs)) := by
  rw [parseSize, overwrite_null, HttpResponseParser.execute_eq hscan hp hin]
  rfl

theorem parseSize_unfinished (hne : c ≠ []) (hfit : c.length ≤ buffSize)
    (hscan : Client.scan (c ++ 0 :: m.drop 1) 0 httpclientParserStart c s.anew =
      .ok (c.length, cs, s'))
    (hin : s'.InBounds c.length) (herr : s'.error = 0) (hcs : cs ≠ httpclientParserError)
    (hcs' : cs ≠ httpclientParserFirstFinal) :
    ∃ m', parseSize buffSize c.length (c ++ m) s =
        .ok (some (0, m', s'.stopped c.length cs)) ∧
      (s'.stopped c.length cs).isFinished = false := by
  have herror : (s'.stopped c.length cs).hasError = false := by
    simp [HttpResponseParser.hasError, HttpResponseParser.stopped, HttpclientParser.hasError, herr,
      hcs]
  have hroom : ¬ 0 = buffSize := by
    have := List.length_pos_iff.mpr hne
    omega
  refine ⟨overwrite (c ++ 0 :: m.drop 1) 0 (c.drop c.length), ?_, beq_false_of_ne hcs'⟩
  rw [parseSize_eq _ hscan (Nat.le_refl _) hin, herror, Nat.sub_self, if_neg Bool.false_ne_true,
    if_neg hroom]

theorem scan_size (bs : Bytes) (hd : digitValue d < 16) (hds : ∀ b ∈ ds, digitValue b < 16) :
    Client.scan m 0 httpclientParserStart (d :: ds ++ bs) s =
      Client.scan m (d :: ds).length 2 bs (Client.marked s) := by
  rw [List.cons_append, Client.scan_first hd, Client.scan_digits bs hds, Nat.add_comm]
  rfl

theorem scan_line (extra : Bytes) (hd : digitValue d < 16) (hds : ∀ b ∈ ds, digitValue b < 16) :
    Client.scan m 0 httpclientParserStart (d :: ds ++ [13, 10] ++ extra) s =
      .ok ((d :: ds ++ [13, 10]).length, httpclientParserFirstFinal,
        Client.ended (d :: ds ++ [13, 10]).length (Client.sized m (Client.marked s))) := by
  have hp : (d :: ds ++ [13, 10]).length = (d :: ds).length + 1 + 1 := by simp
  rw [List.append_assoc, scan_size _ hd hds, hp]
  exact Client.scan_return.trans Client.scan_feed

theorem marked_anew (hlen : 0 < p) : (Client.marked s.anew).InBounds p :=
  ⟨Nat.zero_le _, hlen, Nat.zero_le _, hlen⟩

theorem parseSize_digits (hfit : c.length ≤ buffSize) (herr : s.error = 0)
    (hd : digitValue d < 16) (hds : ∀ b ∈ ds, digitValue b < 16)
    (hc : c = d :: ds ∨ c = d :: ds ++ [13]) :
    ∃ m' s', parseSize buffSize c.length (c ++ m) s = .ok (some (0, m', s')) ∧
      s'.isFinished = false ∧ s'.data = s.data ∧ s'.error = 0 := by
  rcases hc with rfl | rfl
  · have hscan := scan_size (m := d :: ds ++ 0 :: m.drop 1) (s := s.anew) [] hd hds
    rw [List.append_nil] at hscan
    obtain ⟨m', hparse, hfin⟩ := parseSize_unfinished (List.cons_ne_nil d ds) hfit hscan
      (marked_anew (Nat.succ_pos _)) herr (by decide) (by decide)
    exact ⟨m', _, hparse, hfin, rfl, herr⟩
  · have hscan := scan_size (m := d :: ds ++ [13] ++ 0 :: m.drop 1) (s := s.anew) [13] hd hds
    rw [Client.scan_return] at hscan
    have hlen : (d :: ds).length + 1 = (d :: ds ++ [13]).length := by simp
    rw [hlen] at hscan
    have hin := marked_anew (s := s) (show 0 < (d :: ds ++ [13]).length from Nat.succ_pos _)
    obtain ⟨m', hparse, hfin⟩ := parseSize_unfinished (List.cons_ne_nil _ _) hfit hscan
      ⟨hin.bodyStart, hin.mark, hin.fieldLen, hin.fieldStart⟩ herr (by decide) (by decide)
    exact ⟨m', _, hparse, hfin, rfl, herr⟩

structure Sized (n : Nat) (s s' : HttpResponseParser) : Prop where
  contentLen : s'.parser.contentLen = n
  chunksDone : s'.parser.chunksDone = decide (n = 0)
  data : s'.data = s.data
  error : s'.error = 0

theorem parseSize_line (hfit : (ds ++ [13, 10] ++ extra).length ≤ buffSize) (herr : s.error = 0)
    (hne : ds ≠ []) (hds : ∀ b ∈ ds, digitValue b < 16) (hlt : hexValue ds < 2 ^ 31) :
    ∃ m' s', parseSize buffSize (ds ++ [13, 10] ++ extra).length (ds ++ [13, 10] ++ extra ++ m) s =
        .ok (some (extra.length, extra ++ m', s')) ∧
      s'.isFinished ∧ Sized (hexValue ds) s s' := by
  obtain ⟨d, ds, rfl⟩ := List.exists_cons_of_ne_nil hne
  have hin := marked_anew (s := s) (show 0 < (d :: ds ++ [13, 10] ++ extra).length by simp)
  have hle : (d :: ds ++ [13, 10]).length ≤ (d :: ds ++ [13, 10] ++ extra).length := by simp
  have hlen : (d :: ds ++ [13, 10] ++ extra).length - (d :: ds ++ [13, 10]).length =
      extra.length := by
    simp only [List.length_append, Nat.add_sub_cancel_left]
  have hroom : ¬ extra.length = buffSize := by
    rw [List.length_append, List.length_append, List.length_cons] at hfit
    omega
  have hscan := scan_line (m := d :: ds ++ [13, 10] ++ extra ++ 0 :: m.drop 1) (s := s.anew) extra
    (hds d List.mem_cons_self) fun b hb => hds b (List.mem_cons_of_mem _ hb)
  have hparse := parseSize_eq buffSize hscan hle
    ⟨hle, hin.mark, hin.fieldLen, hin.fieldStart⟩
  have herror : ¬ (HttpResponseParser.stopped (d :: ds ++ [13, 10]).length httpclientParserFirstFinal
      (Client.ended (d :: ds ++ [13, 10]).length (Client.sized
        (d :: ds ++ [13, 10] ++ extra ++ 0 :: m.drop 1) (Client.marked s.anew)))).hasError = true := by
    simp [HttpResponseParser.hasError, HttpclientParser.hasError, HttpResponseParser.stopped,
      Client.ended, Client.sized, Client.marked, HttpResponseParser.anew, herr]
    decide
  rw [List.drop_left, hlen, if_neg hroom, overwrite_front, if_neg herror] at hparse
  -- the digits stand at the front of the buffer
  have hsize : toInt (strtol 16 (d :: ds ++ [13, 10] ++ extra ++ 0 :: m.drop 1)) =
      hexValue (d :: ds) := by
    have hmem : d :: ds ++ [13, 10] ++ extra ++ 0 :: m.drop 1 =
        d :: ds ++ 13 :: (10 :: extra ++ 0 :: m.drop 1) := by simp
    rw [hmem, strtol_hex hne hds (by decide) (by decide), min_eq_left (by omega), toInt_small hlt]
  refine ⟨_, _, hparse, rfl, hsize, ?_, rfl, herr⟩
  have hdone : decide (toInt (strtol 16 (d :: ds ++ [13, 10] ++ extra ++ 0 :: m.drop 1)) ≤ 0) =
      decide (hexValue (d :: ds) = 0) := by
    rw [hsize, decide_eq_decide]
    omega
  exact hdone

theorem parseSize_refused (hb : b = 13 ∨ b = 10) :
    parseSize buffSize (b :: c).length (b :: c ++ m) s = .ok none := by
  have hnext : Client.next httpclientParserStart b = none := by
    rcases hb with rfl | rfl <;> rfl
  have hscan : Client.scan (b :: c ++ 0 :: m.drop 1) 0 httpclientParserStart (b :: c) s.anew =
      .ok (0, httpclientParserError, s.anew) := by
    simp only [Client.scan, hnext]
  have hpos : 0 < (b :: c).length := Nat.succ_pos _
  have herror : (s.anew.stopped 0 httpclientParserError).hasError = true := Bool.or_true _
  rw [parseSize_eq _ hscan (Nat.zero_le _) ⟨Nat.zero_le _, hpos, Nat.zero_le _, hpos⟩, herror,
    if_pos rfl]

theorem recvSize_cons {reads : List Bytes} {mem : Bytes} (hc : c ≠ []) (hfit : c.length ≤ buffSize) :
    recvSize buffSize (c :: reads) 0 mem s =
      chunkSize buffSize reads c.length (c ++ mem.drop c.length) s := by
  have hguard : ¬(c = [] ∨ buffSize - 0 < c.length) := by simp [hc, hfit]
  rw [recvSize, if_neg hguard, chunkSize, if_neg (mt List.length_eq_zero_iff.mp hc), Nat.zero_add,
    overwrite_front]

theorem chunkSize_finished {reads : List Bytes} {x : Nat × Bytes × HttpResponseParser} (hc : c ≠ [])
    (h : parseSize buffSize c.length (c ++ m) s = .ok (some x)) (hfin : x.2.2.isFinished) :
    chunkSize buffSize reads c.length (c ++ m) s = .ok (some (x.1, x.2.1, x.2.2, reads)) := by
  rw [chunkSize, if_neg (mt List.length_eq_zero_iff.mp hc), h]
  exact if_pos hfin

theorem chunkSize_unfinished {reads : List Bytes} {x : Nat × Bytes × HttpResponseParser}
    (hc : c ≠ []) (h : parseSize buffSize c.length (c ++ m) s = .ok (some x))
    (hfin : x.2.2.isFinished = false) :
    chunkSize buffSize reads c.length (c ++ m) s = recvSize buffSize reads x.1 x.2.1 x.2.2 := by
  rw [chunkSize, if_neg (mt List.length_eq_zero_iff.mp hc), h]
  exact if_neg (Bool.not_eq_true _ ▸ hfin)

theorem chunkSize_refused {reads : List Bytes} (hb : b = 13 ∨ b = 10) :
    chunkSize buffSize reads (b :: c).length (b :: c ++ m) s = .ok none := by
  rw [chunkSize, if_neg (mt List.length_eq_zero_iff.mp (List.cons_ne_nil b c)),
    parseSize_refused hb]
  rfl

end Size

/-- The cuts in a size line have zeros before them and a digit after them. -/
def harmless : Bytes → List Bytes → Bool
  | piece, [] => piece.head?.any (digitValue · < 16)
  | piece, c :: cuts => piece.all (· == 48) && harmless c cuts

theorem zeros_line {piece g ds : Bytes} (hz : ∀ b ∈ piece, b = 48)
    (h : piece ++ g = ds ++ [13, 10]) : ∃ ds', ds = piece ++ ds' ∧ g = ds' ++ [13, 10] := by
  rcases List.append_eq_append_iff.mp h with ⟨ds', rfl, hg⟩ | ⟨a, rfl, ha⟩
  · exact ⟨ds', rfl, hg⟩
  · cases a with
    | nil => exact ⟨[], by simp, by simpa using ha.symm⟩
    | cons b a =>
      obtain ⟨rfl, -⟩ := List.cons.inj ha
      exact absurd (hz 13 (by simp)) (by decide)

theorem chunkSize_line {buffSize : Nat} {first extra ds m c : Bytes} {cuts rest reads : List Bytes}
    {s : HttpResponseParser} (hin : goOn extra rest first cuts = c :: reads)
    (hne : ∀ e ∈ first :: cuts, e ≠ []) (hfit : ∀ e ∈ goOn extra [] first cuts, e.length ≤ buffSize)
    (hline : first ++ cuts.flatten = ds ++ [13, 10]) (hds : ∀ b ∈ ds, digitValue b < 16)
    (hlt : hexValue ds < 2 ^ 31) (herr : s.error = 0) (hok : harmless first cuts) :
    ∃ m' s', chunkSize buffSize reads c.length (c ++ m) s =
      .ok (some (extra.length, extra ++ m', s', rest)) ∧ Sized (hexValue ds) s s' := by
  induction cuts generalizing first ds m c reads s with
  | nil =>
    obtain ⟨rfl, rfl⟩ := List.cons.inj hin
    obtain rfl : first = ds ++ [13, 10] := by simpa using hline
    have hdigits : ds ≠ [] := by
      rintro rfl
      exact absurd hok (by decide)
    obtain ⟨m', s', hparse, hfin, hsized⟩ :=
      parseSize_line (m := m) (hfit _ List.mem_cons_self) herr hdigits hds hlt
    exact ⟨m', s', chunkSize_finished (by simp) hparse hfin, hsized⟩
  | cons e cuts ih =>
    obtain ⟨rfl, rfl⟩ := List.cons.inj hin
    obtain ⟨hzeros, hok'⟩ := Bool.and_eq_true_iff.mp hok
    have hz : ∀ b ∈ first, b = 48 := by simpa using hzeros
    obtain ⟨ds', rfl, hline'⟩ := zeros_line hz hline
    have hfirst := hne first List.mem_cons_self
    obtain ⟨d, ds, rfl⟩ := List.exists_cons_of_ne_nil hfirst
    have hhex : ∀ b ∈ d :: ds, digitValue b < 16 := fun b hb => hds b (List.mem_append_left _ hb)
    obtain ⟨m', s', hparse, hfin, hdata, herr'⟩ := parseSize_digits (m := m)
      (hfit _ List.mem_cons_self) herr (hhex d List.mem_cons_self)
      (fun b hb => hhex b (List.mem_cons_of_mem _ hb)) (.inl rfl)
    rw [hexValue_zeros hz] at hlt ⊢
    -- the next round reads what follows into an empty buffer
    have hne' : ∀ e' ∈ e :: cuts, e' ≠ [] := fun e' he => hne e' (List.mem_cons_of_mem _ he)
    have hfit' : ∀ e' ∈ goOn extra [] e cuts, e'.length ≤ buffSize := fun e' he =>
      hfit e' (List.mem_cons_of_mem _ he)
    obtain ⟨t, reads', hin', hmem⟩ := exists_goOn extra rest cuts e
    have hc' := List.append_ne_nil_of_left_ne_nil (hne' e List.mem_cons_self) t
    obtain ⟨m'', s'', hrest, hsized⟩ := ih (m := m'.drop (e ++ t).length) hin' hne' hfit' hline'
      (fun b hb => hds b (List.mem_append_right _ hb)) hlt herr' hok'
    refine ⟨m'', s'', ?_, ⟨hsized.contentLen, hsized.chunksDone, hsized.data.trans hdata,
      hsized.error⟩⟩
    rw [chunkSize_unfinished (List.cons_ne_nil d ds) hparse hfin, hin',
      recvSize_cons hc' (hfit' _ hmem), hrest]

/-- Some cut in a size line comes right before the return or the line feed. -/
def broken (cuts : List Bytes) : Bool := cuts.any fun piece => piece.head?.any (16 ≤ digitValue ·)

theorem cut_line {piece g ds : Bytes} {x : UInt8} (h : piece ++ x :: g = ds ++ [13, 10]) :
    (∃ ds', ds = piece ++ x :: ds' ∧ g = ds' ++ [13, 10]) ∨ (x = 13 ∧ piece = ds) ∨
      (x = 10 ∧ piece = ds ++ [13]) := by
  rcases List.append_eq_append_iff.mp h with ⟨ds', rfl, hg⟩ | ⟨a, rfl, ha⟩
  · cases ds' with
    | nil => exact .inr (.inl ⟨(List.cons.inj hg).1, (List.append_nil _).symm⟩)
    | cons y ds' =>
      obtain ⟨rfl, hg'⟩ := List.cons.inj hg
      exact .inl ⟨ds', rfl, hg'⟩
  · match a with
    | [] => exact .inr (.inl ⟨(List.cons.inj ha).1.symm, List.append_nil _⟩)
    | [y] =>
      obtain ⟨rfl, ha'⟩ := List.cons.inj ha
      exact .inr (.inr ⟨(List.cons.inj ha').1.symm, rfl⟩)
    | y :: z :: a => simp at ha

/-- A cut right before the return or the line feed of a size line ends the call. -/
theorem chunkSize_broken {buffSize : Nat} {d : UInt8} {first extra ds m c : Bytes}
    {cuts rest reads : List Bytes} {s : HttpResponseParser}
    (hin : goOn extra rest (d :: first) cuts = c :: reads)
    (hne : ∀ e ∈ cuts, e ≠ []) (hfit : ∀ e ∈ goOn extra [] (d :: first) cuts, e.length ≤ buffSize)
    (hline : d :: first ++ cuts.flatten = ds ++ [13, 10]) (hds : ∀ b ∈ ds, digitValue b < 16)
    (hd : digitValue d < 16) (herr : s.error = 0) (hbad : broken cuts) :
    chunkSize buffSize reads c.length (c ++ m) s = .ok none := by
  induction cuts generalizing d first ds m c reads s with
  | nil => cases hbad
  | cons e cuts ih =>
    obtain ⟨rfl, rfl⟩ := List.cons.inj hin
    obtain ⟨x, e, rfl⟩ := List.exists_cons_of_ne_nil (hne e List.mem_cons_self)
    have hfit' : ∀ e' ∈ goOn extra [] (x :: e) cuts, e'.length ≤ buffSize := fun e' he =>
      hfit e' (List.mem_cons_of_mem _ he)
    obtain ⟨t, reads', hin', hmem⟩ := exists_goOn extra rest cuts (x :: e)
    have hc' := List.append_ne_nil_of_left_ne_nil (List.cons_ne_nil x e) t
    -- the digits before the cut are parsed, and the next round reads what follows it
    have hround : ∀ {ds₁}, (∀ b ∈ ds₁, digitValue b < 16) → (first = ds₁ ∨ first = ds₁ ++ [13]) →
        ∃ m' s', chunkSize buffSize (goOn extra rest (x :: e) cuts) (d :: first).length
            (d :: first ++ m) s =
          chunkSize buffSize reads' (x :: e ++ t).length (x :: e ++ t ++ m') s' ∧ s'.error = 0 := by
      intro ds₁ hds₁ hfirst
      obtain ⟨m', s', hparse, hfin, -, herr'⟩ := parseSize_digits (m := m)
        (hfit _ List.mem_cons_self) herr hd hds₁ (hfirst.imp (congrArg _) (congrArg _))
      refine ⟨m'.drop (x :: e ++ t).length, s', ?_, herr'⟩
      rw [chunkSize_unfinished (List.cons_ne_nil d first) hparse hfin, hin',
        recvSize_cons hc' (hfit' _ hmem)]
    rcases cut_line hline with ⟨ds', rfl, hg⟩ | ⟨rfl, rfl⟩ | ⟨rfl, hfirst⟩
    · obtain ⟨m', s', hrest, herr'⟩ := hround
        (fun b hb => hds b (List.mem_append_left _ (List.mem_cons_of_mem _ hb))) (.inl rfl)
      have hx : digitValue x < 16 := hds x (by simp)
      have hbad' : broken cuts := by
        simpa [broken, Nat.not_le_of_lt hx] using hbad
      have hline' : x :: e ++ cuts.flatten = x :: ds' ++ [13, 10] := congrArg (x :: ·) hg
      rw [hrest]
      exact ih hin' (fun e' he => hne e' (List.mem_cons_of_mem _ he)) hfit' hline'
        (fun b hb => hds b (List.mem_append_right _ hb)) hx herr' hbad'
    · obtain ⟨m', s', hrest, -⟩ := hround
        (fun b hb => hds b (List.mem_cons_of_mem _ hb)) (.inl rfl)
      rw [hrest]
      exact chunkSize_refused (.inl rfl)
    · cases ds with
      | nil =>
        obtain ⟨rfl, -⟩ := List.cons.inj hfirst
        exact absurd hd (by decide)
      | cons d' ds =>
        obtain ⟨rfl, hfirst'⟩ := List.cons.inj hfirst
        obtain ⟨m', s', hrest, -⟩ := hround
          (fun b hb => hds b (List.mem_cons_of_mem _ hb)) (.inr hfirst')
        rw [hrest]
        exact chunkSize_refused (.inr rfl)

end ResponseCall

theorem Client.scan_moves {mem bs : Bytes} {p cs : Nat} {s : HttpResponseParser}
    {x : Nat × Nat × HttpResponseParser} (h : Client.scan mem p cs bs s = .ok x) :
    p ≤ x.1 ∧ (x.1 = p → x.2.1 = cs ∨ x.2.1 = Client.httpclientParserError) := by
  induction bs generalizing p cs s with
  | nil =>
    obtain rfl := Except.ok.inj h
    exact ⟨Nat.le_refl p, fun _ => .inl rfl⟩
  | cons b bs ih =>
    rw [Client.scan] at h
    cases hn : Client.next cs b with
    | none =>
      rw [hn] at h
      obtain rfl := Except.ok.inj h
      exact ⟨Nat.le_refl p, fun _ => .inr rfl⟩
    | some arc =>
      rw [hn] at h
      obtain ⟨s₁, -, h⟩ := bind_eq_ok.mp h
      have hlt : p + 1 ≤ x.1 := by
        rcases ite_eq_iff.mp h with ⟨-, h⟩ | ⟨-, h⟩
        · obtain rfl := Except.ok.inj h
          exact Nat.le_refl _
        · exact (ih h).1
      exact ⟨by omega, fun heq => by omega⟩

namespace ResponseCall

open Client (httpclientParserStart httpclientParserFirstFinal)

section Moves

variable {buffSize length : Nat} {mem : Bytes} {reads : List Bytes} {s : HttpResponseParser}

theorem execute_moves {x : Nat × Bytes × HttpResponseParser}
    (h : s.execute mem length true = .ok x) :
    x.1 ≤ length ∧ (x.2.2.isFinished → 0 < x.1) := by
  obtain ⟨p, cs, s₁, hscan, hle, rfl⟩ := HttpResponseParser.execute_scanned h (.inl rfl)
  refine ⟨hle, fun hfin => ?_⟩
  have hcs : cs = httpclientParserFirstFinal := beq_iff_eq.mp hfin
  obtain ⟨-, hstay⟩ := Client.scan_moves hscan
  refine Nat.pos_of_ne_zero fun hzero => ?_
  rcases hstay hzero with h | h
  · have hstart : cs = httpclientParserStart := h
    exact absurd (hcs.symm.trans hstart) (by decide)
  · exact absurd (hcs.symm.trans h) (by decide)

theorem parseSize_some {y : Nat × Bytes × HttpResponseParser}
    (h : parseSize buffSize length mem s = .ok (some y)) :
    ∃ x, s.execute (overwrite mem length [0]) length true = .ok x ∧ x.2.2.hasError = false ∧
      y = (length - x.1, x.2.1, x.2.2) := by
  obtain ⟨x, hexec, h⟩ := bind_eq_ok.mp h
  rcases ite_eq_iff.mp h with ⟨-, h⟩ | ⟨herror, h⟩
  · cases h
  rcases ite_eq_iff.mp h with ⟨-, h⟩ | ⟨-, h⟩
  · cases h
  exact ⟨x, hexec, Bool.not_eq_true _ ▸ herror, (Option.some.inj (Except.ok.inj h)).symm⟩

/-- The round is the last one, or the next one begins with a `read`. -/
def Continues (buffSize : Nat) (reads : List Bytes) (y : Nat × Bytes × HttpResponseParser)
    (x : Nat × Bytes × HttpResponseParser × List Bytes) : Prop :=
  (y.2.2.isFinished = true ∧ x = (y.1, y.2.1, y.2.2, reads)) ∨
    recvSize buffSize reads y.1 y.2.1 y.2.2 = .ok (some x)

theorem continues_of_eq {r : Option (Nat × Bytes × HttpResponseParser)}
    {x : Nat × Bytes × HttpResponseParser × List Bytes}
    (h : (match r with
      | none => .ok none
      | some (length, mem, s) =>
        if s.isFinished then .ok (some (length, mem, s, reads))
        else recvSize buffSize reads length mem s : Except Fault (Option _)) = .ok (some x)) :
    ∃ y, r = some y ∧ Continues buffSize reads y x := by
  cases r with
  | none => cases h
  | some y =>
    refine ⟨y, rfl, ?_⟩
    rcases ite_eq_iff.mp h with ⟨hfin, h⟩ | ⟨-, h⟩
    · exact .inl ⟨hfin, (Option.some.inj (Except.ok.inj h)).symm⟩
    · exact .inr h

theorem recvSize_some {c : Bytes} {x : Nat × Bytes × HttpResponseParser × List Bytes}
    (h : recvSize buffSize (c :: reads) length mem s = .ok (some x)) :
    c ≠ [] ∧ c.length ≤ buffSize - length ∧
      ∃ y, parseSize buffSize (length + c.length) (overwrite mem length c) s = .ok (some y) ∧
        Continues buffSize reads y x := by
  rw [recvSize] at h
  rcases ite_eq_iff.mp h with ⟨-, h⟩ | ⟨hguard, h⟩
  · cases h
  obtain ⟨r, hparse, h⟩ := bind_eq_ok.mp h
  obtain ⟨y, rfl, hrest⟩ := continues_of_eq h
  exact ⟨(not_or.mp hguard).1, Nat.le_of_not_lt (not_or.mp hguard).2, y, hparse, hrest⟩

theorem chunkSize_some {x : Nat × Bytes × HttpResponseParser × List Bytes}
    (h : chunkSize buffSize reads length mem s = .ok (some x)) :
    (length = 0 ∧ recvSize buffSize reads length mem s = .ok (some x)) ∨
      ∃ y, parseSize buffSize length mem s = .ok (some y) ∧ Continues buffSize reads y x := by
  rcases ite_eq_iff.mp h with ⟨hzero, h⟩ | ⟨-, h⟩
  · exact .inl ⟨hzero, h⟩
  obtain ⟨r, hparse, h⟩ := bind_eq_ok.mp h
  obtain ⟨y, rfl, hrest⟩ := continues_of_eq h
  exact .inr ⟨y, hparse, hrest⟩

theorem parseSize_moves {x : Nat × Bytes × HttpResponseParser}
    (h : parseSize buffSize length mem s = .ok (some x)) :
    x.1 ≤ length ∧ (x.2.2.isFinished → x.1 < length) := by
  obtain ⟨x, hexec, -, rfl⟩ := parseSize_some h
  obtain ⟨hle, hpos⟩ := execute_moves hexec
  refine ⟨Nat.sub_le _ _, fun hfin => ?_⟩
  have := hpos hfin
  simp only at hle this ⊢
  omega

theorem recvSize_moves {x : Nat × Bytes × HttpResponseParser × List Bytes}
    (h : recvSize buffSize reads length mem s = .ok (some x)) :
    x.1 + x.2.2.2.flatten.length < length + reads.flatten.length := by
  induction reads generalizing length mem s with
  | nil => cases h
  | cons c reads ih =>
    obtain ⟨-, -, y, hparse, hrest⟩ := recvSize_some h
    obtain ⟨hle, hlt⟩ := parseSize_moves hparse
    rw [List.flatten_cons, List.length_append]
    rcases hrest with ⟨hfin, rfl⟩ | hrest
    · have := hlt hfin
      simp only at this ⊢
      omega
    · have := ih hrest
      omega

theorem chunkSize_moves {x : Nat × Bytes × HttpResponseParser × List Bytes}
    (h : chunkSize buffSize reads length mem s = .ok (some x)) :
    x.1 + x.2.2.2.flatten.length < length + reads.flatten.length := by
  rcases chunkSize_some h with ⟨-, h⟩ | ⟨y, hparse, hrest⟩
  · exact recvSize_moves h
  obtain ⟨hle, hlt⟩ := parseSize_moves hparse
  rcases hrest with ⟨hfin, rfl⟩ | hrest
  · have := hlt hfin
    simp only at this ⊢
    omega
  · have := recvSize_moves hrest
    omega

end Moves

end ResponseCall

end Sylar.Http
