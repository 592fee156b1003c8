import Sylar.Http.Paths
import Sylar.Lib.Scanner
import Sylar.Uri.Grammar

/-! The rules of `http11_parser.rl` for the parts of a request line, with `uri_relaxed`
zero. A bare number in the ragel source is the byte of that value, and the minus sign
between two of its literals takes one from the other. Alternatives that are single bytes
are written as one set. -/
namespace Sylar.Http

open Lib Lib.Grammar
open Uri (alphas digits unreserved subDelims nonAscii colon at_)

inductive Rule where
  | pct_encoded
  | pchar
  | segment
  | segment_nz_nc
  | path_absolute
  | path_noscheme
  | path_abempty
  | reg_name
  | dec_octet
  | IPv4address
  | h16
  | h16_colon
  | ls32
  | IPv6address
  | IPvFuture
  | IP_literal
  | port
  | host
  | userinfo
  | authority
  | relative_part
  | query
  | fragment
  | Method
deriving DecidableEq

namespace Rule

open Expr

def oneOf (l : List (Nat × Nat)) : Expr Rule := .bytes (ranges l)

def digit : Expr Rule := oneOf digits

def xdigit : Expr Rule := oneOf (digits ++ [(65, 70), (97, 102)])

def slashSegments : Expr Rule := .many (.seq (char '/') (.rule .segment))

def doubleColon : Expr Rule := .seq (char ':') (char ':')

/-- What stands before the double colon, at least `n` groups and one more. -/
def before (n : Nat) : Expr Rule :=
  opt (seqs [times n (.rule .h16_colon), .many (.rule .h16_colon), .rule .h16])

/-- A number, the byte of that value, and one group. -/
def counted (n : Nat) : Expr Rule := .seq (oneOf [(n, n)]) (.rule .h16_colon)

def queryChars : Expr Rule := .many (.alt (.rule .pchar) (oneOf [(47, 47), (63, 63)]))

def methodChar : Expr Rule := oneOf ([(65, 90)] ++ digits)

def expr : Rule → Expr Rule
  | pct_encoded => seqs [char '%', xdigit, xdigit]
  | pchar => .alt (oneOf (nonAscii ++ unreserved ++ subDelims ++ colon ++ at_)) (.rule pct_encoded)
  | segment => .many (.rule pchar)
  | segment_nz_nc => many1 (.alt (oneOf (unreserved ++ subDelims ++ at_)) (.rule pct_encoded))
  | path_absolute => .seq (char '/') (opt (.seq (many1 (.rule pchar)) slashSegments))
  | path_noscheme => .seq (.rule segment_nz_nc) slashSegments
  | path_abempty => slashSegments
  | reg_name => .many (.alt (oneOf (unreserved ++ subDelims)) (.rule pct_encoded))
  | dec_octet =>
    alts [digit, .seq (char '1') digit, seqs [char '1', digit, digit],
      seqs [char '2', char '0', digit], seqs [char '2', char '5', char '0']]
  | IPv4address =>
    seqs [.rule dec_octet, char '.', .rule dec_octet, char '.', .rule dec_octet, char '.',
      .rule dec_octet]
  | h16 => .seq xdigit (upTo 3 xdigit)
  | h16_colon => .seq (.rule h16) (char ':')
  | ls32 => .alt (.seq (.rule h16_colon) (.rule h16)) (.rule IPv4address)
  | IPv6address =>
    alts [seqs [counted 6, .rule ls32],
      seqs [doubleColon, counted 5, .rule ls32],
      seqs [opt (.rule h16), doubleColon, counted 4, .rule ls32],
      seqs [before 1, doubleColon, counted 3, .rule ls32],
      seqs [before 2, doubleColon, counted 2, .rule ls32],
      seqs [before 3, doubleColon, .rule h16_colon, .rule ls32],
      seqs [before 4, doubleColon, .rule ls32],
      seqs [before 5, doubleColon, .rule h16],
      seqs [before 6, doubleColon]]
  | IPvFuture =>
    seqs [char 'v', many1 xdigit, char '.', many1 (oneOf (unreserved ++ subDelims ++ colon))]
  | IP_literal => seqs [char '[', .alt (.rule IPv6address) (.rule IPvFuture), char ']']
  | port => .many digit
  | host => alts [.rule IP_literal, .rule IPv4address, .rule reg_name]
  | userinfo => .many (.alt (oneOf (unreserved ++ subDelims ++ colon)) (.rule pct_encoded))
  | authority =>
    seqs [opt (.seq (.rule userinfo) (char '@')), .rule host, opt (.seq (char ':') (.rule port))]
  | relative_part =>
    alts [seqs [char '/', char '/', .rule authority, .rule path_abempty], .rule path_absolute,
      .rule path_noscheme, .empty]
  | query => queryChars
  | fragment => queryChars
  | Method => .seq methodChar (upTo 19 methodChar)

def words (r : Rule) : Language UInt8 := lang expr (.rule r)

end Rule

section Quiet

variable {r : Bool} {cs n cs' : Nat} {b : UInt8} {bs more : Bytes} {arc : Arc}

theorem next_false : next false cs b = RangeTable.pick b.toNat (state cs).arcs := by
  unfold next
  cases RangeTable.pick b.toNat (state cs).arcs <;> rfl

/-- States that no arc leads to that just takes down its offset or nothing. -/
def entries : List Nat := [httpParserStart, 3, 20, 29]

theorem next_entries (h : next r cs b = some arc) (hactions : arc.actions ⊆ [.mark, .start_query]) :
    arc.target ∉ entries := by
  obtain ⟨_, _, hentry, _⟩ := next_entry
    (P := fun _ e => e.2.2.actions ⊆ [.mark, .start_query] → e.2.2.target ∉ entries)
    (by decide +kernel) h
  exact hentry hactions

abbrev Quiet : Nat → Bytes → Nat → Prop :=
  Scanner.Quiet fun cs b n => next false cs b = some (.st n)

end Quiet

/-- A part of the request line as the automaton reads it: its first action stands on the
first byte, no action on the other bytes, and the next ones on the byte that ends it. A
part that may be empty has all of them on that byte then. -/
structure Part where
  start : Nat
  first : Action
  empty : Bool
  ends : List (UInt8 × Arc)
  entered : start ∈ entries
  offset : first ∈ [.mark, .start_query]
  ends_ne : ends ≠ []
  skipped : empty = true → ∀ e ∈ ends, next false start e.1 = some ⟨first :: e.2.actions, e.2.target⟩

namespace Part

def method : Part where
  start := httpParserStart
  first := .mark
  empty := false
  ends := [(32, .tr4)]
  entered := by decide
  offset := by decide
  ends_ne := by decide
  skipped := by decide

def path : Part where
  start := 3
  first := .mark
  empty := true
  ends := [(32, .tr37), (35, .tr39), (63, .tr42)]
  entered := by decide
  offset := by decide
  ends_ne := by decide
  skipped := by decide

def query : Part where
  start := 29
  first := .start_query
  empty := true
  ends := [(32, .tr58), (35, .tr59)]
  entered := by decide
  offset := by decide
  ends_ne := by decide
  skipped := by decide

def fragment : Part where
  start := 20
  first := .mark
  empty := true
  ends := [(32, .tr47)]
  entered := by decide
  offset := by decide
  ends_ne := by decide
  skipped := by decide

section Automaton

variable (part : Part)

def follow (cs : Nat) (arc : Arc) : Nat :=
  if arc.actions = (if cs = part.start then [part.first] else []) then arc.target
  else httpParserError

def row (cs : Nat) : RangeTable.Row Nat :=
  (state cs).arcs.map fun e => (e.1, e.2.1, part.follow cs e.2.2)

def final (cs : Nat) : Bool :=
  if cs = part.start then part.empty
  else part.ends.all fun e => next false cs e.1 == some e.2

def accepts (cs : Nat) (w : Bytes) : Bool := Grammar.accepts id part.row part.final cs w

def reads (r : Rule) : Bool :=
  explore Rule.expr id part.row part.final true 80 8000 part.start (.rule r)

end Automaton

theorem method_reads : method.reads .Method = true := by decide +kernel

theorem path_reads : path.reads .relative_part = true := by decide +kernel

theorem query_reads : query.reads .query = true := by decide +kernel

theorem fragment_reads : fragment.reads .fragment = true := by decide +kernel

section Words

variable {part : Part} {r : Rule} {cs : Nat} {b : UInt8} {w : Bytes}

theorem accepts_iff (h : part.reads r = true) : part.accepts part.start w ↔ w ∈ r.words :=
  accepts_iff_of_explore h w

theorem start_ne : part.start ≠ httpParserError := by
  have hne : httpParserError ∉ entries := by decide
  rintro heq
  exact hne (heq ▸ part.entered)

theorem accepts_error : part.accepts httpParserError w = false := by
  cases w with
  | nil =>
    obtain ⟨e, ends, hends⟩ := List.exists_cons_of_ne_nil part.ends_ne
    simp [accepts, Grammar.accepts, final, start_ne.symm, hends, next_error]
  | cons b w => rfl

theorem accepts_cons (h : part.accepts cs (b :: w)) :
    ∃ arc, next false cs b = some arc ∧
      arc.actions = (if cs = part.start then [part.first] else []) ∧
      part.accepts arc.target w := by
  simp only [accepts, Grammar.accepts, row, RangeTable.pick_map, ← next_false] at h
  cases hn : next false cs b with
  | none => simp [hn] at h
  | some arc =>
    rw [hn] at h
    replace h : part.accepts (part.follow cs arc) w = true := h
    by_cases hactions : arc.actions = (if cs = part.start then [part.first] else [])
    · rw [follow, if_pos hactions] at h
      exact ⟨arc, rfl, hactions, h⟩
    · rw [follow, if_neg hactions, accepts_error] at h
      cases h

/-- After its first byte the part is read without an action, to a state where every byte
that may end it does. -/
theorem quiet_of_accepts (hcs : cs ∉ entries) (h : part.accepts cs w) :
    ∃ cs', Quiet cs w cs' ∧ ∀ e ∈ part.ends, next false cs' e.1 = some e.2 := by
  have hne : ∀ cs, cs ∉ entries → cs ≠ part.start := by
    rintro cs hcs rfl
    exact hcs part.entered
  induction w generalizing cs with
  | nil =>
    simp only [accepts, Grammar.accepts, final, if_neg (hne cs hcs), List.all_eq_true,
      beq_iff_eq] at h
    exact ⟨cs, .nil, h⟩
  | cons b w ih =>
    obtain ⟨arc, hn, hactions, h⟩ := accepts_cons h
    rw [if_neg (hne cs hcs)] at hactions
    have hnone : arc.actions ⊆ [.mark, .start_query] := by
      rw [hactions]
      exact List.nil_subset _
    obtain ⟨cs', hquiet, hends⟩ := ih (next_entries hn hnone) h
    obtain ⟨actions, target⟩ := arc
    obtain rfl := hactions
    exact ⟨cs', .cons hn hquiet, hends⟩

theorem exists_quiet (hreads : part.reads r = true) (hw : b :: w ∈ r.words) :
    ∃ n cs, next false part.start b = some ⟨[part.first], n⟩ ∧ Quiet n w cs ∧
      ∀ e ∈ part.ends, next false cs e.1 = some e.2 := by
  obtain ⟨⟨actions, n⟩, hn, hactions, h⟩ := accepts_cons ((accepts_iff hreads).mpr hw)
  obtain rfl : actions = [part.first] := hactions.trans (if_pos rfl)
  have htarget : n ∉ entries := next_entries hn (by simpa using part.offset)
  obtain ⟨cs, hquiet, hends⟩ := quiet_of_accepts htarget h
  exact ⟨n, cs, hn, hquiet, hends⟩

theorem empty_of_nil_mem (hreads : part.reads r = true) (hw : [] ∈ r.words) : part.empty = true := by
  have haccepts : part.final part.start = true := (accepts_iff hreads).mpr hw
  rwa [final, if_pos rfl] at haccepts

end Words

end Part

end Sylar.Http
