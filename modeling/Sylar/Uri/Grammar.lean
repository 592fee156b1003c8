import Sylar.Lib.Recognizer
import Sylar.Uri.Create

/-! The grammar of `uri.rl` and the one of RFC 3986 that it follows, with `pchar`
extended by the bytes outside of ASCII in both. Alternatives that are single bytes are
written as one set. -/
namespace Sylar.Uri

open Lib Lib.Grammar
open Http (Bytes)

inductive Rule where
  | pct_encoded
  | scheme
  | userinfo
  | dec_octet
  | IPv4address
  | h16
  | h16_colon
  | ls32
  | IPv6address
  | IPvFuture
  | IP_literal
  | reg_name
  | host
  | port
  | authority
  | pchar
  | pchar_nc
  | segments
  | path_abempty
  | path_absolute
  | path_rootless
  | path_noscheme
  | query
  | fragment
  | hier_part
  | relative_part
  | relative_ref
  | URI
  | URI_reference
deriving DecidableEq

/-- Which of the two grammars is meant where they differ. -/
inductive Dialect where
  | ragel
  | rfc3986
deriving DecidableEq

section Sets

def digits : List (Nat × Nat) := [(48, 57)]

def alphas : List (Nat × Nat) := [(65, 90), (97, 122)]

def unreserved : List (Nat × Nat) := alphas ++ digits ++ [(45, 46), (95, 95), (126, 126)]

def subDelims : List (Nat × Nat) := [(33, 33), (36, 36), (38, 44), (59, 59), (61, 61)]

def nonAscii : List (Nat × Nat) := [(128, 255)]

def colon : List (Nat × Nat) := [(58, 58)]

def at_ : List (Nat × Nat) := [(64, 64)]

def oneOf (l : List (Nat × Nat)) : Expr Rule := .bytes (ranges l)

def digit : Expr Rule := oneOf digits

def xdigit : Expr Rule := oneOf (digits ++ [(65, 70), (97, 102)])

end Sets

section Addresses

open Expr

/-- In the ragel source the fourth alternative begins with a bare 2, the byte of that
value. -/
def decOctet (two : Expr Rule) : Expr Rule :=
  alts [digit, .seq (oneOf [(49, 57)]) digit, seqs [char '1', digit, digit],
    seqs [two, oneOf [(48, 52)], digit], seqs [char '2', char '5', oneOf [(48, 53)]]]

def groups (n : Nat) : Expr Rule := times n (.rule .h16_colon)

def doubleColon : Expr Rule := .seq (char ':') (char ':')

/-- `before n` is what may stand for `n` groups in front of the double colon: in the
ragel source exactly that many, in the standard up to that many. -/
def ipv6Address (before : Nat → Expr Rule) : Expr Rule :=
  let h16 := .rule .h16
  let ls32 := .rule .ls32
  alts [seqs [groups 6, ls32],
    seqs [doubleColon, groups 5, ls32],
    seqs [opt h16, doubleColon, groups 4, ls32],
    seqs [opt (.seq (before 1) h16), doubleColon, groups 3, ls32],
    seqs [opt (.seq (before 2) h16), doubleColon, groups 2, ls32],
    seqs [opt (.seq (before 3) h16), doubleColon, groups 1, ls32],
    seqs [opt (.seq (before 4) h16), doubleColon, ls32],
    seqs [opt (.seq (before 5) h16), doubleColon, h16],
    seqs [opt (.seq (before 6) h16), doubleColon]]

def ipvFuture (v : Expr Rule) : Expr Rule :=
  seqs [v, many1 xdigit, char '.', many1 (oneOf (unreserved ++ subDelims ++ colon))]

end Addresses

section Grammars

open Expr

def slashSegment : Expr Rule := .seq (char '/') (.many (.rule .pchar))

def tail : Expr Rule :=
  .seq (opt (.seq (char '?') (.rule .query))) (opt (.seq (char '#') (.rule .fragment)))

def queryChars : Expr Rule := .many (.alt (.rule .pchar) (oneOf [(47, 47), (63, 63)]))

def netPath : Expr Rule :=
  seqs [char '/', char '/', .rule .authority, .rule .path_abempty]

def grammar (d : Dialect) : Rule → Expr Rule
  | .pct_encoded => seqs [char '%', xdigit, xdigit]
  | .scheme => .seq (oneOf alphas) (.many (oneOf (alphas ++ digits ++ [(43, 43), (45, 46)])))
  | .userinfo => .many (.alt (oneOf (unreserved ++ subDelims ++ colon)) (.rule .pct_encoded))
  | .dec_octet =>
    match d with
    | .ragel => decOctet (oneOf [(2, 2)])
    | .rfc3986 => decOctet (char '2')
  | .IPv4address =>
    seqs [.rule .dec_octet, char '.', .rule .dec_octet, char '.', .rule .dec_octet, char '.',
      .rule .dec_octet]
  | .h16 => .seq xdigit (upTo 3 xdigit)
  | .h16_colon => .seq (.rule .h16) (char ':')
  | .ls32 => .alt (seqs [.rule .h16, char ':', .rule .h16]) (.rule .IPv4address)
  | .IPv6address =>
    match d with
    | .ragel => ipv6Address groups
    | .rfc3986 => ipv6Address fun n => upTo n (.rule .h16_colon)
  | .IPvFuture =>
    match d with
    | .ragel => ipvFuture (char 'v')
    | .rfc3986 => ipvFuture (.alt (char 'v') (char 'V'))
  | .IP_literal => seqs [char '[', .alt (.rule .IPv6address) (.rule .IPvFuture), char ']']
  | .reg_name => .many (.alt (oneOf (unreserved ++ subDelims)) (.rule .pct_encoded))
  | .host => alts [.rule .IP_literal, .rule .IPv4address, .rule .reg_name]
  | .port => .many digit
  | .authority =>
    seqs [opt (.seq (.rule .userinfo) (char '@')), .rule .host, opt (.seq (char ':') (.rule .port))]
  | .pchar =>
    .alt (oneOf (nonAscii ++ unreserved ++ subDelims ++ colon ++ at_)) (.rule .pct_encoded)
  | .pchar_nc => .alt (oneOf (nonAscii ++ unreserved ++ subDelims ++ at_)) (.rule .pct_encoded)
  | .segments => .many slashSegment
  | .path_abempty =>
    match d with
    | .ragel => .seq (opt slashSegment) (.rule .segments)
    | .rfc3986 => .rule .segments
  | .path_absolute => .seq (char '/') (opt (.seq (many1 (.rule .pchar)) (.rule .segments)))
  | .path_rootless => .seq (many1 (.rule .pchar)) (.rule .segments)
  | .path_noscheme => .seq (many1 (.rule .pchar_nc)) (.rule .segments)
  | .query => queryChars
  | .fragment => queryChars
  | .hier_part => alts [netPath, .rule .path_absolute, .rule .path_rootless, .empty]
  | .relative_part => alts [netPath, .rule .path_absolute, .rule .path_noscheme, .empty]
  | .relative_ref => .seq (.rule .relative_part) tail
  | .URI => seqs [.rule .scheme, char ':', .rule .hier_part, tail]
  | .URI_reference => .alt (.rule .URI) (.rule .relative_ref)

end Grammars

def accepts (text : Bytes) : Bool :=
  Grammar.accepts Arc.target state (fun cs => decide (uriParserFirstFinal ≤ cs)) uriParserStart text

theorem explore_uri : explore (grammar .ragel) Arc.target state
    (fun cs => decide (uriParserFirstFinal ≤ cs)) true 80 8000 uriParserStart
    (.rule .URI_reference) = true := by
  decide +kernel

/-- The generated automaton accepts the texts of the grammar in `uri.rl`. -/
theorem accepts_iff (text : Bytes) :
    accepts text ↔ text ∈ lang (grammar .ragel) (.rule .URI_reference) :=
  accepts_iff_of_explore explore_uri text

end Sylar.Uri
