import Sylar.Lib.Numerals

/-! Documents of yaml-cpp as trees, and the ways in which the sources read them. Reading
can end in one of the exceptions of yaml-cpp. -/
namespace Sylar

abbrev Text := List UInt8

def Text.ofChars (cs : List Char) : Text := cs.map fun c => UInt8.ofNat c.toNat

/-- The key of an entry is its `Scalar()`, the empty text for a key that is no scalar. -/
inductive Yaml where
  | null
  | scalar (text : Text)
  | seq (items : List Yaml)
  | map (entries : List (Text × Yaml))

namespace Yaml

inductive Fault where
  | badSubscript
  | badConversion
  | invalidNode
  deriving DecidableEq, Repr

def build (entries : List (Text × Yaml)) : Yaml :=
  if entries.isEmpty then .null else .map entries

def get (node : Yaml) (key : Text) : Except Fault (Option Yaml) :=
  match node with
  | .map entries => .ok (entries.lookup key)
  | .scalar _ => .error .badSubscript
  | .null | .seq _ => .ok none

def asString : Yaml → Except Fault Text
  | .scalar text => .ok text
  | _ => .error .badConversion

/-- The nodes `node[0]`, …, `node[node.size() - 1]`. In a map they are looked up by number,
and one that is missing throws as soon as it is used. This is simpler than the library, which
converts the keys and also takes a `007` or a `0x7` for the number. -/
def elements : Yaml → Except Fault (List Yaml)
  | .seq items => .ok items
  | .map entries => (List.range entries.length).mapM fun i =>
      match entries.lookup (Lib.Numerals.decimal i) with
      | some node => .ok node
      | none => .error .invalidNode
  | .null | .scalar _ => .ok []

def textOr (node : Yaml) (key default : Text) : Except Fault Text := do
  match ← node.get key with
  | some value => value.asString
  | none => .ok default

def elementsAt (node : Yaml) (key : Text) : Except Fault (List Yaml) := do
  match ← node.get key with
  | some value => value.elements
  | none => .ok []

end Yaml

end Sylar
