import Mathlib.Data.List.Infix
import Sylar.Config.Yaml

/-! `Config::LoadFromYaml`: the document is flattened to a list of names and nodes, and the
variables that are registered under these names are set. -/
namespace Sylar

def nameChars : Text :=
  .ofChars ['a', 'b', 'c', 'd', 'e', 'f', 'g', 'h', 'i', 'j', 'k', 'l', 'm', 'n', 'o', 'p', 'q', 'r',
    's', 't', 'u', 'v', 'w', 'x', 'y', 'z', '.', '_', '0', '1', '2', '3', '4', '5', '6', '7', '8']

/-- `find_first_not_of` finds nothing. -/
def isName (name : Text) : Bool := name.all nameChars.contains

def towlower (b : UInt8) : UInt8 := if 65 ≤ b ∧ b ≤ 90 then b + 32 else b

def lower (name : Text) : Text := name.map towlower

structure Config where
  datas : List Text
  valid : ∀ n ∈ datas, isName n = true

/-- A node of a document: the numbers of the entries that lead to it, and its content. -/
structure Node where
  position : List Nat
  value : Yaml

namespace Config

inductive Fault where
  | invalidArgument (name : Text)
  deriving DecidableEq, Repr

/-- `Lookup` with a default value registers a name that is new. -/
def lookup (c : Config) (name : Text) : Except Fault Config :=
  if name ∈ c.datas then .ok c
  else if h : isName name = true then
    .ok ⟨c.datas ++ [name], by
      intro n hn
      rcases List.mem_append.mp hn with hn | hn
      · exact c.valid n hn
      · rw [List.mem_singleton.mp hn]
        exact h⟩
  else .error (.invalidArgument name)

def extend (pre key : Text) : Text := if pre.isEmpty then key else pre ++ [46] ++ key

mutual

def listAllMember (pre : Text) (position : List Nat) : Yaml → List (Text × Node)
  | .map entries =>
    if !isName pre then []
    else (pre, ⟨position, .map entries⟩) :: listEntries pre position 0 entries
  | node => if !isName pre then [] else [(pre, ⟨position, node⟩)]

def listEntries (pre : Text) (position : List Nat) (i : Nat) :
    List (Text × Yaml) → List (Text × Node)
  | [] => []
  | (key, node) :: entries =>
    listAllMember (extend pre key) (position ++ [i]) node ++ listEntries pre position (i + 1) entries

end

/-- A call of `fromString` on the variable `name`, for a node of the document. -/
structure Call where
  name : Text
  node : Node
  text : Text

/-- What `fromString` is given; `emit` writes a node that is no scalar. -/
def textOf (emit : Yaml → Text) : Yaml → Text
  | .scalar text => text
  | node => emit node

def loadFromYaml (c : Config) (emit : Yaml → Text) (root : Yaml) : List Call :=
  (listAllMember [] [] root).filterMap fun i =>
    if i.1.isEmpty then none
    else
      let key := lower i.1
      if key ∈ c.datas then some ⟨key, i.2, textOf emit i.2.value⟩ else none

end Config

namespace Yaml

mutual

/-- The nodes of a document in pre-order, with the keys that lead to them. -/
def nodes (path : List Text) (position : List Nat) : Yaml → List (List Text × Node)
  | .map entries => (path, ⟨position, .map entries⟩) :: entryNodes path position 0 entries
  | node => [(path, ⟨position, node⟩)]

def entryNodes (path : List Text) (position : List Nat) (i : Nat) :
    List (Text × Yaml) → List (List Text × Node)
  | [] => []
  | (key, node) :: entries =>
    nodes (path ++ [key]) (position ++ [i]) node ++ entryNodes path position (i + 1) entries

end

theorem map_induction {P : Yaml → Prop} (leaf : ∀ node, (∀ entries, node ≠ .map entries) → P node)
    (map : ∀ entries, (∀ e ∈ entries, P e.2) → P (.map entries)) : ∀ node, P node
  | .null => leaf _ nofun
  | .scalar _ => leaf _ nofun
  | .seq _ => leaf _ nofun
  | .map entries => map entries fun e _ => map_induction leaf map e.2
decreasing_by
  have hlt := List.sizeOf_lt_of_mem ‹e ∈ entries›
  obtain ⟨key, node⟩ := e
  simp only [Prod.mk.sizeOf_spec, Yaml.map.sizeOf_spec] at hlt ⊢
  omega

theorem nodes_leaf {node : Yaml} (h : ∀ entries, node ≠ .map entries) (path : List Text)
    (position : List Nat) : node.nodes path position = [(path, ⟨position, node⟩)] := by
  cases node with
  | map entries => exact absurd rfl (h entries)
  | null | scalar _ | seq _ =>
    rw [nodes]
    exact nofun

theorem entryNodes_eq_flatMap (path : List Text) (position : List Nat) (i : Nat)
    (entries : List (Text × Yaml)) : entryNodes path position i entries =
      (entries.zipIdx i).flatMap fun e => e.1.2.nodes (path ++ [e.1.1]) (position ++ [e.2]) := by
  induction entries generalizing i with
  | nil => rfl
  | cons entry entries ih => rw [entryNodes, ih, List.zipIdx_cons, List.flatMap_cons]

def dotted (path : List Text) : Text := List.intercalate [46] path

end Yaml

namespace Config

open Yaml

variable (c : Config) (emit : Yaml → Text) (root : Yaml)

/-- Every registered variable is set once for each node whose path is its name, in
pre-order, and no other is. -/
def Loads : Prop :=
  (∀ n ∈ c.datas, (c.loadFromYaml emit root).filter (·.name = n) =
    ((root.nodes [] []).filter fun x => lower (dotted x.1) = n).map
      fun x => ⟨n, x.2, textOf emit x.2.value⟩) ∧
  ∀ call ∈ c.loadFromYaml emit root, call.name ∈ c.datas

def name (path : List Text) : Text := path.foldl extend []

/-- A path that is looked for is spelled as the variable is, and one that begins with an
empty key leads to no variable. -/
def Plain (path : List Text) : Prop :=
  (lower (dotted path) ∈ c.datas → path.headD [] ≠ [] ∧ lower (dotted path) = dotted path) ∧
    (path.headD [] = [] → name path ≠ [] → name path ∉ c.datas)

section Names

variable {c emit root} {path path' : List Text} {pre key : Text} {x y : List Text × Node}

@[simp] theorem name_append (path : List Text) (key : Text) :
    name (path ++ [key]) = extend (name path) key := by
  unfold name
  rw [List.foldl_append]
  rfl

theorem isName_extend (h : isName (extend pre key) = true) : isName pre = true := by
  unfold extend at h
  split at h
  case isTrue hempty =>
    rw [List.isEmpty_iff.mp hempty]
    rfl
  case isFalse =>
    unfold isName at h ⊢
    rw [List.append_assoc, List.all_append, Bool.and_eq_true] at h
    exact h.1

theorem isName_front (hpre : path <+: path') (h : isName (name path') = true) :
    isName (name path) = true := by
  obtain ⟨rest, rfl⟩ := hpre
  induction rest using List.reverseRecOn with
  | nil => rwa [List.append_nil] at h
  | append_singleton rest key ih =>
    rw [← List.append_assoc, name_append] at h
    exact ih (isName_extend h)

theorem extend_ne_nil (h : pre ≠ []) : extend pre key = pre ++ [46] ++ key := by
  unfold extend
  rw [if_neg (by simpa using h)]

theorem foldl_extend (h : pre ≠ []) (path : List Text) :
    path.foldl extend pre = pre ++ path.flatMap fun key => 46 :: key := by
  induction path generalizing pre with
  | nil => simp
  | cons key path ih =>
    rw [List.foldl_cons, extend_ne_nil h, ih (by simp)]
    simp

theorem dotted_cons (key : Text) (path : List Text) :
    dotted (key :: path) = key ++ path.flatMap fun key => 46 :: key := by
  unfold dotted
  induction path generalizing key with
  | nil => simp
  | cons key' path ih =>
    rw [List.intercalate_cons_cons, ih]
    simp

theorem name_eq_dotted (h : path.headD [] ≠ []) : name path = dotted path := by
  cases path with
  | nil => exact absurd rfl h
  | cons key path =>
    rw [dotted_cons]
    exact foldl_extend h path

@[simp] theorem name_nil_cons (path : List Text) : name ([] :: path) = name path := rfl

theorem length_name_le (path : List Text) : (name path).length ≤ (dotted path).length := by
  induction path with
  | nil => exact Nat.le_refl _
  | cons key path ih =>
    by_cases hkey : key = []
    · subst hkey
      cases path with
      | nil => exact Nat.zero_le _
      | cons key path =>
        rw [name_nil_cons]
        refine ih.trans ?_
        unfold dotted
        rw [List.intercalate_cons_cons]
        simp
    · rw [name_eq_dotted (by simpa using hkey)]

theorem name_ne_of_head (hhead : path.headD [] = []) (hne : name path ≠ []) :
    name path ≠ lower (dotted path) := by
  cases path with
  | nil => exact absurd rfl hne
  | cons key path =>
    obtain rfl : key = [] := hhead
    cases path with
    | nil => exact absurd rfl hne
    | cons key path =>
      intro heq
      have hlen := length_name_le (key :: path)
      rw [← name_nil_cons, heq] at hlen
      unfold dotted lower at hlen
      rw [List.intercalate_cons_cons] at hlen
      simp at hlen

theorem towlower_nameChars : nameChars.all (fun b => towlower b = b) = true := by decide

theorem lower_of_isName (h : isName pre = true) : lower pre = pre := by
  refine (List.map_congr_left fun b hb => ?_).trans (List.map_id pre)
  have hmem : b ∈ nameChars := by simpa using List.all_eq_true.mp h b hb
  simpa using List.all_eq_true.mp towlower_nameChars b hmem

end Names

section Listing

variable {c emit root} {x y : List Text × Node}

theorem mem_entryNodes {path : List Text} {position : List Nat} {entries : List (Text × Yaml)} :
    x ∈ entryNodes path position 0 entries ↔ ∃ j, ∃ e : Text × Yaml, entries[j]? = some e ∧
      x ∈ e.2.nodes (path ++ [e.1]) (position ++ [j]) := by
  rw [entryNodes_eq_flatMap, List.mem_flatMap]
  constructor
  · rintro ⟨⟨e, j⟩, he, hx⟩
    exact ⟨j, e, List.mk_mem_zipIdx_iff_getElem?.mp he, hx⟩
  · rintro ⟨j, e, he, hx⟩
    exact ⟨(e, j), List.mk_mem_zipIdx_iff_getElem?.mpr he, hx⟩

theorem below_of_mem_nodes {path : List Text} {position : List Nat} (node : Yaml)
    (h : x ∈ node.nodes path position) :
    path <+: x.1 ∧ position <+: x.2.position := by
  induction node using map_induction generalizing path position with
  | leaf node hleaf =>
    obtain rfl := List.mem_singleton.mp (nodes_leaf hleaf path position ▸ h)
    exact ⟨List.prefix_rfl, List.prefix_rfl⟩
  | map entries ih =>
    rw [nodes, List.mem_cons] at h
    rcases h with rfl | h
    · exact ⟨List.prefix_rfl, List.prefix_rfl⟩
    · obtain ⟨j, e, he, h⟩ := mem_entryNodes.mp h
      obtain ⟨hpath, hposition⟩ := ih e (List.mem_of_getElem? he) h
      exact ⟨(List.prefix_append _ _).trans hpath, (List.prefix_append _ _).trans hposition⟩

theorem eq_of_position_nodes {path : List Text} {position : List Nat} (node : Yaml)
    (hx : x ∈ node.nodes path position) (hy : y ∈ node.nodes path position)
    (heq : x.2.position = y.2.position) : x = y := by
  induction node using map_induction generalizing path position with
  | leaf node hleaf =>
    rw [nodes_leaf hleaf, List.mem_singleton] at hx hy
    rw [hx, hy]
  | map entries ih =>
    -- the node itself stands above its entries
    have hshort : ∀ z ∈ entryNodes path position 0 entries, z.2.position ≠ position := by
      intro z hz hposition
      obtain ⟨j, e, -, hz⟩ := mem_entryNodes.mp hz
      have hlen := (below_of_mem_nodes e.2 hz).2.length_le
      rw [hposition, List.length_append] at hlen
      exact absurd hlen (Nat.not_succ_le_self _)
    rw [nodes, List.mem_cons] at hx hy
    rcases hx with rfl | hx
    · rcases hy with rfl | hy
      · rfl
      · exact absurd heq.symm (hshort y hy)
    rcases hy with rfl | hy
    · exact absurd heq (hshort x hx)
    -- the positions tell the number of the entry
    obtain ⟨j, e, he, hx⟩ := mem_entryNodes.mp hx
    obtain ⟨j', e', he', hy⟩ := mem_entryNodes.mp hy
    have hj := heq ▸ (below_of_mem_nodes e.2 hx).2
    have hj' := (below_of_mem_nodes e'.2 hy).2
    have hsame := (List.prefix_of_prefix_length_le hj hj' (by simp)).eq_of_length (by simp)
    obtain rfl : j = j' := by simpa using hsame
    obtain rfl : e = e' := Option.some.inj (he.symm.trans he')
    exact ih e (List.mem_of_getElem? he) hx hy

def listed (x : List Text × Node) : Option (Text × Node) :=
  if isName (name x.1) then some (name x.1, x.2) else none

theorem filterMap_listed_eq_nil {path : List Text} {l : List (List Text × Node)}
    (hname : isName (name path) = false) (hbelow : ∀ x ∈ l, path <+: x.1) :
    l.filterMap listed = [] := by
  rw [List.filterMap_eq_nil_iff]
  intro x hx
  have hfalse : ¬ isName (name x.1) = true := by
    intro htrue
    rw [isName_front (hbelow x hx) htrue] at hname
    cases hname
  exact if_neg hfalse

theorem listEntries_eq_flatMap (pre : Text) (position : List Nat) (i : Nat)
    (entries : List (Text × Yaml)) : listEntries pre position i entries =
      (entries.zipIdx i).flatMap fun e =>
        listAllMember (extend pre e.1.1) (position ++ [e.2]) e.1.2 := by
  induction entries generalizing i with
  | nil => rfl
  | cons entry entries ih => rw [listEntries, ih, List.zipIdx_cons, List.flatMap_cons]

theorem listAllMember_eq (path : List Text) (position : List Nat) (node : Yaml) :
    listAllMember (name path) position node = (node.nodes path position).filterMap listed := by
  induction node using map_induction generalizing path position with
  | leaf node hleaf =>
    rw [nodes_leaf hleaf, List.filterMap_cons, List.filterMap_nil]
    cases node with
    | map entries => exact absurd rfl (hleaf entries)
    | null | scalar _ | seq _ =>
      cases hname : isName (name path) <;> simp [listAllMember, listed, hname]
  | map entries ih =>
    cases hname : isName (name path) with
    | false =>
      rw [filterMap_listed_eq_nil hname fun x hx => (below_of_mem_nodes _ hx).1]
      simp [listAllMember, hname]
    | true =>
      have hentries : listEntries (name path) position 0 entries =
          (entryNodes path position 0 entries).filterMap listed := by
        rw [listEntries_eq_flatMap, entryNodes_eq_flatMap, List.filterMap_flatMap]
        refine List.flatMap_congr fun e he => ?_
        rw [← name_append, ih e.1 (List.fst_mem_of_mem_zipIdx he)]
      rw [listAllMember, nodes, List.filterMap_cons, hentries]
      simp [listed, hname]

end Listing

section Calls

variable {path : List Text} {n : Text}

def called (path : List Text) : Option Text :=
  if name path ≠ [] ∧ name path ∈ c.datas then some (name path) else none

def wanted (path : List Text) : Option Text :=
  if lower (dotted path) ∈ c.datas then some (lower (dotted path)) else none

theorem loadFromYaml_eq :
    c.loadFromYaml emit root = (root.nodes [] []).filterMap fun x =>
      (c.called x.1).map fun key => ⟨key, x.2, textOf emit x.2.value⟩ := by
  unfold loadFromYaml
  rw [show ([] : Text) = name [] from rfl, listAllMember_eq, List.filterMap_filterMap]
  congr 1
  funext x
  unfold listed called
  cases hname : isName (name x.1) with
  | false =>
    have hnot : name x.1 ∉ c.datas := by
      intro hmem
      rw [c.valid _ hmem] at hname
      cases hname
    simp [hnot]
  | true =>
    simp only [if_true, Option.bind_some, lower_of_isName hname, List.isEmpty_iff]
    by_cases hempty : name x.1 = []
    · simp [hempty]
    · by_cases hmem : name x.1 ∈ c.datas <;> simp [hempty, hmem]

theorem filter_loadFromYaml (n : Text) :
    (c.loadFromYaml emit root).filter (·.name = n) =
      ((root.nodes [] []).filter fun x => c.called x.1 = some n).map
        fun x => ⟨n, x.2, textOf emit x.2.value⟩ := by
  rw [loadFromYaml_eq]
  induction root.nodes [] [] with
  | nil => rfl
  | cons x l ih =>
    rw [List.filterMap_cons, List.filter_cons]
    cases hcalled : c.called x.1 with
    | none => simpa using ih
    | some key =>
      simp only [Option.map_some, List.filter_cons, Option.some_inj]
      by_cases hkey : key = n
      · subst hkey
        simpa using ih
      · simpa [hkey] using ih

variable {c emit root}

theorem wanted_eq_some (hn : n ∈ c.datas) : c.wanted path = some n ↔ lower (dotted path) = n := by
  unfold wanted
  constructor
  · intro h
    exact (Option.ite_none_right_eq_some.mp h).2 |> Option.some.inj
  · rintro rfl
    rw [if_pos hn]

theorem mem_of_called (h : c.called path = some n) : n ∈ c.datas := by
  obtain ⟨hmem, heq⟩ := Option.ite_none_right_eq_some.mp h
  rw [← Option.some.inj heq]
  exact hmem.2

theorem mem_of_wanted (h : c.wanted path = some n) : n ∈ c.datas := by
  obtain ⟨hmem, heq⟩ := Option.ite_none_right_eq_some.mp h
  rw [← Option.some.inj heq]
  exact hmem

theorem called_eq_wanted_of_head (hhead : path.headD [] = []) :
    c.called path = c.wanted path ↔ c.Plain path := by
  unfold called wanted Plain
  by_cases hlow : lower (dotted path) ∈ c.datas
  · rw [if_pos hlow]
    refine iff_of_false ?_ fun h => (h.1 hlow).1 hhead
    intro h
    obtain ⟨⟨hne, -⟩, heq⟩ := Option.ite_none_right_eq_some.mp h
    exact name_ne_of_head hhead hne (Option.some.inj heq)
  · rw [if_neg hlow]
    constructor
    · intro h
      refine ⟨fun hmem => absurd hmem hlow, fun _ hne hmem => ?_⟩
      rw [if_pos ⟨hne, hmem⟩] at h
      cases h
    · rintro ⟨-, hlost⟩
      rw [if_neg fun h => hlost hhead h.1 h.2]

theorem called_eq_wanted_of_key (hhead : path.headD [] ≠ []) :
    c.called path = c.wanted path ↔ c.Plain path := by
  have hne : dotted path ≠ [] := by
    cases path with
    | nil => exact absurd rfl hhead
    | cons key path =>
      rw [dotted_cons]
      exact List.append_ne_nil_of_left_ne_nil hhead _
  unfold called wanted Plain
  rw [name_eq_dotted hhead]
  by_cases hlow : lower (dotted path) ∈ c.datas
  · rw [if_pos hlow]
    constructor
    · intro h
      obtain ⟨-, heq⟩ := Option.ite_none_right_eq_some.mp h
      exact ⟨fun _ => ⟨hhead, (Option.some.inj heq).symm⟩, fun h => absurd h hhead⟩
    · intro h
      obtain ⟨-, hsame⟩ := h.1 hlow
      rw [hsame] at hlow ⊢
      rw [if_pos ⟨hne, hlow⟩]
  · have hnot : dotted path ∉ c.datas := by
      intro hmem
      rw [lower_of_isName (c.valid _ hmem)] at hlow
      exact hlow hmem
    rw [if_neg hlow, if_neg fun h => hnot h.2]
    exact iff_of_true rfl ⟨fun h => absurd h hlow, fun h => absurd h hhead⟩

theorem called_eq_wanted_iff : c.called path = c.wanted path ↔ c.Plain path := by
  by_cases hhead : path.headD [] = []
  · exact called_eq_wanted_of_head hhead
  · exact called_eq_wanted_of_key hhead

theorem map_filter_eq_iff (n : Text) {p q : List Text × Node → Bool} :
    ((root.nodes [] []).filter p).map (fun x => (⟨n, x.2, textOf emit x.2.value⟩ : Call)) =
        ((root.nodes [] []).filter q).map (fun x => ⟨n, x.2, textOf emit x.2.value⟩) ↔
      ∀ x ∈ root.nodes [] [], p x = q x := by
  constructor
  · intro h x hx
    have hcalls : ∀ p' q' : List Text × Node → Bool,
        ((root.nodes [] []).filter p').map (fun x => (⟨n, x.2, textOf emit x.2.value⟩ : Call)) =
          ((root.nodes [] []).filter q').map (fun x => ⟨n, x.2, textOf emit x.2.value⟩) →
        p' x = true → q' x = true := by
      intro p' q' h hp
      have hmem := List.mem_map_of_mem (f := fun x => (⟨n, x.2, textOf emit x.2.value⟩ : Call))
        (List.mem_filter.mpr ⟨hx, hp⟩)
      rw [h] at hmem
      obtain ⟨y, hy, heq⟩ := List.mem_map.mp hmem
      obtain ⟨hy, hq⟩ := List.mem_filter.mp hy
      have hposition : y.2.position = x.2.position := by
        have hnode := congrArg Call.node heq
        exact congrArg Node.position hnode
      rw [← eq_of_position_nodes root hy hx hposition]
      exact hq
    exact Bool.eq_iff_iff.mpr ⟨hcalls p q h, hcalls q p h.symm⟩
  · intro h
    rw [List.filter_congr h]

/-- Keys with capital letters are dropped before they are lowered, with all that is below
them; and empty keys at the front of a path are lost. -/
theorem loads_iff : c.Loads emit root ↔ ∀ x ∈ root.nodes [] [], c.Plain x.1 := by
  have hnames : ∀ call ∈ c.loadFromYaml emit root, call.name ∈ c.datas := by
    intro call hcall
    rw [loadFromYaml_eq] at hcall
    obtain ⟨x, -, hx⟩ := List.mem_filterMap.mp hcall
    obtain ⟨key, hkey, rfl⟩ := Option.map_eq_some_iff.mp hx
    exact mem_of_called hkey
  have hchoice : ∀ n ∈ c.datas, ((c.loadFromYaml emit root).filter (·.name = n) =
      ((root.nodes [] []).filter fun x => lower (dotted x.1) = n).map
        fun x => ⟨n, x.2, textOf emit x.2.value⟩) ↔
      ∀ x ∈ root.nodes [] [], c.called x.1 = some n ↔ c.wanted x.1 = some n := by
    intro n hn
    rw [filter_loadFromYaml, map_filter_eq_iff]
    refine forall₂_congr fun x _ => ?_
    rw [wanted_eq_some hn, decide_eq_decide]
  constructor
  · rintro ⟨hset, -⟩ x hx
    rw [← called_eq_wanted_iff]
    have hiff : ∀ n ∈ c.datas, c.called x.1 = some n ↔ c.wanted x.1 = some n := fun n hn =>
      (hchoice n hn).mp (hset n hn) x hx
    ext n
    constructor
    · intro h
      exact (hiff n (mem_of_called h)).mp h
    · intro h
      exact (hiff n (mem_of_wanted h)).mpr h
  · intro hplain
    refine ⟨fun n hn => (hchoice n hn).mpr fun x hx => ?_, hnames⟩
    rw [called_eq_wanted_iff.mpr (hplain x hx)]

end Calls

section Example

def oneVariable : Config := ⟨[.ofChars ['a']], by decide⟩

/-- In the document `A: 1`. -/
theorem loadFromYaml_drops_capital :
    ¬ oneVariable.Loads (fun _ => []) (.map [(.ofChars ['A'], .scalar (.ofChars ['1']))]) := by
  rintro ⟨hset, -⟩
  have hcalls := congrArg List.length (hset (.ofChars ['a']) (by decide))
  exact absurd hcalls (by decide)

end Example

end Config

end Sylar
