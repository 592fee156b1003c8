import Mathlib.Data.List.TakeWhile
import Sylar.Address.Prefix
import Sylar.Lib.Rfc4291

/-! The text that `IPv6Address::insert` writes. One pass over the groups leaves out the first run
of zeros: the colon that stands for it is written with the next group, or after the loop if
there is none. -/
namespace Sylar.IPv6Address

open IPAddress Lib.Rfc4291
open Lib.IntCodec (ofBytesLE bytesLE_ofBytesLE toNat_swapBytes)
open Lib.Numerals (decimal value_decimal isDigit_decimal)

section Definitions

variable (host : Endian)

/-- `(uint16_t *)s6_addr`: the bytes in pairs, each an integer of the machine. -/
def words : List UInt8 → List (BitVec 16)
  | b₀ :: b₁ :: bs => BitVec.ofNat 16 (ByteArray.objectValue host [b₀, b₁]) :: words bs
  | _ => []

/-- The loop from the group after `previous` on, with the flag `used_zeros`: what it writes, and
the flag at its end. -/
def insertLoop : Option (BitVec 16) → Bool → List (BitVec 16) → List UInt8 × Bool
  | _, usedZeros, [] => ([], usedZeros)
  | previous, usedZeros, group :: rest =>
    if group = 0#16 ∧ usedZeros = false then insertLoop (some group) usedZeros rest
    else
      let skipped := previous = some 0#16 ∧ usedZeros = false
      let (text, used) := insertLoop (some group) (usedZeros || decide skipped) rest
      ((if skipped then [58] else []) ++ (if previous.isSome then [58] else []) ++
        hexadecimal (byteswapOnLittleEndian host 2 group).toNat ++ text, used)

def insertGroups (addr : List (BitVec 16)) : List UInt8 :=
  let (text, usedZeros) := insertLoop host none false addr
  if usedZeros = false ∧ addr.getLast? = some 0#16 then text ++ [58, 58] else text

def getPort (a : IPv6Address) : BitVec 16 := byteswapOnLittleEndian host 2 a.sin6Port

def insert (a : IPv6Address) : List UInt8 :=
  91 :: insertGroups host (words host a.s6Addr.toList) ++ [93, 58] ++ decimal (a.getPort host).toNat

end Definitions

section Groups

variable {host : Endian}

def value (host : Endian) (w : BitVec 16) : Nat := (byteswapOnLittleEndian host 2 w).toNat

theorem value_lt (w : BitVec 16) : value host w < 65536 := (byteswapOnLittleEndian host 2 w).isLt

@[simp] theorem value_zero : value host 0#16 = 0 := by
  cases host with
  | little => rfl
  | big => rfl

theorem value_word (b₀ b₁ : UInt8) :
    value host (BitVec.ofNat 16 (ByteArray.objectValue host [b₀, b₁])) =
      256 * b₀.toNat + b₁.toNat := by
  have h₀ := b₀.toNat_lt
  have h₁ := b₁.toNat_lt
  have hpair : ∀ b b' : UInt8, ofBytesLE [b, b'] = b.toNat + 256 * b'.toNat := fun b b' => by
    simp [ofBytesLE]
  cases host with
  | little =>
    have hlow : (BitVec.ofNat (8 * 2) (ofBytesLE [b₀, b₁])).toNat = ofBytesLE [b₀, b₁] := by
      rw [BitVec.toNat_ofNat, hpair]
      omega
    have hbytes := bytesLE_ofBytesLE [b₀, b₁]
    have hswap := toNat_swapBytes 2 (BitVec.ofNat (8 * 2) (ofBytesLE [b₀, b₁]))
    rw [hlow, show (2 : Nat) = [b₀, b₁].length from rfl, hbytes] at hswap
    refine hswap.trans ?_
    rw [List.reverse_cons, List.reverse_cons, List.reverse_nil]
    exact (hpair b₁ b₀).trans (Nat.add_comm _ _)
  | big =>
    have hvalue : value .big (BitVec.ofNat 16 (ByteArray.objectValue .big [b₀, b₁])) =
        ofBytesLE [b₁, b₀] % 2 ^ 16 := rfl
    rw [hvalue, hpair]
    omega

theorem bytes_words {l : List UInt8} (h : l.length % 2 = 0) :
    bytes ((words host l).map (value host)) = l := by
  induction l using words.induct with
  | case1 b₀ b₁ bs ih =>
    have hrest : bs.length % 2 = 0 := by
      simp only [List.length_cons] at h
      omega
    have hhigh : UInt8.ofNat ((256 * b₀.toNat + b₁.toNat) / 256) = b₀ := by
      have h₁ := b₁.toNat_lt
      rw [show (256 * b₀.toNat + b₁.toNat) / 256 = b₀.toNat by omega, UInt8.ofNat_toNat]
    have hlow : UInt8.ofNat (256 * b₀.toNat + b₁.toNat) = b₁ := by
      apply UInt8.toNat_inj.mp
      have h₁ := b₁.toNat_lt
      rw [UInt8.toNat_ofNat']
      omega
    have hstep := ih hrest
    unfold bytes at hstep ⊢
    rw [words, List.map_cons, List.flatMap_cons, value_word, hhigh, hlow, hstep]
    rfl
  | case2 l hl =>
    match l, hl, h with
    | [], _, _ => rfl
    | b₀ :: b₁ :: bs, hl, _ => exact absurd rfl (hl b₀ b₁ bs)

@[simp] theorem length_words (l : List UInt8) : (words host l).length = l.length / 2 := by
  induction l using words.induct with
  | case1 b₀ b₁ bs ih =>
    rw [words, List.length_cons, ih, List.length_cons, List.length_cons]
    omega
  | case2 l hl =>
    match l, hl with
    | [], _ => rfl
    | [b₀], _ => simp [words]
    | b₀ :: b₁ :: bs, hl => exact absurd rfl (hl b₀ b₁ bs)

end Groups

section Loop

variable {host : Endian} {previous : Option (BitVec 16)} {w : BitVec 16}
  {ws rest : List (BitVec 16)}

def tail (host : Endian) (ws : List (BitVec 16)) : List UInt8 :=
  ws.flatMap fun w => 58 :: hexadecimal (value host w)

theorem join_values (w : BitVec 16) (ws : List (BitVec 16)) :
    join ((w :: ws).map (value host)) = hexadecimal (value host w) ++ tail host ws := by
  rw [List.map_cons, join_cons, List.flatMap_map]
  rfl

theorem insertLoop_used (p : BitVec 16) (ws : List (BitVec 16)) :
    insertLoop host (some p) true ws = (tail host ws, true) := by
  induction ws generalizing p with
  | nil => rfl
  | cons w ws ih =>
    unfold insertLoop
    simp only [ih, Bool.true_eq_false, and_false, if_false, Bool.true_or]
    rfl

@[simp] theorem insertLoop_zero (previous : Option (BitVec 16)) (ws : List (BitVec 16)) :
    insertLoop host previous false (0#16 :: ws) = insertLoop host (some 0#16) false ws := by
  conv => lhs; unfold insertLoop
  rw [if_pos ⟨rfl, rfl⟩]

theorem insertLoop_zeros (z : Nat) (ws : List (BitVec 16)) :
    insertLoop host (some 0#16) false (List.replicate z 0#16 ++ ws) =
      insertLoop host (some 0#16) false ws := by
  induction z with
  | zero => rfl
  | succ z ih => rw [List.replicate_succ, List.cons_append, insertLoop_zero, ih]

theorem insertLoop_after (hw : w ≠ 0#16) (ws : List (BitVec 16)) :
    insertLoop host (some 0#16) false (w :: ws) =
      (58 :: 58 :: join ((w :: ws).map (value host)), true) := by
  conv => lhs; unfold insertLoop
  simp only [hw, false_and, if_false, and_self, if_true, decide_true, Bool.or_true,
    insertLoop_used, join_values]
  rfl

theorem insertLoop_group (hw : w ≠ 0#16) (hprevious : previous ≠ some 0#16)
    (ws : List (BitVec 16)) : insertLoop host previous false (w :: ws) =
      ((if previous.isSome then [58] else []) ++ hexadecimal (value host w) ++
        (insertLoop host (some w) false ws).1, (insertLoop host (some w) false ws).2) := by
  conv => lhs; unfold insertLoop
  simp only [hw, false_and, if_false, hprevious, decide_false, Bool.or_false, List.nil_append]
  rfl

/-- Groups that are not zero are written out, up to a place where the loop no longer looks at the
group before it. -/
theorem insertLoop_before {x : List UInt8 × Bool} (hws : ∀ w ∈ ws, w ≠ 0#16)
    (hrest : ∀ previous, insertLoop host previous false rest = x) :
    insertLoop host none false (ws ++ rest) = (join (ws.map (value host)) ++ x.1, x.2) := by
  have hfollow : ∀ (p : BitVec 16) (ws : List (BitVec 16)), p ≠ 0#16 → (∀ w ∈ ws, w ≠ 0#16) →
      insertLoop host (some p) false (ws ++ rest) = (tail host ws ++ x.1, x.2) := by
    intro p ws hp hws
    induction ws generalizing p with
    | nil => exact hrest (some p)
    | cons w ws ih =>
      obtain ⟨hw, hws⟩ := List.forall_mem_cons.mp hws
      have hne : some p ≠ some 0#16 := fun h => hp (Option.some.inj h)
      rw [List.cons_append, insertLoop_group hw hne, ih w hw hws]
      simp [tail]
  cases ws with
  | nil => exact hrest none
  | cons w ws =>
    obtain ⟨hw, hws⟩ := List.forall_mem_cons.mp hws
    rw [List.cons_append, insertLoop_group hw (by simp), hfollow w ws hw hws, join_values]
    simp

/-- A list is what comes before its first zero, that zero and those that follow it, and a rest
that begins with none. -/
theorem exists_run {ws : List (BitVec 16)} (h : 0#16 ∈ ws) :
    ∃ before z after, ws = before ++ 0#16 :: (List.replicate z 0#16 ++ after) ∧
      (∀ w ∈ before, w ≠ 0#16) ∧ after.head? ≠ some 0#16 := by
  obtain ⟨before, rest, rfl, hbefore⟩ := List.eq_append_cons_of_mem h
  have hzeros : rest.takeWhile (· == 0#16) =
      List.replicate (rest.takeWhile (· == 0#16)).length 0#16 := by
    apply List.eq_replicate_of_mem
    intro w hw
    have hzero : (w == 0#16) = true := List.mem_takeWhile_imp (p := (· == 0#16)) hw
    exact beq_iff_eq.mp hzero
  refine ⟨before, (rest.takeWhile (· == 0#16)).length, rest.dropWhile (· == 0#16), ?_, ?_, ?_⟩
  · rw [← hzeros, List.takeWhile_append_dropWhile]
  · intro w hw hzero
    exact hbefore (hzero ▸ hw)
  · intro hhead
    have hnot := List.head?_dropWhile_not (· == 0#16) rest
    rw [hhead] at hnot
    simp at hnot

theorem insertGroups_eq {text : List UInt8} {used : Bool}
    (h : insertLoop host none false ws = (text, used)) : insertGroups host ws =
      if used = false ∧ ws.getLast? = some 0#16 then text ++ [58, 58] else text := by
  unfold insertGroups
  rw [h]

theorem insertGroups_cases (host : Endian) (ws : List (BitVec 16)) :
    insertGroups host ws = join (ws.map (value host)) ∨
      ∃ before z after, ws = before ++ 0#16 :: (List.replicate z 0#16 ++ after) ∧
        insertGroups host ws =
          join (before.map (value host)) ++ 58 :: 58 :: join (after.map (value host)) := by
  by_cases hzero : 0#16 ∈ ws
  · obtain ⟨before, z, after, rfl, hbefore, hafter⟩ := exists_run hzero
    refine .inr ⟨before, z, after, rfl, ?_⟩
    have hrun : ∀ previous,
        insertLoop host previous false (0#16 :: (List.replicate z 0#16 ++ after)) =
          insertLoop host (some 0#16) false after := fun previous => by
      rw [insertLoop_zero, insertLoop_zeros]
    rw [insertGroups_eq (insertLoop_before hbefore hrun)]
    cases after with
    | nil =>
      -- the colons of a run at the end are written after the loop
      have hlast : (before ++ 0#16 :: (List.replicate z 0#16 ++ [])).getLast? = some 0#16 := by
        rw [List.append_nil, ← List.replicate_succ, List.getLast?_append_of_ne_nil _ (by simp),
          List.getLast?_replicate, if_neg (Nat.succ_ne_zero z)]
      rw [if_pos ⟨rfl, hlast⟩]
      simp [insertLoop, join]
    | cons w ws =>
      have hw : w ≠ 0#16 := fun h => hafter (congrArg some h)
      rw [insertLoop_after hw, if_neg (by simp)]
  · have hws : ∀ w ∈ ws, w ≠ 0#16 := fun w hw h => hzero (h ▸ hw)
    have hlast : ws.getLast? ≠ some 0#16 := fun h => hzero (List.mem_of_getLast? h)
    have hend : ∀ previous, insertLoop host previous false [] = ([], false) := fun _ => rfl
    have hall := insertLoop_before hws hend
    rw [List.append_nil, List.append_nil] at hall
    left
    rw [insertGroups_eq hall, if_neg fun h => hlast h.2]

end Loop

section Law

variable {host : Endian} {ws : List (BitVec 16)} {text : List UInt8}

def bracketPart (text : List UInt8) : List UInt8 := (text.drop 1).takeWhile (· != 93)

theorem bracket_notMem_insertGroups (ws : List (BitVec 16)) : 93 ∉ insertGroups host ws := by
  rcases insertGroups_cases host ws with h | ⟨before, z, after, -, h⟩
  · rw [h]
    exact bracket_notMem_join _
  · rw [h]
    simp [bracket_notMem_join]

theorem parse_insertGroups (hlen : ws.length = 8) :
    parse (insertGroups host ws) = some (ws.map (value host)) := by
  have hlt : ∀ ws : List (BitVec 16), ∀ g ∈ ws.map (value host), g < 65536 := by
    intro ws g hg
    obtain ⟨w, -, rfl⟩ := List.mem_map.mp hg
    exact value_lt w
  rcases insertGroups_cases host ws with h | ⟨before, z, after, rfl, h⟩
  · rw [h, parse_join (hlt ws) (by rw [List.length_map, hlen])]
  · simp only [List.length_append, List.length_cons, List.length_replicate] at hlen
    have hzeros : 8 - (before.length + after.length) = z + 1 := by omega
    rw [h, parse_double (hlt before) (hlt after) (by simp only [List.length_map]; omega)]
    simp only [List.length_map, hzeros, List.map_append, List.map_cons, List.map_replicate,
      value_zero, List.replicate_succ, List.append_assoc, List.cons_append]

theorem doubles_insertGroups (ws : List (BitVec 16)) (htext : text.head? ≠ some 58) :
    doubles (insertGroups host ws ++ text) ≤ doubles text + 1 := by
  rcases insertGroups_cases host ws with h | ⟨before, z, after, -, h⟩
  · rw [h, doubles_join]
    exact Nat.le_succ _
  · have hhead := head?_join (after.map (value host)) htext
    rw [h, List.append_assoc, doubles_join, List.cons_append, List.cons_append, doubles,
      doubles_cons (.inr hhead), doubles_join]

theorem bracketPart_insert (a : IPv6Address) :
    bracketPart (a.insert host) = insertGroups host (words host a.s6Addr.toList) := by
  have hplain : ∀ b ∈ insertGroups host (words host a.s6Addr.toList), (b != 93) = true := by
    intro b hb
    have hne : b ≠ 93 := fun h => bracket_notMem_insertGroups _ (h ▸ hb)
    exact bne_iff_ne.mpr hne
  unfold bracketPart insert
  rw [List.cons_append, List.cons_append, List.drop_one, List.tail_cons, List.append_assoc,
    List.takeWhile_append_of_pos hplain]
  simp

theorem bytes_insert (a : IPv6Address) :
    (parse (bracketPart (a.insert host))).map bytes = some a.s6Addr.toList := by
  have hlen : a.s6Addr.toList.length = 16 := a.s6Addr.length_toList
  have hwords : (words host a.s6Addr.toList).length = 8 := by rw [length_words, hlen]
  rw [bracketPart_insert, parse_insertGroups hwords, Option.map_some, bytes_words (by rw [hlen])]

theorem doubles_insert (a : IPv6Address) : doubles (a.insert host) ≤ 1 := by
  have hdigit : ∀ b ∈ decimal (a.getPort host).toNat, b ≠ 58 := by
    intro b hb hcolon
    have hb' := isDigit_decimal _ b hb
    rw [hcolon] at hb'
    cases hb'
  have hport : doubles ([93, 58] ++ decimal (a.getPort host).toNat) = 0 := by
    have hhead : (decimal (a.getPort host).toNat).head? ≠ some 58 := fun h =>
      hdigit 58 (List.mem_of_mem_head? h) rfl
    have hend := doubles_append hdigit []
    rw [List.append_nil] at hend
    rw [List.cons_append, List.cons_append, List.nil_append, doubles_cons (.inl (by decide)),
      doubles_cons (.inr hhead), hend]
    rfl
  have hbracket : ([93, 58] ++ decimal (a.getPort host).toNat).head? ≠ some 58 := by simp
  have hgroups : doubles (insertGroups host (words host a.s6Addr.toList) ++ _) ≤ _ :=
    doubles_insertGroups _ hbracket
  unfold insert
  rw [List.cons_append, List.cons_append, doubles_cons (.inl (by decide)), List.append_assoc]
  omega

theorem port_insert {a b : IPv6Address} (h : b.insert host = a.insert host)
    (hpart : bracketPart (b.insert host) = bracketPart (a.insert host)) :
    b.getPort host = a.getPort host := by
  rw [bracketPart_insert, bracketPart_insert] at hpart
  unfold insert at h
  rw [hpart] at h
  have hport : decimal (b.getPort host).toNat = decimal (a.getPort host).toNat :=
    List.append_cancel_left h
  apply BitVec.eq_of_toNat_eq
  rw [← value_decimal (b.getPort host).toNat, hport, value_decimal]

end Law

/-- The part between the brackets is a text of the address after RFC 4291, the text holds at most
one `::`, and the text of another address or port is another one. -/
theorem insert_faithful (host : Endian) (a : IPv6Address) :
    (parse (bracketPart (a.insert host))).map bytes = some a.s6Addr.toList ∧
    doubles (a.insert host) ≤ 1 ∧
    ∀ b : IPv6Address, b.insert host = a.insert host →
      b.s6Addr = a.s6Addr ∧ b.getPort host = a.getPort host := by
  refine ⟨bytes_insert a, doubles_insert a, fun b h => ⟨?_, port_insert h (congrArg _ h)⟩⟩
  have hbytes : (parse (bracketPart (b.insert host))).map bytes = some b.s6Addr.toList :=
    bytes_insert b
  rw [h, bytes_insert] at hbytes
  exact (Vector.toList_inj.mp (Option.some.inj hbytes)).symm

example : documentation.insert .big =
    [91, 50, 48, 48, 49, 58, 100, 98, 56, 58, 58, 49, 93, 58, 56, 48] := by decide

end Sylar.IPv6Address
