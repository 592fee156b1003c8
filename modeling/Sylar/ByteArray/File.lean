import Sylar.ByteArray.Buffers

/-! Saving the unread bytes in a file and loading a file. The output stream is its content
and its `badbit`; the file system keeps the bytes it is given. -/
namespace Sylar.ByteArray

open Lib.Blocks

variable {b : Nat} {s : ByteArray}

structure Out where
  content : List UInt8
  bad : Bool

/-- `ofs.write(node->ptr + diff, len)`. A stream that is bad takes nothing; a negative length
writes nothing and makes it bad. -/
def Out.write (node : Node) (diff len : Int) (out : Out) : M Out :=
  if out.bad then
    pure out
  else if len < 0 then
    pure { out with bad := true }
  else if len = 0 then
    pure out
  else if 0 ≤ diff ∧ diff + len ≤ node.size then
    pure { out with content := out.content ++ (node.ptr.drop diff.toNat).take len.toNat }
  else
    throw .overrun

def offsetInt (n : Nat) : Int := (n : Int).bmod (2 ^ 32)

/-- The loop of `writeToFile`. `diff` is an `int`; the `int64_t` values count bytes in memory
and are taken as integers. Every pass follows the node pointer. -/
def saveLoop : Nat → Option Nat → Int → Int → Out → M Out
  | 0, _, _, _, _ => throw .diverges
  | fuel + 1, cur, pos, readSize, out => do
    if readSize > 0 then
      let s ← get
      let diff := offsetInt (pos.toNat % s.baseSize)
      let len := (if readSize > s.baseSize then (s.baseSize : Int) else readSize) - diff
      let node ← deref cur
      let out ← out.write node diff len
      let cur ← next cur
      saveLoop fuel cur (pos + len) (readSize - len) out
    else
      pure out

/-- `writeToFile`: the content of the file afterwards, or none where it cannot be opened and
the call returns false. -/
def writeToFile (opens : Bool) : M (Option (List UInt8)) := do
  if opens then
    let s ← get
    let out ← saveLoop (s.nodes.length + 1) s.cur s.position s.getReadSize ⟨[], false⟩
    pure (some out.content)
  else
    pure none

/-- The loop of `readFromFile`: the end of the file is noticed by a read that gets fewer
bytes than it asked for. -/
def loadLoop (heap : Heap) : Nat → List UInt8 → M Unit
  | 0, _ => throw .diverges
  | fuel + 1, rest => do
    let s ← get
    write heap (rest.take s.baseSize)
    if rest.length < s.baseSize then
      pure ()
    else
      loadLoop heap fuel (rest.drop s.baseSize)

/-- `readFromFile` of a file with this content, or of one that cannot be opened. -/
def readFromFile (heap : Heap) : Option (List UInt8) → M Bool
  | none => pure false
  | some content => do
    loadLoop heap (content.length + 1) content
    pure true

section Loading

variable {e : Endian}

/-- Every pass but the last reads a whole block, so the rest gets shorter. -/
theorem appends_loadLoop (hb : 1 ≤ b) (heap : Heap) (fuel : Nat) (rest : List UInt8)
    (hfuel : rest.length < fuel) : Appends b e (loadLoop heap fuel rest) rest := by
  induction fuel generalizing rest with
  | zero => omega
  | succ fuel ih =>
    intro s h he hpos
    rw [loadLoop, EStateM.run_bind, EStateM.run_get]
    simp only [h.baseSize]
    by_cases hlast : rest.length < b
    · rw [if_pos hlast, List.take_of_length_le (Nat.le_of_lt hlast)]
      have hwrite := (Appends.write (e := e) hb heap rest).bind Appends.pure s h he hpos
      rwa [List.append_nil] at hwrite
    · rw [if_neg hlast]
      have hrest := ih (rest.drop b) (by rw [List.length_drop]; omega)
      have hboth := (Appends.write (e := e) hb heap (rest.take b)).bind hrest s h he hpos
      rwa [List.take_append_drop] at hboth

theorem readFromFile_fresh (heap : Heap) (hb : 1 ≤ b) (content : List UInt8) :
    ∃ s₁ s₂, (readFromFile heap (some content)).run (fresh heap b) = .ok true s₁ ∧
      (setPosition 0).run s₁ = .ok () s₂ ∧ toString.run s₂ = .ok content s₂ := by
  obtain ⟨s₁, hload, h₁, -, -, hstored⟩ :=
    appends_loadLoop (e := .big) hb heap (content.length + 1) content (Nat.lt_succ_self _)
      (fresh heap b) (wellFormed_fresh heap hb) rfl rfl
  obtain ⟨s₂, hset, h₂, hmem, hpos, hsize, -⟩ := h₁.run_setPosition hb (Nat.zero_le _)
  have hunread : s₂.unread = content := by
    rw [unread, stored, hpos, hmem, hsize, Nat.max_eq_left (Nat.zero_le _), List.drop_zero]
    change s₁.stored = content
    rw [hstored]
    simp [stored, fresh]
  refine ⟨s₁, s₂, ?_, hset, ?_⟩
  · simp only [readFromFile, EStateM.run_bind, hload, EStateM.run_pure]
  · rw [h₂.run_toString hb, hunread]

end Loading

section Saving

theorem offsetInt_of_lt {d : Nat} (hd : d < 2 ^ 31) : offsetInt d = d :=
  Int.bmod_eq_of_le (by omega) (by omega)

theorem saveLoop_done (fuel : Nat) (cur : Option Nat) (pos : Int) (out : Out) :
    (saveLoop (fuel + 1) cur pos 0 out).run s = .ok out s := by
  rw [saveLoop, if_neg (Int.lt_irrefl 0)]
  rfl

theorem saveLoop_step {fuel : Nat} {cur cur' : Option Nat} {pos rs diff len : Int} {out out' : Out}
    {node : Node} (hrs : rs > 0) (hdiff : offsetInt (pos.toNat % s.baseSize) = diff)
    (hlen : (if rs > s.baseSize then (s.baseSize : Int) else rs) - diff = len)
    (hderef : (deref cur).run s = .ok node s) (hwrite : (out.write node diff len).run s = .ok out' s)
    (hnext : (next cur).run s = .ok cur' s) :
    (saveLoop (fuel + 1) cur pos rs out).run s =
      (saveLoop fuel cur' (pos + len) (rs - len) out').run s := by
  subst hdiff hlen
  rw [saveLoop, if_pos hrs, EStateM.run_bind, EStateM.run_get]
  simp only [EStateM.run_bind, hderef, hwrite, hnext]

theorem Aligned.run_outWrite (h : Aligned b s) {i d n : Nat} (hi : i < s.nodes.length)
    (hn : 0 < n) (hfit : d + n ≤ b) (acc : List UInt8) :
    (Out.write s.nodes[i] d n ⟨acc, false⟩).run s =
      .ok ⟨acc ++ (s.memory.drop (b * i + d)).take n, false⟩ s := by
  have hsize : s.nodes[i].size = b := h.node_size _ (List.getElem_mem hi)
  have hbytes := h.bytes_eq hi hfit
  rw [Iovec.bytes, List.getElem?_eq_getElem hi] at hbytes
  have hbytes' : (s.nodes[i].ptr.drop d).take n = (s.memory.drop (b * i + d)).take n := hbytes
  unfold Out.write
  rw [if_neg Bool.false_ne_true, if_neg (by omega), if_neg (by omega), if_pos (by omega)]
  simp only [Int.toNat_natCast, hbytes', EStateM.run_pure]

/-- From offset `d` of block `i`, all bytes are written where the first pass ends the block
or the data: when it starts at the block or more than a block is left. -/
theorem run_saveLoop (h : Aligned b s) (hb : 1 ≤ b) (fuel i d rs : Nat) (cur : Option Nat)
    (acc : List UInt8) (hd : d < b) (hint : d < 2 ^ 31) (hwhole : d = 0 ∨ b ≤ rs)
    (hcur : 0 < rs → cur = some i) (hroom : b * i + d + rs ≤ b * s.nodes.length)
    (hfuel : s.nodes.length < i + fuel) :
    (saveLoop fuel cur ((b * i + d : Nat) : Int) (rs : Int) ⟨acc, false⟩).run s =
      .ok ⟨acc ++ (s.memory.drop (b * i + d)).take rs, false⟩ s := by
  induction fuel generalizing i d rs cur acc with
  | zero =>
    have hle : i ≤ s.nodes.length := Nat.le_of_mul_le_mul_left (by omega : b * i ≤ _) hb
    omega
  | succ fuel ih =>
    by_cases hrs : rs = 0
    · subst hrs
      rw [List.take_zero, List.append_nil]
      exact saveLoop_done fuel cur _ _
    · obtain rfl := hcur (by omega)
      have hi : i < s.nodes.length := Nat.lt_of_mul_lt_mul_left (a := b) (by omega)
      have hget : s.nodes[i]? = some s.nodes[i] := List.getElem?_eq_getElem hi
      obtain ⟨n, hn⟩ : ∃ n, d + n = min rs b := ⟨min rs b - d, by omega⟩
      have hlen : (if (rs : Int) > (b : Int) then (b : Int) else rs) - (d : Int) = (n : Int) := by
        split <;> omega
      have hmod : ((b * i + d : Nat) : Int).toNat % b = d := by
        rw [Int.toNat_natCast, Nat.mul_add_mod, Nat.mod_eq_of_lt hd]
      have hpos : ((b * i + d : Nat) : Int) + (n : Int) = ((b * i + d + n : Nat) : Int) := rfl
      have hrest : (rs : Int) - (n : Int) = ((rs - n : Nat) : Int) := by omega
      have hwrite := h.run_outWrite (d := d) (n := n) hi (by omega) (by omega) acc
      rw [saveLoop_step (by omega) (by rw [h.baseSize, hmod, offsetInt_of_lt hint])
        (by rw [h.baseSize, hlen]) (run_deref_some hget) hwrite (run_next_some i), hpos, hrest]
      by_cases hend : rs = n
      · obtain ⟨fuel, rfl⟩ : ∃ fuel', fuel = fuel' + 1 := ⟨fuel - 1, by omega⟩
        rw [hend, Nat.sub_self]
        exact saveLoop_done fuel _ _ _
      · -- the block is finished, and the next pass starts at the block after it
        have hfull : b * i + d + n = b * (i + 1) + 0 := by
          rw [Nat.mul_add, Nat.mul_one]
          omega
        have hpast : b - d < rs := by omega
        have hnext : i + 1 < s.nodes.length := next_block hpast hroom
        have hstep := ih (i + 1) 0 (rs - n) (some (i + 1))
          (acc ++ (s.memory.drop (b * i + d)).take n) (by omega) (by decide) (.inl rfl)
          (fun _ => rfl) (by omega) (by omega)
        have hn' : n = b - d := by omega
        rw [if_pos hnext, hfull, hstep, List.append_assoc, hn',
          take_across s.memory (by omega) (by omega)]

theorem deref_cases (cur : Option Nat) :
    (∃ i node, cur = some i ∧ (deref cur).run s = .ok node s) ∨
      (deref cur).run s = .error .nullNode s := by
  cases cur with
  | none => exact .inr rfl
  | some i =>
    cases hget : s.nodes[i]? with
    | none => exact .inr (by simp only [EStateM.run, deref, hget])
    | some node => exact .inl ⟨i, node, rfl, run_deref_some hget⟩

theorem Out.write_cases (node : Node) (diff len : Int) (out : Out) :
    (∃ out', (out.write node diff len).run s = .ok out' s) ∨
      (out.write node diff len).run s = .error .overrun s := by
  unfold Out.write
  split
  · exact .inl ⟨_, rfl⟩
  · split
    · exact .inl ⟨_, rfl⟩
    · split
      · exact .inl ⟨_, rfl⟩
      · split
        · exact .inl ⟨_, rfl⟩
        · exact .inr rfl

/-- Where a pass starts inside a block with less than a block left, offset and rest change
places in every pass, so the loop never gets to its end. -/
theorem saveLoop_stuck (hbase : s.baseSize = b) (hint : b ≤ 2 ^ 31) (fuel pos rs : Nat)
    (cur : Option Nat) (out : Out) (hpos : 0 < pos % b) (hrs : 0 < rs) (hlt : rs < b) :
    ∃ err, (saveLoop fuel cur (pos : Int) (rs : Int) out).run s = .error err s := by
  induction fuel generalizing pos rs cur out with
  | zero => exact ⟨.diverges, rfl⟩
  | succ fuel ih =>
    obtain ⟨d, hd⟩ : ∃ d, d = pos % b := ⟨_, rfl⟩
    have hdlt : d < b := by
      rw [hd]
      exact Nat.mod_lt _ (by omega)
    have hle : d ≤ pos := by
      rw [hd]
      exact Nat.mod_le _ _
    have hdiff : offsetInt (((pos : Nat) : Int).toNat % s.baseSize) = d := by
      rw [hbase, Int.toNat_natCast, ← hd]
      exact offsetInt_of_lt (by omega)
    have hlen : (if (rs : Int) > s.baseSize then (s.baseSize : Int) else rs) - (d : Int) =
        (rs : Int) - d := by
      rw [hbase, if_neg (by omega)]
    rcases deref_cases (s := s) cur with ⟨i, node, rfl, hderef⟩ | hnull
    · rcases out.write_cases (s := s) node d (rs - d) with ⟨out', hwrite⟩ | hover
      · have hnextpos : (pos : Int) + ((rs : Int) - d) = ((pos + rs - d : Nat) : Int) := by omega
        have hnextrs : (rs : Int) - ((rs : Int) - d) = (d : Int) := by omega
        have hmod : (pos + rs - d) % b = rs := by
          have hsplit := Nat.div_add_mod pos b
          rw [show pos + rs - d = b * (pos / b) + rs by omega, Nat.mul_add_mod,
            Nat.mod_eq_of_lt hlt]
        rw [saveLoop_step (by omega) hdiff hlen hderef hwrite (run_next_some i), hnextpos, hnextrs]
        exact ih _ _ _ _ (by omega) (by omega) hdlt
      · refine ⟨.overrun, ?_⟩
        rw [saveLoop, if_pos (by omega), EStateM.run_bind, EStateM.run_get]
        simp only [hdiff, hlen, EStateM.run_bind, hderef, hover]
    · refine ⟨.nullNode, ?_⟩
      rw [saveLoop, if_pos (by omega), EStateM.run_bind, EStateM.run_get]
      simp only [EStateM.run_bind, hnull]

/-- Nothing is unread, or the cursor is at the start of a block, or a block's worth of bytes is
unread: then every pass of the loop ends a block or the data. -/
def Savable (b : Nat) (s : ByteArray) : Prop :=
  s.getReadSize = 0 ∨ s.position % b < 2 ^ 31 ∧ (s.position % b = 0 ∨ b ≤ s.getReadSize)

def Saves (s : ByteArray) : Prop := (writeToFile true).run s = .ok (some s.unread) s

theorem WellFormed.saves (h : WellFormed b s) (hb : 1 ≤ b) (hsave : Savable b s) : Saves s := by
  have hsize := h.size_le
  have hlength : s.unread.length = s.getReadSize := h.length_unread
  have hread : s.getReadSize = s.size - s.position := rfl
  by_cases hzero : s.getReadSize = 0
  · have hnil : s.unread = [] := List.length_eq_zero_iff.mp (hlength.trans hzero)
    have hdone := saveLoop_done (s := s) s.nodes.length s.cur s.position ⟨[], false⟩
    rw [Saves, writeToFile, if_pos rfl, EStateM.run_bind, EStateM.run_get, hnil]
    simp only [hzero, Int.natCast_zero, EStateM.run_bind, hdone, EStateM.run_pure]
  · obtain ⟨hint, hwhole⟩ := hsave.resolve_left hzero
    have hlt : s.position < s.capacity := by omega
    have hrun := run_saveLoop h.toAligned hb (s.nodes.length + 1) (s.position / b)
      (s.position % b) s.getReadSize s.cur [] (Nat.mod_lt _ hb) hint hwhole
      (fun _ => h.toAligned.cur_eq hlt)
      (by rw [Nat.div_add_mod, ← h.capacity]; omega) (Nat.le_add_left _ _)
    rw [take_unread (Nat.le_refl _), ← hlength, List.take_length, hlength, List.nil_append,
      Nat.div_add_mod] at hrun
    rw [Saves, writeToFile, if_pos rfl, EStateM.run_bind, EStateM.run_get]
    simp only [EStateM.run_bind, hrun, EStateM.run_pure]

theorem WellFormed.not_saves (h : WellFormed b s) (hb : 1 ≤ b) (hint : b ≤ 2 ^ 31)
    (hsave : ¬ Savable b s) : ¬ Saves s := by
  have hmod : s.position % b < b := Nat.mod_lt _ hb
  unfold Savable at hsave
  obtain ⟨err, hstuck⟩ := saveLoop_stuck h.baseSize hint (s.nodes.length + 1) s.position
    s.getReadSize s.cur ⟨[], false⟩ (by omega) (by omega) (by omega)
  intro hsaves
  rw [Saves, writeToFile, if_pos rfl, EStateM.run_bind, EStateM.run_get] at hsaves
  simp only [EStateM.run_bind, hstuck] at hsaves
  cases hsaves

/-- A savable object is saved, and with block offsets that fit an `int` no other one is. What
is saved can be loaded into a fresh object of any block size. -/
theorem runCalls_saves (heap : Heap) (host : Endian) (b : Nat) (hb : 1 ≤ b)
    (calls : List Call) (s : ByteArray)
    (hreach : runCalls heap host calls (fresh heap b) = .ok s) :
    (Savable b s → Saves s) ∧ (b ≤ 2 ^ 31 → (Saves s ↔ Savable b s)) ∧
      (Saves s → ∀ (heap₂ : Heap) (b₂ : Nat), 1 ≤ b₂ →
        ∃ content t₁ t₂ text, (writeToFile true).run s = .ok content s ∧
          (readFromFile heap₂ content).run (fresh heap₂ b₂) = .ok true t₁ ∧
          (setPosition 0).run t₁ = .ok () t₂ ∧ toString.run t₂ = .ok text t₂ ∧
          toString.run s = .ok text s) := by
  have h := (wellFormed_fresh heap hb).of_runCalls hb heap host calls hreach
  refine ⟨h.saves hb, ?_, ?_⟩
  · intro hint
    exact ⟨fun hsaves => Classical.not_not.mp fun hsave => h.not_saves hb hint hsave hsaves,
      h.saves hb⟩
  · intro hsaves heap₂ b₂ hb₂
    obtain ⟨t₁, t₂, hload, hset, htext⟩ := readFromFile_fresh heap₂ hb₂ s.unread
    exact ⟨some s.unread, t₁, t₂, s.unread, hsaves, hload, hset, htext, h.run_toString hb⟩

theorem runCalls_saves_middle :
    ∃ s, runCalls (fun _ _ => 0) .little [.op (.write [1, 2, 3, 4, 5]), .op (.setPosition 1)]
        (fresh (fun _ _ => 0) 2) = .ok s ∧ Savable 2 s ∧
      (Savable 2 s → Saves s) ∧ (2 ≤ 2 ^ 31 → (Saves s ↔ Savable 2 s)) ∧
      (Saves s → ∀ (heap₂ : Heap) (b₂ : Nat), 1 ≤ b₂ →
        ∃ content t₁ t₂ text, (writeToFile true).run s = .ok content s ∧
          (readFromFile heap₂ content).run (fresh heap₂ b₂) = .ok true t₁ ∧
          (setPosition 0).run t₁ = .ok () t₂ ∧ toString.run t₂ = .ok text t₂ ∧
          toString.run s = .ok text s) :=
  ⟨_, rfl, .inr ⟨by decide, .inr (by decide)⟩,
    runCalls_saves (fun _ _ => 0) .little 2 (by decide)
      [.op (.write [1, 2, 3, 4, 5]), .op (.setPosition 1)] _ rfl⟩

/-- Two bytes from the middle of a block of four: the loop walks off the list. -/
theorem writeToFile_null_node :
    ∃ s, runCalls (fun _ _ => 0) .little [.op (.write [1, 2, 3]), .op (.setPosition 1)]
        (fresh (fun _ _ => 0) 4) = .ok s ∧ s.unread = [2, 3] ∧
      (writeToFile true).run s = .error .nullNode s ∧ ¬ Saves s := by
  refine ⟨_, rfl, rfl, rfl, ?_⟩
  intro hsaves
  cases hsaves

end Saving

end Sylar.ByteArray
