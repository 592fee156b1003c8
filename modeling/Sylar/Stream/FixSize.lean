import Mathlib.Algebra.Group.Nat.Defs
import Mathlib.Data.List.Basic

/-! The fixed-size transfers of `sylar/stream.cc`. The underlying `read` or `write` is
arbitrary: it answers a call by its number, the offset it starts at and the number of
bytes offered, with a count or with a value that is not positive. -/
namespace Sylar.Stream

/-- What call `i` at `offset` returns when it is offered so many bytes. -/
abbrev Io := Nat → Nat → Nat → Int

structure Part where
  offset : Nat
  offered : Nat
  result : Int
  deriving DecidableEq, Repr

section Definitions

variable (io : Io) (length : Nat)

/-- The loop of the transfers; `update left len` is what its body leaves in `left`. The
result is the returned `int` and the calls made, or `none` when `fuel` runs out. -/
def fixSizeLoop (update : Int → Int → Int) : Nat → Nat → Nat → Int → Option (Int × List Part)
  | 0, _, _, _ => none
  | fuel + 1, i, offset, left =>
    if left > 0 then
      let len := io i offset left.toNat
      let part : Part := ⟨offset, left.toNat, len⟩
      if len ≤ 0 then
        some (len, [part])
      else
        (fixSizeLoop update fuel (i + 1) ((offset + len.toNat) % 2 ^ 64) (update left len)).map
          fun r => (r.1, part :: r.2)
    else
      some ((length : Int).bmod (2 ^ 32), [])

def readFixSize (fuel : Nat) : Option (Int × List Part) :=
  fixSizeLoop io length (fun left len => left - len) fuel 0 0 length

/-- `writeFixSize` of a buffer. Its body ends in `len -= left`, so `left` stays. -/
def writeFixSize (fuel : Nat) : Option (Int × List Part) :=
  fixSizeLoop io length (fun left _ => left) fuel 0 0 length

end Definitions

def Io.Legal (io : Io) : Prop := ∀ i offset n, io i offset n ≤ n

def taken {α : Type} (buffer : List α) (parts : List Part) : List α :=
  parts.flatMap fun p => (buffer.drop p.offset).take p.result.toNat

/-- The transfer returns; it offers only bytes of the buffer; when it returns the length,
the calls took the buffer once and in order; and a call that fails gives the result. -/
def MovesExactly (run : Nat → Option (Int × List Part)) (length : Nat) : Prop :=
  ∃ fuel r parts, run fuel = some (r, parts) ∧
    (∀ p ∈ parts, p.offset + p.offered ≤ length) ∧
    (r = length → ∀ buffer : List UInt8, buffer.length = length → taken buffer parts = buffer) ∧
    ∀ p ∈ parts, p.result ≤ 0 → r = p.result

variable {io : Io} {length : Nat}

theorem bmod_length (hlt : length < 2 ^ 31) : (length : Int).bmod (2 ^ 32) = length :=
  Int.bmod_eq_of_le (by omega) (by omega)

/-- Where the body takes the count off `left`, offset and rest make up the buffer, and
every pass shortens the rest. -/
theorem fixSizeLoop_sub (hlt : length < 2 ^ 31) (hio : io.Legal) (fuel i offset left : Nat)
    (hsum : offset + left = length) (hfuel : left < fuel) :
    ∃ r parts, fixSizeLoop io length (fun left len => left - len) fuel i offset left =
        some (r, parts) ∧
      (∀ p ∈ parts, p.offset + p.offered ≤ length) ∧
      ((∀ p ∈ parts, 0 < p.result) → r = length ∧
        ∀ buffer : List UInt8, buffer.length = length →
          taken buffer parts = buffer.drop offset) ∧
      ∀ p ∈ parts, p.result ≤ 0 → r = p.result := by
  induction fuel generalizing i offset left with
  | zero => omega
  | succ fuel ih =>
    unfold fixSizeLoop
    by_cases hleft : (left : Int) > 0
    · have hlegal := hio i offset left
      rw [if_pos hleft]
      simp only [Int.toNat_natCast]
      by_cases hlen : io i offset left ≤ 0
      · rw [if_pos hlen]
        refine ⟨_, _, rfl, ?_, ?_, ?_⟩
        · intro p hp
          obtain rfl := List.mem_singleton.mp hp
          exact Nat.le_of_eq hsum
        · intro hall
          exact absurd hlen (Int.not_le.mpr (hall _ (List.mem_singleton_self _)))
        · intro p hp _
          obtain rfl := List.mem_singleton.mp hp
          rfl
      · rw [if_neg hlen]
        obtain ⟨k, hk⟩ := Int.eq_ofNat_of_zero_le (show 0 ≤ io i offset left by omega)
        have hnext : (offset + k) % 2 ^ 64 = offset + k := Nat.mod_eq_of_lt (by omega)
        have hrest : (left : Int) - (k : Int) = ((left - k : Nat) : Int) := by omega
        obtain ⟨r, parts, hrun, hin, htaken, herr⟩ :=
          ih (i + 1) (offset + k) (left - k) (by omega) (by omega)
        rw [hk, Int.toNat_natCast, hnext, hrest, hrun]
        refine ⟨r, ⟨offset, left, k⟩ :: parts, rfl, ?_, ?_, ?_⟩
        · rw [List.forall_mem_cons]
          exact ⟨Nat.le_of_eq hsum, hin⟩
        · intro hall
          obtain ⟨hr, hrest⟩ := htaken fun p hp => hall p (List.mem_cons_of_mem _ hp)
          refine ⟨hr, fun buffer hbuffer => ?_⟩
          have hparts := hrest buffer hbuffer
          unfold taken at hparts ⊢
          rw [List.flatMap_cons, hparts, ← List.drop_drop, Int.toNat_natCast]
          exact List.take_append_drop k _
        · rw [List.forall_mem_cons]
          exact ⟨fun hle => by simp only at hle; omega, herr⟩
    · rw [if_neg hleft, bmod_length hlt]
      refine ⟨_, _, rfl, by simp, ?_, by simp⟩
      refine fun _ => ⟨rfl, fun buffer hbuffer => ?_⟩
      rw [List.drop_eq_nil_of_le (by omega)]
      rfl

/-- `readFixSize` returns. It offers only bytes of the buffer; if no call fails it returns
the length and the calls filled the buffer once and in order, and a call that fails gives the
result. -/
theorem readFixSize_exact (hlt : length < 2 ^ 31) (hio : io.Legal) :
    ∃ fuel r parts, readFixSize io length fuel = some (r, parts) ∧
      (∀ p ∈ parts, p.offset + p.offered ≤ length) ∧
      ((∀ p ∈ parts, 0 < p.result) → r = length ∧
        ∀ buffer : List UInt8, buffer.length = length → taken buffer parts = buffer) ∧
      ∀ p ∈ parts, p.result ≤ 0 → r = p.result :=
  ⟨length + 1,
    fixSizeLoop_sub hlt hio (length + 1) 0 0 length (Nat.zero_add _) (Nat.lt_succ_self _)⟩

/-- A peer that sends two bytes at a time. -/
theorem readFixSize_exact_pairs :
    ∃ fuel r parts, readFixSize (fun _ _ n => min 2 n) 5 fuel = some (r, parts) ∧
      (∀ p ∈ parts, p.offset + p.offered ≤ 5) ∧
      ((∀ p ∈ parts, 0 < p.result) → r = (5 : Nat) ∧
        ∀ buffer : List UInt8, buffer.length = 5 → taken buffer parts = buffer) ∧
      ∀ p ∈ parts, p.result ≤ 0 → r = p.result :=
  readFixSize_exact (by decide) fun _ _ n => by omega

/-- `writeFixSize` is exact if and only if its first call fails: after a call that takes
anything, the next one is still offered `length` bytes. -/
theorem writeFixSize_movesExactly (hpos : 1 ≤ length) (hlt : length < 2 ^ 31) (hio : io.Legal) :
    MovesExactly (writeFixSize io length) length ↔ io 0 0 length ≤ 0 := by
  have hleft : (length : Int) > 0 := by omega
  constructor
  · rintro ⟨fuel, r, parts, hrun, hin, -, -⟩
    by_contra hfirst
    have hlegal := hio 0 0 length
    cases fuel with
    | zero => cases hrun
    | succ fuel =>
      unfold writeFixSize fixSizeLoop at hrun
      simp only [if_pos hleft, Int.toNat_natCast, if_neg hfirst, Option.map_eq_some_iff] at hrun
      obtain ⟨⟨r', parts'⟩, hrest, hparts⟩ := hrun
      cases fuel with
      | zero => cases hrest
      | succ fuel =>
        have hsecond : ∃ p ∈ parts', p.offset = (0 + (io 0 0 length).toNat) % 2 ^ 64 ∧
            p.offered = length := by
          unfold fixSizeLoop at hrest
          simp only [if_pos hleft, Int.toNat_natCast] at hrest
          split at hrest
          · cases hrest
            exact ⟨_, List.mem_singleton_self _, rfl, rfl⟩
          · obtain ⟨r'', -, hr''⟩ := Option.map_eq_some_iff.mp hrest
            cases hr''
            exact ⟨_, List.mem_cons_self, rfl, rfl⟩
        obtain ⟨p, hp, hoffset, hoffered⟩ := hsecond
        cases hparts
        have hinside := hin p (List.mem_cons_of_mem _ hp)
        omega
  · intro hfirst
    refine ⟨1, io 0 0 length, [⟨0, length, io 0 0 length⟩], ?_, ?_, ?_, ?_⟩
    · unfold writeFixSize fixSizeLoop
      simp only [if_pos hleft, Int.toNat_natCast, if_pos hfirst]
    · intro p hp
      obtain rfl := List.mem_singleton.mp hp
      exact Nat.le_of_eq (Nat.zero_add _)
    · intro hr
      omega
    · intro p hp _
      obtain rfl := List.mem_singleton.mp hp
      rfl

/-- The peer has closed the connection: the first call returns zero. -/
theorem writeFixSize_movesExactly_closed : MovesExactly (writeFixSize (fun _ _ _ => 0) 5) 5 :=
  (writeFixSize_movesExactly (by decide) (by decide) fun _ _ n => Int.natCast_nonneg n).mpr
    (by decide)

def writeOffset (io : Io) (length : Nat) : Nat → Nat
  | 0 => 0
  | i + 1 => (writeOffset io length i + (io i (writeOffset io length i) length).toNat) % 2 ^ 64

/-- From any call on, the loop of `writeFixSize` is left only by a call that fails. -/
theorem fixSizeLoop_stays (io : Io) (hpos : 1 ≤ length) (fuel i : Nat) :
    (∃ r, fixSizeLoop io length (fun left _ => left) fuel i (writeOffset io length i) length =
      some r) ↔ ∃ j < fuel, io (i + j) (writeOffset io length (i + j)) length ≤ 0 := by
  induction fuel generalizing i with
  | zero => simp [fixSizeLoop]
  | succ fuel ih =>
    have hleft : (length : Int) > 0 := by omega
    simp only [fixSizeLoop, if_pos hleft, Int.toNat_natCast]
    by_cases hfails : io i (writeOffset io length i) length ≤ 0
    · simp only [if_pos hfails, Option.some.injEq, exists_eq', true_iff]
      exact ⟨0, fuel.succ_pos, hfails⟩
    · have hrest := ih (i + 1)
      rw [writeOffset] at hrest
      simp only [if_neg hfails, Option.map_eq_some_iff, exists_comm (α := Int × List Part),
        exists_and_left, exists_eq', and_true, hrest]
      constructor
      · rintro ⟨j, hj, hle⟩
        exact ⟨j + 1, Nat.succ_lt_succ hj, by rwa [Nat.add_right_comm, Nat.add_assoc] at hle⟩
      · rintro ⟨j, hj, hle⟩
        cases j with
        | zero => exact absurd hle hfails
        | succ j =>
          exact ⟨j, Nat.lt_of_succ_lt_succ hj, by rwa [← Nat.add_assoc, Nat.add_right_comm] at hle⟩

/-- `writeFixSize` returns only when a call fails. -/
theorem writeFixSize_returns_iff (hpos : 1 ≤ length) (fuel : Nat) :
    (∃ r, writeFixSize io length fuel = some r) ↔
      ∃ j < fuel, io j (writeOffset io length j) length ≤ 0 := by
  have hloop := fixSizeLoop_stays io hpos fuel 0
  simp only [Nat.zero_add] at hloop
  exact hloop

/-- A `write` that takes everything it is offered is called for ever. -/
theorem writeFixSize_endless (fuel : Nat) : writeFixSize (fun _ _ n => n) 5 fuel = none := by
  rw [Option.eq_none_iff_forall_ne_some]
  intro r hr
  obtain ⟨j, -, hle⟩ := (writeFixSize_returns_iff (by decide) fuel).mp ⟨r, hr⟩
  exact absurd hle (by decide)

theorem writeFixSize_never_returns : ¬ MovesExactly (writeFixSize (fun _ _ n => n) 5) 5 := by
  rintro ⟨fuel, r, parts, hreturns, -⟩
  rw [writeFixSize_endless] at hreturns
  cases hreturns

end Sylar.Stream
