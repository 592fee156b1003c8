import Sylar.ByteArray.Buffers

/-! The composite readers on bytes that end too early. A varint is read byte by byte and a
string behind its length, so an `out_of_range` can come after part of the bytes are consumed;
`Torn` says exactly when. -/
namespace Sylar.ByteArray

open Lib.IntCodec

variable {α β : Type} {b : Nat} {s : ByteArray}

/-- What `readUint32` and `readUint64` do with any bytes: which of them they consume, the
value they return, and when they throw. -/
structure VarintContract (c w : Nat) (m : M α) (toNat : α → Nat) (s : ByteArray) : Prop where
  bound : varintLength c s.unread ≤ c
  returns : varintLength c s.unread ≤ s.unread.length →
    ∃ v s', m.run s = .ok v s' ∧ s'.position = s.position + varintLength c s.unread ∧
      s'.unread = s.unread.drop (varintLength c s.unread) ∧
      toNat v = ((List.range (varintLength c s.unread)).map fun i =>
        (s.unread.getD i 0).toNat % 128 * 2 ^ (7 * i)).sum % 2 ^ w
  throws : s.unread.length < varintLength c s.unread →
    ∃ s', m.run s = .error (.outOfRange "not enough len") s' ∧
      s'.position = s.position + s.unread.length

theorem ReadsVarint.contract {c w : Nat} {m : M α} {toNat : α → Nat}
    (h : ReadsVarint b c w m toNat s) : VarintContract c w m toNat s where
  bound := varintLength_le c s.unread
  returns := by
    intro hfit
    rw [ReadsVarint, if_pos hfit] at h
    obtain ⟨v, hv, hvalue⟩ := h
    exact ⟨v, shift b _ s, hv, rfl, unread_shift _ s, by rw [hvalue, ofGroups_take _ _ hfit]⟩
  throws := by
    intro hshort
    rw [ReadsVarint, if_neg (Nat.not_le.mpr hshort)] at h
    exact ⟨shift b _ s, h, rfl⟩

/-- On every sequence of readable bytes, `readUint32` consumes at most 5 bytes and
`readUint64` at most 10: those up to the first one below 0x80. -/
theorem runCalls_varintContract (heap : Heap) (host : Endian) (b : Nat) (hb : 1 ≤ b)
    (calls : List Call) (s : ByteArray)
    (hreach : runCalls heap host calls (fresh heap b) = .ok s) :
    VarintContract 5 32 (readUint32 host) UInt32.toNat s ∧
      VarintContract 10 64 (readUint64 host) UInt64.toNat s := by
  have h := (wellFormed_fresh heap hb).of_runCalls hb heap host calls hreach
  exact ⟨(h.readsVarint32 hb host).contract, (h.readsVarint64 hb host).contract⟩

/-- An unterminated varint of six bytes. -/
theorem runCalls_varintContract_unterminated :
    ∃ s, runCalls (fun _ _ => 0) .little
        [.op (.write [0xff, 0xff, 0xff, 0xff, 0xff, 0xff]), .op (.setPosition 0)]
        (fresh (fun _ _ => 0) 4) = .ok s ∧
      VarintContract 5 32 (readUint32 .little) UInt32.toNat s ∧
      VarintContract 10 64 (readUint64 .little) UInt64.toNat s :=
  ⟨_, rfl, runCalls_varintContract (fun _ _ => 0) .little 4 (by decide)
    [.op (.write [0xff, 0xff, 0xff, 0xff, 0xff, 0xff]), .op (.setPosition 0)] _ rfl⟩

inductive Reader where
  | scalar (kind : Kind)
  | string (code : LengthCode)
  deriving DecidableEq

def Reader.run (host : Endian) : Reader → M Unit
  | .scalar kind => do let _ ← kind.read host; pure ()
  | .string code => do let _ ← code.readString host; pure ()

def Untouched (m : M α) (s : ByteArray) : Prop :=
  ∀ what s', m.run s = .error (.outOfRange what) s' → s' = s

/-- The bytes end inside a varint of at most `c` bytes, and not before it. -/
def CutsVarint (c : Nat) (unread : List UInt8) : Prop :=
  unread ≠ [] ∧ unread.length < varintLength c unread

/-- The bytes end inside the string behind a length that is there and that a string can
have. -/
def CutsString (e : Endian) (code : LengthCode) (unread : List UInt8) : Prop :=
  code.width unread ≤ unread.length ∧
    unread.length < code.width unread + code.value e unread ∧ code.value e unread < 2 ^ 63

/-- The readable bytes end after the reader has consumed some of them. -/
def Reader.Torn (s : ByteArray) : Reader → Prop
  | .scalar .uint32 | .scalar .int32 => CutsVarint 5 s.unread
  | .scalar .uint64 | .scalar .int64 => CutsVarint 10 s.unread
  | .scalar _ => False
  | .string .vint => CutsVarint 10 s.unread ∨ CutsString s.endian .vint s.unread
  | .string code => CutsString s.endian code s.unread

theorem Consumes.untouched {m : M α} {k : Nat} {r : Except Err α} (h : Consumes b m s k r)
    (hr : ∀ what, r ≠ .error (.outOfRange what)) : Untouched m s := by
  intro what s' hrun
  cases r with
  | ok a =>
    have hok : m.run s = .ok a _ := h
    rw [hok] at hrun
    cases hrun
  | error err =>
    have herr : m.run s = .error err _ := h
    rw [herr] at hrun
    cases hrun
    exact absurd rfl (hr what)

theorem Consumes.untouched_ok {m : M α} {k : Nat} {a : α} (h : Consumes b m s k (.ok a)) :
    Untouched m s :=
  h.untouched fun _ herr => by cases herr

theorem Consumes.untouched_error {m : M α} {k : Nat} {what : String} (hal : Aligned b s)
    (h : Consumes b m s k (.error (.outOfRange what))) : Untouched m s ↔ k = 0 := by
  have hrun : m.run s = .error (.outOfRange what) (shift b k s) := h
  constructor
  · intro hsame
    have hpos := congrArg ByteArray.position (hsame what _ hrun)
    simp only [shift] at hpos
    omega
  · rintro rfl what' s' hrun'
    rw [hrun] at hrun'
    cases hrun'
    exact hal.shift_zero

theorem untouched_map {m : M α} (g : α → β) :
    Untouched (m >>= fun a => pure (g a)) s ↔ Untouched m s := by
  unfold Untouched
  rw [EStateM.run_bind]
  cases m.run s with
  | ok a s' =>
    simp only
    exact iff_of_true (fun _ _ h => by cases h) (fun _ _ h => by cases h)
  | error err s' =>
    constructor
    · intro hsame what s'' hrun
      cases hrun
      exact hsame what s' rfl
    · intro hsame what s'' hrun
      cases hrun
      exact hsame what s' rfl

theorem WellFormed.untouched_read (h : WellFormed b s) (hb : 1 ≤ b) {n : Nat} (hn : 1 ≤ n) :
    Untouched (read n) s := by
  by_cases hfit : n ≤ s.unread.length
  · exact (h.consumes_read hb hn hfit).untouched_ok
  · exact ((h.consumes_read_short (Nat.not_le.mp hfit)).untouched_error h.toAligned).mpr rfl

theorem WellFormed.untouched_fixed (h : WellFormed b s) (hb : 1 ≤ b) (host : Endian) {k : Nat}
    (hk : 1 ≤ k) : Untouched (readFixed host k) s := by
  by_cases hfit : k ≤ s.unread.length
  · obtain ⟨v, hv, -⟩ := h.consumes_readFixed hb host hk hfit
    exact hv.untouched_ok
  · have hshort := h.consumes_readFixed_short host (Nat.not_le.mp hfit)
    exact (hshort.untouched_error h.toAligned).mpr rfl

theorem ReadsVarint.untouched_iff {c w : Nat} {m : M α} {toNat : α → Nat} (hal : Aligned b s)
    (h : ReadsVarint b c w m toNat s) : Untouched m s ↔ ¬ CutsVarint c s.unread := by
  unfold CutsVarint
  by_cases hfit : varintLength c s.unread ≤ s.unread.length
  · rw [ReadsVarint, if_pos hfit] at h
    obtain ⟨v, hv, -⟩ := h
    refine iff_of_true hv.untouched_ok ?_
    rintro ⟨-, hshort⟩
    omega
  · rw [ReadsVarint, if_neg hfit] at h
    rw [h.untouched_error hal, List.length_eq_zero_iff]
    constructor
    · rintro hnil ⟨hne, -⟩
      exact hne hnil
    · intro hcut
      by_contra hne
      exact hcut ⟨hne, Nat.not_le.mp hfit⟩

theorem varintLength_pos {c : Nat} (hc : 0 < c) (unread : List UInt8) :
    0 < varintLength c unread := by
  obtain ⟨c, rfl⟩ : ∃ c', c = c' + 1 := ⟨c - 1, by omega⟩
  cases unread with
  | nil => simp
  | cons x unread =>
    rw [varintLength_cons]
    split
    · exact Nat.one_pos
    · exact Nat.succ_pos _

theorem LengthCode.width_pos (code : LengthCode) (unread : List UInt8) :
    0 < code.width unread := by
  cases code with
  | f16 | f32 | f64 => exact Nat.succ_pos _
  | vint => exact varintLength_pos (by decide) unread

theorem LengthCode.untouched_behind (h : WellFormed b s) (hb : 1 ≤ b) (host : Endian)
    {code : LengthCode} (hfit : code.width s.unread ≤ s.unread.length) :
    Untouched (code.readString host) s ↔ ¬ CutsString s.endian code s.unread := by
  have hlen := consumes_readLength h hb host hfit
  have h₁ := h.shifted hfit
  have hunread : (shift b (code.width s.unread) s).unread = s.unread.drop (code.width s.unread) :=
    unread_shift _ s
  have hpos := code.width_pos s.unread
  rw [readString_eq]
  by_cases hmax : code.value s.endian s.unread < 2 ^ 63
  case neg =>
    refine iff_of_true ((hlen.bind (h₁.toAligned.consumes_readChars_long hmax)).untouched ?_)
      fun hcut => hmax hcut.2.2
    intro what herr
    cases herr
  by_cases hshort : s.unread.length < code.width s.unread + code.value s.endian s.unread
  · have hread := h₁.consumes_read_short (n := code.value s.endian s.unread)
      (by rw [hunread, List.length_drop]; omega)
    rw [← readChars_of_lt hmax] at hread
    rw [(hlen.bind hread).untouched_error h.toAligned]
    exact iff_of_false (by omega) (not_not_intro ⟨hfit, hshort, hmax⟩)
  · have hcount : ((s.unread.drop (code.width s.unread)).take
        (code.value s.endian s.unread)).length = code.value s.endian s.unread := by
      rw [List.length_take, List.length_drop]
      omega
    have hread := h₁.consumes_read_string hb
      (hunread.trans (List.take_append_drop (code.value s.endian s.unread) _).symm)
    rw [hcount, ← readChars_of_lt hmax] at hread
    refine iff_of_true ((hlen.bind hread).untouched ?_) fun hcut => hshort hcut.2.1
    intro what
    split
    · intro herr
      cases herr
    · intro herr
      cases herr

theorem LengthCode.untouched_iff (h : WellFormed b s) (hb : 1 ≤ b) (host : Endian)
    (code : LengthCode) :
    Untouched (code.readString host) s ↔ ¬ (Reader.string code).Torn s := by
  by_cases hfit : code.width s.unread ≤ s.unread.length
  · rw [untouched_behind h hb host hfit]
    cases code with
    | f16 | f32 | f64 => exact Iff.rfl
    | vint =>
      have hvarint : ¬ CutsVarint 10 s.unread := by
        rintro ⟨-, hshort⟩
        exact absurd hfit (Nat.not_le.mpr hshort)
      simp only [Reader.Torn, hvarint, false_or]
  · have hshort := consumes_readLength_short h hb host (Nat.not_le.mp hfit)
    have hstring : ¬ CutsString s.endian code s.unread := fun hcut => hfit hcut.1
    have hthrow := hshort.bind_error (f := readChars)
    rw [← readString_eq] at hthrow
    rw [hthrow.untouched_error h.toAligned]
    cases code with
    | f16 | f32 | f64 => exact iff_of_true rfl hstring
    | vint =>
      have hcut : s.unread.length < varintLength 10 s.unread := Nat.not_le.mp hfit
      simp only [Reader.Torn, hstring, or_false, CutsVarint, hcut, and_true, if_true, ne_eq,
        not_not, List.length_eq_zero_iff]

theorem Kind.untouched_iff (h : WellFormed b s) (hb : 1 ≤ b) (host : Endian) (kind : Kind) :
    Untouched (kind.read host) s ↔ ¬ (Reader.scalar kind).Torn s := by
  have hbyte : Untouched (ByteArray.read 1) s := h.untouched_read hb (Nat.le_refl 1)
  have hfixed {k : Nat} (hk : 1 ≤ k) : Untouched (readFixed host k) s := h.untouched_fixed hb host hk
  have h32 := (h.readsVarint32 hb host).untouched_iff h.toAligned
  have h64 := (h.readsVarint64 hb host).untouched_iff h.toAligned
  cases kind with
  | fint8 | fuint8 =>
    exact iff_of_true ((untouched_map _).mpr ((untouched_map _).mpr hbyte)) not_false
  | fint16 | fuint16 | fint32 | fuint32 | fint64 | fuint64 | float | double =>
    exact iff_of_true ((untouched_map _).mpr ((untouched_map _).mpr (hfixed (by decide)))) not_false
  | uint32 => exact (untouched_map _).trans h32
  | uint64 => exact (untouched_map _).trans h64
  | int32 => exact (untouched_map _).trans ((untouched_map _).trans h32)
  | int64 => exact (untouched_map _).trans ((untouched_map _).trans h64)

/-- A reader that throws leaves the object alone if and only if it was not torn. -/
theorem runCalls_untouched_iff (heap : Heap) (host : Endian) (b : Nat) (hb : 1 ≤ b)
    (calls : List Call) (s : ByteArray)
    (hreach : runCalls heap host calls (fresh heap b) = .ok s) (reader : Reader) :
    Untouched (reader.run host) s ↔ ¬ reader.Torn s := by
  have h := (wellFormed_fresh heap hb).of_runCalls hb heap host calls hreach
  cases reader with
  | scalar kind => exact (untouched_map _).trans (kind.untouched_iff h hb host)
  | string code => exact (untouched_map _).trans (code.untouched_iff h hb host)

theorem runCalls_untouched_iff_double :
    ∃ s, runCalls (fun _ _ => 0) .little [.op (.write [1, 2, 3]), .op (.setPosition 0)]
        (fresh (fun _ _ => 0) 2) = .ok s ∧
      (Untouched ((Reader.scalar .double).run .little) s ↔ ¬ (Reader.scalar .double).Torn s) :=
  ⟨_, rfl, runCalls_untouched_iff (fun _ _ => 0) .little 2 (by decide)
    [.op (.write [1, 2, 3]), .op (.setPosition 0)] _ rfl (.scalar .double)⟩

/-- The first byte of a varint and the length of a string are gone when the rest is not
there. -/
theorem torn_consumed :
    (∃ s s', runCalls (fun _ _ => 0) .little [.op (.write [0x80]), .op (.setPosition 0)]
        (fresh (fun _ _ => 0) 2) = .ok s ∧
      ((Reader.scalar .uint32).run .little).run s = .error (.outOfRange "not enough len") s' ∧
      s.position = 0 ∧ s'.position = 1 ∧ ¬ Untouched ((Reader.scalar .uint32).run .little) s) ∧
    ∃ s s', runCalls (fun _ _ => 0) .little [.op (.write [0, 5, 7]), .op (.setPosition 0)]
        (fresh (fun _ _ => 0) 2) = .ok s ∧
      ((Reader.string .f16).run .little).run s = .error (.outOfRange "not enough len") s' ∧
      s.position = 0 ∧ s'.position = 2 ∧ ¬ Untouched ((Reader.string .f16).run .little) s := by
  constructor
  · refine ⟨_, _, rfl, rfl, rfl, rfl, ?_⟩
    intro hsame
    have hpos : 1 = 0 := congrArg ByteArray.position (hsame _ _ rfl)
    cases hpos
  · refine ⟨_, _, rfl, rfl, rfl, rfl, ?_⟩
    intro hsame
    have hpos : 2 = 0 := congrArg ByteArray.position (hsame _ _ rfl)
    cases hpos

end Sylar.ByteArray
