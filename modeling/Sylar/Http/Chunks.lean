import Sylar.Http.SizeLine

/-! A chunked response whose head comes in one read. The data of a chunk is taken from
the buffer and from the socket without a loss, so the chunks are put together as long
as their sizes are read. -/
namespace Sylar.Http

open Lib Lib.Blocks Lib.Pieces

structure Chunk where
  digits : Bytes
  data : Bytes
  ne_nil : digits ≠ []
  hex : ∀ b ∈ digits, digitValue b < 16
  size : hexValue digits = data.length
  lt : data.length < 2 ^ 31 - 2

namespace Chunk

def line (c : Chunk) : Bytes := c.digits ++ [13, 10]

def bytes (c : Chunk) : Bytes := c.line ++ (c.data ++ [13, 10])

/-- The bytes of a chunk in the rounds and reads that take them. The last round over
its size line goes on with `extra`; `more` are the reads of the data, which ask for
no more than the chunk has, and `next` is what `extra` has of the next chunk. -/
structure Arrival (buffSize : Nat) (c : Chunk) where
  first : Bytes
  cuts : List Bytes
  extra : Bytes
  more : List Bytes
  next : Bytes
  line : first ++ cuts.flatten = c.line
  rest : extra ++ more.flatten = c.data ++ [13, 10] ++ next
  apart : more = [] ∨ next = []
  ne_nil : ∀ e ∈ first :: (cuts ++ more), e ≠ []
  fits : ∀ e ∈ goOn extra more first cuts, e.length ≤ buffSize

namespace Arrival

variable {buffSize : Nat} {c : Chunk}

/-- The bytes at the front of the buffer and the reads after it, up to those of later
chunks. -/
def inputs (a : c.Arrival buffSize) (rest : List Bytes) : List Bytes :=
  goOn a.extra (a.more ++ rest) a.first a.cuts

end Arrival

end Chunk

namespace ResponseCall

section Data

variable {buffSize : Nat} {more rest : List Bytes} {c : Chunk}

theorem recvLeft_flatten (rest : List Bytes) (mem body : Bytes) (hne : ∀ e ∈ more, e ≠ [])
    (hfit : ∀ e ∈ more, e.length ≤ buffSize) :
    ∃ mem', recvLeft buffSize (more ++ rest) more.flatten.length mem body =
      some (mem', body ++ more.flatten, rest) := by
  induction more generalizing mem body with
  | nil =>
    refine ⟨mem, ?_⟩
    rw [List.flatten_nil, List.append_nil, List.nil_append]
    exact recvLeft.eq_1 ..
  | cons e more ih =>
    have he := hne e List.mem_cons_self
    have hlen := hfit e List.mem_cons_self
    obtain ⟨n, hn, hle, hmore⟩ := length_flatten_cons more he
    have hguard : ¬(e = [] ∨ min (n + 1) buffSize < e.length) :=
      not_or.mpr ⟨he, Nat.not_lt.mpr (le_min hle hlen)⟩
    obtain ⟨mem', hrest⟩ := ih (overwrite mem 0 e) (body ++ e)
      (fun e' h => hne e' (List.mem_cons_of_mem _ h)) fun e' h => hfit e' (List.mem_cons_of_mem _ h)
    refine ⟨mem', ?_⟩
    rw [hn, List.cons_append, recvLeft, if_neg hguard, hmore, hrest, List.flatten_cons,
      List.append_assoc]

theorem toInt_size (c : Chunk) : toInt ((c.data.length : Int) + 2) = c.data.length + 2 := by
  have hlt : c.data.length + 2 < 2 ^ 31 := by
    have := c.lt
    omega
  exact_mod_cast toInt_small hlt

theorem chunkData_within (reads : List Bytes) (m body next : Bytes) :
    ∃ m', chunkData buffSize reads (c.data ++ [13, 10] ++ next).length
        (c.data ++ [13, 10] ++ next ++ m) c.data.length body =
      .ok (some (next.length, next ++ m', body ++ c.data, reads)) := by
  have hlt := c.lt
  have hlen : (c.data ++ [13, 10] ++ next).length = c.data.length + 2 + next.length := by
    rw [List.length_append, List.length_append]
    rfl
  have hfits : toInt ((c.data.length : Int) + 2) ≤ (c.data ++ [13, 10] ++ next).length := by
    rw [toInt_size, hlen]
    omega
  have hsize : ((c.data.length : Int) % 2 ^ 64).toNat = c.data.length := by omega
  have htaken : ((c.data.length : Int) + 2).toNat = (c.data ++ [13, 10]).length := by
    rw [List.length_append]
    exact Int.toNat_natCast _
  have htext : stdString (c.data ++ [13, 10] ++ next ++ m) 0 c.data.length = .ok c.data := by
    have hin : 0 + c.data.length ≤ (c.data ++ [13, 10] ++ next ++ m).length := by
      rw [List.length_append, hlen]
      omega
    rw [stdString, if_neg (by omega), if_pos hin, List.drop_zero, List.append_assoc,
      List.append_assoc, List.take_left]
  have hleft : (c.data ++ [13, 10] ++ next).length - (c.data ++ [13, 10]).length = next.length := by
    rw [List.length_append, Nat.add_sub_cancel_left]
  have hnext : ((c.data ++ [13, 10] ++ next ++ m).drop (c.data ++ [13, 10]).length).take
      next.length = next := by
    rw [List.append_assoc, List.drop_left, List.take_left]
  refine ⟨(c.data ++ [13, 10] ++ next ++ m).drop next.length, ?_⟩
  rw [chunkData, if_pos hfits, hsize, htext, htaken]
  simp only [bind, Except.bind, hleft, hnext, overwrite_front]
  rfl

theorem chunkData_beyond {extra : Bytes} (rest : List Bytes) (m body : Bytes)
    (hdata : extra ++ more.flatten = c.data ++ [13, 10]) (hmore : more ≠ [])
    (hne : ∀ e ∈ more, e ≠ []) (hfit : ∀ e ∈ more, e.length ≤ buffSize) :
    ∃ m', chunkData buffSize (more ++ rest) extra.length (extra ++ m) c.data.length body =
      .ok (some (0, m', body ++ c.data, rest)) := by
  have hsum : extra.length + more.flatten.length = c.data.length + 2 := by
    simpa using congrArg List.length hdata
  have hpos : 0 < more.flatten.length :=
    List.length_pos_iff.mpr fun h => hmore (eq_nil_of_flatten hne h)
  have hfits : ¬ toInt ((c.data.length : Int) + 2) ≤ extra.length := by
    rw [toInt_size]
    omega
  have hleft : ((c.data.length : Int) - extra.length + 2).toNat = more.flatten.length := by omega
  obtain ⟨m', hrest⟩ := recvLeft_flatten rest (extra ++ m) (body ++ extra) hne hfit
  have hbody : body ++ extra ++ more.flatten = body ++ c.data ++ [13, 10] := by
    rw [List.append_assoc, hdata, List.append_assoc]
  rw [hbody] at hrest
  have hlong : ¬ (body ++ c.data ++ [13, 10]).length < 2 := by
    rw [List.length_append]
    exact Nat.not_lt.mpr (Nat.le_add_left 2 _)
  have htake : (body ++ c.data ++ [13, 10]).take ((body ++ c.data ++ [13, 10]).length - 2) =
      body ++ c.data := by
    have hlen : (body ++ c.data ++ [13, 10]).length - 2 = (body ++ c.data).length := by
      rw [List.length_append]
      rfl
    rw [hlen, List.take_left]
  refine ⟨m', ?_⟩
  rw [chunkData, if_neg hfits, List.take_left, hleft, hrest]
  simp only [if_neg hlong, htake]

end Data

end ResponseCall

namespace Chunk

variable {buffSize : Nat}

/-- What the loop over a size line starts with: the buffer, unless it is empty, and the
reads. -/
def buffered (buf : Bytes) (reads : List Bytes) : List Bytes :=
  if buf = [] then reads else buf :: reads

/-- The chunks come, with harmless cuts, from `buf` in the buffer and the answers
`reads`; after them `buf'` is in the buffer and the answers `reads'` are left. -/
inductive Come (buffSize : Nat) : List Chunk → Bytes → List Bytes → Bytes → List Bytes → Prop
  | nil (buf : Bytes) (reads : List Bytes) : Come buffSize [] buf reads buf reads
  | cons {c : Chunk} {chunks : List Chunk} {buf buf' : Bytes} {reads rest reads' : List Bytes}
    (a : c.Arrival buffSize) (hin : buffered buf reads = a.inputs rest)
    (hok : ResponseCall.harmless a.first a.cuts) (hrest : Come buffSize chunks a.next rest buf' reads') :
    Come buffSize (c :: chunks) buf reads buf' reads'

theorem Come.split {chunks more : List Chunk} {buf buf' : Bytes} {reads reads' : List Bytes}
    (h : Come buffSize (chunks ++ more) buf reads buf' reads') :
    ∃ buf₁ reads₁, Come buffSize chunks buf reads buf₁ reads₁ ∧
      Come buffSize more buf₁ reads₁ buf' reads' := by
  induction chunks generalizing buf reads with
  | nil => exact ⟨buf, reads, .nil buf reads, h⟩
  | cons c chunks ih =>
    cases h with
    | cons a hin hok hrest =>
      obtain ⟨buf₁, reads₁, hfront, hback⟩ := ih hrest
      exact ⟨buf₁, reads₁, .cons a hin hok hfront, hback⟩

end Chunk

namespace ResponseCall

variable {buffSize : Nat} {c : Chunk} {m buf : Bytes} {reads rest : List Bytes}
  {s : HttpResponseParser}

theorem chunkSize_buffered {reads' : List Bytes} {e : Bytes}
    (h : Chunk.buffered buf reads = e :: reads') (he : e ≠ []) (hfit : e.length ≤ buffSize) :
    ∃ m', chunkSize buffSize reads buf.length (buf ++ m) s =
      chunkSize buffSize reads' e.length (e ++ m') s := by
  rw [Chunk.buffered] at h
  split at h
  · rename_i hbuf
    refine ⟨m.drop e.length, ?_⟩
    rw [← recvSize_cons he hfit, ← h, hbuf, chunkSize, if_pos List.length_nil, List.nil_append]
    rfl
  · obtain ⟨rfl, rfl⟩ := List.cons.inj h
    exact ⟨m, rfl⟩

theorem fits_size (a : c.Arrival buffSize) :
    ∀ e ∈ goOn a.extra [] a.first a.cuts, e.length ≤ buffSize := by
  intro e he
  have h := goOn_append a.extra a.more [] a.cuts a.first
  exact a.fits e (List.nil_append a.more ▸ h ▸ List.mem_append_left _ he)

theorem fits_data (a : c.Arrival buffSize) : ∀ e ∈ a.more, e.length ≤ buffSize := by
  intro e he
  have h := goOn_append a.extra a.more [] a.cuts a.first
  exact a.fits e (List.nil_append a.more ▸ h ▸ List.mem_append_right _ he)

theorem chunkData_arrival (a : c.Arrival buffSize) (m body : Bytes) (rest : List Bytes) :
    ∃ m', chunkData buffSize (a.more ++ rest) a.extra.length (a.extra ++ m) c.data.length body =
      .ok (some (a.next.length, a.next ++ m', body ++ c.data, rest)) := by
  have hdata := a.rest
  by_cases hmore : a.more = []
  · rw [hmore, List.flatten_nil, List.append_nil] at hdata
    rw [hmore, hdata, List.nil_append]
    exact chunkData_within rest m body a.next
  · have hnext := a.apart.resolve_left hmore
    rw [hnext, List.append_nil] at hdata
    have hne : ∀ e ∈ a.more, e ≠ [] := fun e he =>
      a.ne_nil e (List.mem_cons_of_mem _ (List.mem_append_right _ he))
    rw [hnext]
    exact chunkData_beyond rest m body hdata hmore hne (fits_data a)

theorem recvChunks_round (a : c.Arrival buffSize)
    (hin : Chunk.buffered buf reads = a.inputs rest) (hok : harmless a.first a.cuts)
    (herr : s.error = 0) (rounds : Nat) (m body : Bytes) :
    ∃ m' s', recvChunks buffSize (rounds + 1) reads buf.length (buf ++ m) s body =
        (if c.data = [] then .ok (some (s', body ++ c.data, rest))
        else recvChunks buffSize rounds rest a.next.length (a.next ++ m') s' (body ++ c.data)) ∧
      s'.data = s.data ∧ s'.error = 0 := by
  have hcuts : ∀ e ∈ a.first :: a.cuts, e ≠ [] := fun e he =>
    a.ne_nil e (List.cons_subset_cons _ (List.subset_append_left _ _) he)
  have hlt : hexValue c.digits < 2 ^ 31 := by
    have := c.lt
    rw [c.size]
    omega
  obtain ⟨t, reads', hgo, hmem⟩ := exists_goOn a.extra (a.more ++ rest) a.cuts a.first
  have hfirst := List.append_ne_nil_of_left_ne_nil (hcuts a.first List.mem_cons_self) t
  obtain ⟨m₁, hstart⟩ :=
    chunkSize_buffered (m := m) (s := s) (hin.trans hgo) hfirst (fits_size a _ hmem)
  obtain ⟨m₂, s', hsize, hsized⟩ := chunkSize_line (m := m₁) hgo hcuts (fits_size a) a.line c.hex
    hlt herr hok
  rw [c.size] at hsized
  obtain ⟨m₃, hdata⟩ := chunkData_arrival a m₂ body rest
  refine ⟨m₃, s', ?_, hsized.data, hsized.error⟩
  rw [recvChunks, hstart, hsize]
  simp only [bind, Except.bind, hsized.contentLen, hdata, hsized.chunksDone,
    List.length_eq_zero_iff, decide_eq_true_eq]
  rfl

theorem recvChunks_come {chunks : List Chunk} {buf' : Bytes} {reads' : List Bytes}
    (h : Chunk.Come buffSize chunks buf reads buf' reads') (hne : ∀ c ∈ chunks, c.data ≠ [])
    (herr : s.error = 0) (rounds : Nat) (m body : Bytes) :
    ∃ m' s', recvChunks buffSize (chunks.length + rounds) reads buf.length (buf ++ m) s body =
        recvChunks buffSize rounds reads' buf'.length (buf' ++ m') s'
          (body ++ (chunks.map Chunk.data).flatten) ∧
      s'.data = s.data ∧ s'.error = 0 := by
  induction h generalizing s m body with
  | nil buf reads =>
    refine ⟨m, s, ?_, rfl, herr⟩
    rw [List.length_nil, Nat.zero_add, List.map_nil, List.flatten_nil, List.append_nil]
  | @cons c chunks buf buf' reads rest reads' a hin hok _ ih =>
    obtain ⟨m₁, s₁, hround, hdata₁, herr₁⟩ :=
      recvChunks_round a hin hok herr (chunks.length + rounds) m body
    rw [if_neg (hne c List.mem_cons_self)] at hround
    obtain ⟨m₂, s₂, hrest, hdata₂, herr₂⟩ :=
      ih (fun c hc => hne c (List.mem_cons_of_mem _ hc)) herr₁ m₁ (body ++ c.data)
    refine ⟨m₂, s₂, ?_, hdata₂.trans hdata₁, herr₂⟩
    rw [List.length_cons, Nat.add_right_comm, hround, hrest, List.map_cons, List.flatten_cons,
      List.append_assoc]

theorem recvChunks_broken (a : c.Arrival buffSize)
    (hin : Chunk.buffered buf reads = a.inputs rest) (hbad : broken a.cuts) (herr : s.error = 0)
    (rounds : Nat) (m body : Bytes) :
    recvChunks buffSize (rounds + 1) reads buf.length (buf ++ m) s body = .ok none := by
  obtain ⟨d, first, hfirst⟩ := List.exists_cons_of_ne_nil (a.ne_nil a.first List.mem_cons_self)
  have hline := a.line
  rw [hfirst] at hline
  have hd : digitValue d < 16 := by
    obtain ⟨d', digits, hdigits⟩ := List.exists_cons_of_ne_nil c.ne_nil
    have hhead := hline
    rw [Chunk.line, hdigits] at hhead
    obtain ⟨rfl, -⟩ := List.cons.inj hhead
    exact c.hex d (hdigits ▸ List.mem_cons_self)
  have hfit := fits_size a
  obtain ⟨t, reads', hgo, hmem⟩ := exists_goOn a.extra (a.more ++ rest) a.cuts a.first
  rw [hfirst] at hgo hfit hmem
  have hstart' : Chunk.buffered buf reads = (d :: first ++ t) :: reads' := by
    rw [hin, Chunk.Arrival.inputs, hfirst, hgo]
  obtain ⟨m₁, hstart⟩ :=
    chunkSize_buffered (m := m) (s := s) hstart' (List.cons_ne_nil _ _) (hfit _ hmem)
  have hcuts : ∀ e ∈ a.cuts, e ≠ [] := fun e he =>
    a.ne_nil e (List.mem_cons_of_mem _ (List.mem_append_left _ he))
  rw [recvChunks, hstart, chunkSize_broken hgo hcuts hfit hline c.hex hd herr hbad]
  rfl

section Moves

variable {length : Nat} {mem body : Bytes}

theorem recvLeft_moves {left : Nat} {x : Bytes × Bytes × List Bytes}
    (h : recvLeft buffSize reads left mem body = some x) :
    x.2.2.flatten.length ≤ reads.flatten.length := by
  induction reads generalizing left mem body with
  | nil =>
    cases left with
    | zero =>
      obtain rfl := Option.some.inj h
      exact Nat.le_refl _
    | succ left => cases h
  | cons c reads ih =>
    cases left with
    | zero =>
      obtain rfl := Option.some.inj h
      exact Nat.le_refl _
    | succ left =>
      obtain ⟨-, h⟩ := Option.ite_none_left_eq_some.mp h
      have := ih h
      rw [List.flatten_cons, List.length_append]
      omega

theorem chunkData_some {contentLen : Int} {x : Nat × Bytes × Bytes × List Bytes}
    (h : chunkData buffSize reads length mem contentLen body = .ok (some x)) :
    (∃ text, x = (length - (contentLen + 2).toNat, overwrite mem 0
        ((mem.drop (contentLen + 2).toNat).take (length - (contentLen + 2).toNat)),
        body ++ text, reads)) ∨
      ∃ z, recvLeft buffSize reads (contentLen - length + 2).toNat mem (body ++ mem.take length) =
          some z ∧ x = (0, z.1, z.2.1.take (z.2.1.length - 2), z.2.2) := by
  rcases ite_eq_iff.mp h with ⟨-, h⟩ | ⟨-, h⟩
  · obtain ⟨text, -, h⟩ := bind_eq_ok.mp h
    exact .inl ⟨text, (Option.some.inj (Except.ok.inj h)).symm⟩
  · split at h
    · cases h
    · rename_i z hleft
      rcases ite_eq_iff.mp h with ⟨-, h⟩ | ⟨-, h⟩
      · cases h
      · exact .inr ⟨_, hleft, (Option.some.inj (Except.ok.inj h)).symm⟩

theorem chunkData_moves {contentLen : Int} {x : Nat × Bytes × Bytes × List Bytes}
    (h : chunkData buffSize reads length mem contentLen body = .ok (some x)) :
    x.1 + x.2.2.2.flatten.length ≤ length + reads.flatten.length := by
  rcases chunkData_some h with ⟨text, rfl⟩ | ⟨z, hleft, rfl⟩
  · exact Nat.add_le_add_right (Nat.sub_le _ _) _
  · have := recvLeft_moves hleft
    simp only
    omega

/-- Each round of the loop over the chunks takes a byte, so the loop does not run out of
the rounds that it is given: more of them make no difference. -/
theorem recvChunks_rounds {rounds rounds' : Nat} (h : length + reads.flatten.length < rounds)
    (h' : length + reads.flatten.length < rounds') :
    recvChunks buffSize rounds reads length mem s body =
      recvChunks buffSize rounds' reads length mem s body := by
  induction rounds generalizing rounds' reads length mem s body with
  | zero => exact absurd h (Nat.not_lt_zero _)
  | succ rounds ih =>
    cases rounds' with
    | zero => exact absurd h' (Nat.not_lt_zero _)
    | succ rounds' =>
      rw [recvChunks, recvChunks]
      cases hsize : chunkSize buffSize reads length mem s with
      | error e => rfl
      | ok x =>
        cases x with
        | none => rfl
        | some x =>
          have hmoves := chunkSize_moves hsize
          simp only [bind, Except.bind]
          cases hdata : chunkData buffSize x.2.2.2 x.1 x.2.1 x.2.2.1.parser.contentLen body with
          | error e => rfl
          | ok y =>
            cases y with
            | none => rfl
            | some y =>
              have hmoves' := chunkData_moves hdata
              have hrest : recvChunks buffSize rounds y.2.2.2 y.1 y.2.1 x.2.2.1 y.2.2.1 =
                  recvChunks buffSize rounds' y.2.2.2 y.1 y.2.1 x.2.2.1 y.2.2.1 :=
                ih (by omega) (by omega)
              simp only [hrest]

end Moves

def parseFirst (call : ResponseCall) (read : Bytes) : Except Fault (Nat × HttpResponseParser) :=
  call.parser.httpclientParserExecute (overwrite (overwrite call.memory 0 read) read.length [0])
    read.length

/-- The first read brings a head, with `surplus` after it, that the parser accepts and
takes for the head of a chunked response. -/
structure Announces (call : ResponseCall) (head surplus : Bytes) (parsed : HttpResponseParser) :
    Prop where
  ne_nil : head ≠ []
  fits : (head ++ surplus).length ≤ call.buffSize
  parses : call.parseFirst (head ++ surplus) = .ok (head.length, parsed)
  accepted : parsed.hasError = false
  finished : parsed.isFinished
  chunked : parsed.parser.chunked

variable {call : ResponseCall} {head surplus : Bytes} {parsed : HttpResponseParser}

theorem Announces.error (h : call.Announces head surplus parsed) : parsed.error = 0 := by
  have := h.accepted
  simp only [HttpResponseParser.hasError, Bool.or_eq_false_iff] at this
  simpa using this.1

theorem Announces.recvHead_eq (h : call.Announces head surplus parsed) (reads : List Bytes) :
    ∃ m, recvHead call.buffSize ((head ++ surplus) :: reads) 0 call.memory call.parser =
      .ok (some (surplus.length, surplus ++ m, parsed, reads)) := by
  have hread := List.append_ne_nil_of_left_ne_nil h.ne_nil surplus
  have hguard : ¬(head ++ surplus = [] ∨ call.buffSize - 0 < (head ++ surplus).length) := by
    rintro (hnil | hlt)
    · exact hread hnil
    · exact absurd h.fits (Nat.not_le_of_lt hlt)
  -- the buffer with the read and the null after it, and what is moved to its front
  obtain ⟨mem, hmem, hmove⟩ : ∃ mem, overwrite (overwrite call.memory 0 (head ++ surplus))
      (head ++ surplus).length [0] = mem ∧ (mem.drop head.length).take surplus.length = surplus := by
    refine ⟨_, rfl, ?_⟩
    rw [overwrite_front, overwrite, List.take_left, List.append_assoc, List.append_assoc,
      List.drop_left, List.take_left]
  have hlen : (head ++ surplus).length - head.length = surplus.length := by
    rw [List.length_append, Nat.add_sub_cancel_left]
  have hroom : ¬ surplus.length = call.buffSize := by
    have hfits := h.fits
    have hpos := List.length_pos_iff.mpr h.ne_nil
    rw [List.length_append] at hfits
    omega
  have hparses := h.parses
  rw [parseFirst, hmem] at hparses
  have hexec : call.parser.execute mem (head ++ surplus).length false =
      .ok (head.length, surplus ++ mem.drop surplus.length, parsed) := by
    rw [HttpResponseParser.execute]
    simp only [Bool.false_eq_true, if_false, hparses, bind, Except.bind, hlen, hmove,
      overwrite_front]
    rfl
  refine ⟨mem.drop surplus.length, ?_⟩
  rw [recvHead, if_neg hguard]
  simp only [Nat.add_zero, hmem, hexec, bind, Except.bind, h.accepted, hlen, if_neg hroom,
    h.finished, Bool.false_eq_true, if_false, if_true, pure, Except.pure]

/-- The chunks of a response are put together when the cuts in their size lines are
harmless. A cut right before the return or the line feed of a size line, with harmless
cuts in the lines before it, ends the call without a response. -/
theorem recvResponse_chunks (call : ResponseCall) (head surplus : Bytes)
    (parsed : HttpResponseParser) (reads : List Bytes) (chunks : List Chunk) (last : Chunk)
    (hne : ∀ c ∈ chunks, c.data ≠ []) (hlast : last.data = [])
    (hhead : call.Announces head surplus parsed) :
    (∀ buf left, Chunk.Come call.buffSize (chunks ++ [last]) surplus reads buf left →
      call.recvResponse ((head ++ surplus) :: reads) =
        .ok (some ({ parsed.data with body := (chunks.map Chunk.data).flatten }, left))) ∧
    (∀ before c after buf left rest (a : Chunk.Arrival call.buffSize c),
      chunks ++ [last] = before ++ c :: after →
      Chunk.Come call.buffSize before surplus reads buf left →
      Chunk.buffered buf left = a.inputs rest → broken a.cuts →
      call.recvResponse ((head ++ surplus) :: reads) = .ok none) := by
  obtain ⟨m, hrecv⟩ := hhead.recvHead_eq reads
  have hstart : ∀ {k x}, recvChunks call.buffSize (k + (surplus.length + reads.flatten.length + 1))
      reads surplus.length (surplus ++ m) parsed [] = .ok x →
      call.recvResponse ((head ++ surplus) :: reads) =
        .ok (x.map fun y => ({ y.1.data with body := y.2.1 }, y.2.2)) := by
    intro k x hx
    rw [recvChunks_rounds (by omega) (Nat.lt_succ_self _)] at hx
    simp only [recvResponse, hrecv, bind, Except.bind, hhead.chunked, if_true, hx]
    cases x <;> rfl
  constructor
  · intro buf left hcome
    obtain ⟨buf₁, reads₁, hfront, hback⟩ := hcome.split
    obtain ⟨m₁, s₁, hchunks, hdata₁, herr₁⟩ := recvChunks_come hfront hne hhead.error
      (surplus.length + reads.flatten.length + 1) m []
    cases hback with
    | @cons _ _ _ _ _ rest _ a hin hok hrest =>
      obtain ⟨m₂, s₂, hround, hdata₂, -⟩ :=
        recvChunks_round a hin hok herr₁ (surplus.length + reads.flatten.length) m₁
          ([] ++ (chunks.map Chunk.data).flatten)
      cases hrest
      rw [if_pos hlast, hlast, List.append_nil, List.nil_append] at hround
      rw [List.nil_append, hround] at hchunks
      rw [hstart hchunks, Option.map_some, hdata₂, hdata₁]
  · intro before c after buf left rest a hsplit hcome hin hbad
    -- the chunks before the broken one are not the last
    have hbefore : ∀ c ∈ before, c.data ≠ [] := by
      intro c' hc'
      have hdrop := congrArg List.dropLast hsplit
      rw [List.dropLast_concat, List.dropLast_append_of_ne_nil (List.cons_ne_nil c after)] at hdrop
      exact hne c' (hdrop ▸ List.mem_append_left _ hc')
    obtain ⟨m₁, s₁, hchunks, -, herr₁⟩ := recvChunks_come hcome hbefore hhead.error
      (surplus.length + reads.flatten.length + 1) m []
    rw [recvChunks_broken a hin hbad herr₁] at hchunks
    rw [hstart hchunks, Option.map_none]

def tiny : ResponseCall :=
  { buffSize := 80
    memory := List.replicate 81 0
    status := 0
    lexicalCast := fun _ => none
    fits := Nat.le_of_eq List.length_replicate.symm
    int := by decide }

def chunkedLines : List Bytes :=
  [ascii ['H', 'T', 'T', 'P', '/', '1', '.', '1', ' ', '2', '0', '0', ' ', 'O', 'K'],
    ascii ['T', 'r', 'a', 'n', 's', 'f', 'e', 'r', '-', 'E', 'n', 'c', 'o', 'd', 'i', 'n', 'g', ':'] ++
      ascii ['c', 'h', 'u', 'n', 'k', 'e', 'd'], []]

def chunkedHead : Bytes := (chunkedLines.map (· ++ [13, 10])).flatten

def chunkedParsed : HttpResponseParser :=
  { parser :=
      { HttpclientParser.init 200 with
        cs := 120, bodyStart := 46, chunked := true, nread := 46, mark := 35, fieldStart := 17
        fieldLen := 17 }
    data :=
      { HttpResponse.fresh with
        reason := ascii ['O', 'K']
        headers :=
          [(ascii ['T', 'r', 'a', 'n', 's', 'f', 'e', 'r', '-', 'E', 'n', 'c', 'o', 'd', 'i', 'n', 'g'],
            ascii ['c', 'h', 'u', 'n', 'k', 'e', 'd'])] }
    error := 0 }

def sixteen : Chunk :=
  { digits := ascii ['0', '1', '0']
    data := List.replicate 16 120
    ne_nil := by decide
    hex := by decide +kernel
    size := by decide
    lt := by
      rw [List.length_replicate]
      omega }

def zero : Chunk :=
  { digits := ascii ['0']
    data := []
    ne_nil := by decide
    hex := by decide +kernel
    size := by decide
    lt := by
      rw [List.length_nil]
      omega }

def sixteen.cut : sixteen.Arrival tiny.buffSize :=
  { first := ascii ['0']
    cuts := [ascii ['1', '0', '\r', '\n']]
    extra := sixteen.data ++ [13, 10] ++ zero.bytes
    more := []
    next := zero.bytes
    line := by decide
    rest := by decide
    apart := .inl rfl
    ne_nil := by decide
    fits := by decide }

def zero.whole : zero.Arrival tiny.buffSize :=
  { first := zero.line
    cuts := []
    extra := [13, 10]
    more := []
    next := []
    line := by decide
    rest := by decide
    apart := .inl rfl
    ne_nil := by decide
    fits := by decide }

theorem recvResponse_chunks_zero :
    tiny.recvResponse [chunkedHead ++ ascii ['0'],
        ascii ['1', '0', '\r', '\n'] ++ sixteen.data ++ [13, 10] ++ zero.bytes] =
      .ok (some ({ chunkedParsed.data with body := sixteen.data }, [])) := by
  have hhead : tiny.Announces chunkedHead (ascii ['0']) chunkedParsed :=
    ⟨by decide, by decide, by decide, by decide, by decide, by decide⟩
  have hin : Chunk.buffered (ascii ['0'])
      [ascii ['1', '0', '\r', '\n'] ++ sixteen.data ++ [13, 10] ++ zero.bytes] =
      sixteen.cut.inputs [] := by decide
  have hin' : Chunk.buffered zero.bytes [] = zero.whole.inputs [] := by decide
  have hcome : Chunk.Come tiny.buffSize [sixteen, zero] (ascii ['0'])
      [ascii ['1', '0', '\r', '\n'] ++ sixteen.data ++ [13, 10] ++ zero.bytes] [] [] :=
    .cons sixteen.cut hin (by decide) (.cons zero.whole hin' (by decide) (.nil [] []))
  have hne : ∀ c ∈ [sixteen], c.data ≠ [] := by
    intro c hc
    obtain rfl := List.mem_singleton.mp hc
    decide
  exact (recvResponse_chunks tiny chunkedHead (ascii ['0']) chunkedParsed _ [sixteen] zero hne rfl
    hhead).1 [] [] hcome

/-- Cut after a digit that counts, the size of the chunk is taken for zero and the body
comes out empty. -/
theorem cut_size_loses_body :
    tiny.recvResponse [chunkedHead ++ ascii ['0'], ascii ['1'],
        ascii ['0', '\r', '\n'] ++ sixteen.data ++ [13, 10] ++ zero.bytes] =
      .ok (some ({ chunkedParsed.data with body := [] }, [])) ∧
    ascii ['0'] ++ [ascii ['1'],
        ascii ['0', '\r', '\n'] ++ sixteen.data ++ [13, 10] ++ zero.bytes].flatten =
      ([sixteen, zero].map Chunk.bytes).flatten ∧
    ([sixteen, zero].map Chunk.data).flatten ≠ [] := by
  decide

end ResponseCall

end Sylar.Http
