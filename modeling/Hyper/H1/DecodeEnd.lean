import Hyper.H1.Conn

/-!
# Where a body ends (`Decoder::is_eof`, the body arm of `Conn::poll_read_body`)

A consumer of a body learns that it has ended from an empty piece: `decode` returns
`Ok(Bytes::new())`, and `Conn::poll_read_body` reports `Ready(None)`.  The connection trusts the
decoder on this.  Seeing an empty piece, it asks `is_eof`; if the decoder says it has not ended,
the body "unexpectedly ended", and the read side is closed.

That branch is never taken.  Every kind of decoder returns an empty piece only from a state that
`is_eof` accepts (`is_eof_of_decode_empty`): a `Length` decoder at zero, the chunked machine at
`End` (the body bytes of a step are never empty, `step_buf_ne_nil`), and an `Eof` decoder that
has just read nothing.  A decoder at its end returns an empty piece again, and leaves the reader
as it was (`decode_of_is_eof`).  So the connection reports the end of a body exactly when the
decoder's framing has ended (`decoder_end_of_body`).

The `Length` arm asks the reader for `*remaining as usize` bytes.  Where that is not zero, a reader
that has bytes hands some over, and the decoder steps forward (`decode_length_progress`); every
length hyper accepts casts to itself on a 64-bit target (`length_cast_64`).  On a 32-bit target a
multiple of `2 ^ 32` casts to zero: the decoder asks for nothing, gets nothing, and reports
`IncompleteBody` with the body's bytes waiting in the read buffer
(`length_decode_empty_read_on_wrap`).  The chunked arm caps the same cast at `usize::MAX` instead.
-/

set_option autoImplicit false

namespace Hyper.H1

open MemRead

namespace ChunkedState

variable {R : Type} [MemRead R]

theorem withByte_buf (st : ChunkedState) (r : R) (size : ℕ) : (st.withByte r size).buf = none := by
  unfold withByte
  split <;> rfl

/-- `read_body` hands out a slice only when the read brought bytes. -/
theorem read_body_buf_ne_nil {w rem : ℕ} {r : R} {buf : List UInt8}
    (h : (read_body w r rem).buf = some buf) : buf ≠ [] := by
  unfold read_body at h
  dsimp only at h
  split at h
  · rename_i slice _ _
    split_ifs at h with hlen <;>
    · obtain rfl := Option.some.inj h
      exact fun hnil ↦ hlen (by rw [hnil, List.length_nil])
  all_goals cases h

/-- The body bytes of a step are never empty. -/
theorem step_buf_ne_nil {w size : ℕ} {st : ChunkedState} {r : R} {buf : List UInt8}
    (h : (st.step w r size).buf = some buf) : buf ≠ [] := by
  by_cases hb : st = Body
  · subst hb
    exact read_body_buf_ne_nil h
  by_cases he : st = End
  · subst he
    cases h
  rw [step_byte hb he, withByte_buf] at h
  cases h

end ChunkedState

namespace Decoder

variable {R : Type} [MemRead R]

/-! ## An empty piece is the end of the body -/

/-- The chunked loop returns an empty piece only when it has reached `End`. -/
theorem chunkedLoop_empty_end (w : ℕ) : ∀ (fuel : ℕ) (st : ChunkedState) (size : ℕ) (r : R),
    (chunkedLoop w fuel st size r).1 = .ready (.ok []) → (chunkedLoop w fuel st size r).2.1.is_eof = true
  | 0, _, _, _, h => by cases h
  | fuel + 1, st, size, r, h => by
    simp only [chunkedLoop] at h ⊢
    -- the step's outcome first, so that the loop's branches can be read off it
    rcases hs : st.step w r size with ⟨(e | st') | _, size', buf, r'⟩
    · rw [hs] at h
      cases h
    · rw [hs] at h
      dsimp only at h ⊢
      by_cases hend : st' = .End
      · subst hend
        rfl
      · rw [if_neg hend] at h ⊢
        rcases buf with _ | buf
        · exact chunkedLoop_empty_end w fuel st' size' r' h
        · -- body bytes are never the empty piece
          have hne := ChunkedState.step_buf_ne_nil (show (st.step w r size).buf = some buf by rw [hs])
          simp only [Poll.ready.injEq, Except.ok.injEq] at h
          exact absurd h hne
    · rw [hs] at h
      cases h

/-- **An empty piece means the body has ended**, whichever kind the decoder is and whatever the
reader answers. -/
theorem is_eof_of_decode_empty (w : ℕ) (d : Decoder) (r : R)
    (h : (decode w d r).1 = .ready (.ok [])) : (decode w d r).2.1.is_eof = true := by
  rcases d with ⟨remaining | ⟨st, size⟩ | is_eof⟩
  · -- `Length`: an empty read is `IncompleteBody`, so the piece is empty only at zero
    simp only [decode] at h ⊢
    by_cases h0 : remaining = 0
    · subst h0
      rfl
    rw [if_neg h0] at h ⊢
    rcases hr : read_mem r (remaining % 2 ^ w) with ⟨(e | buf) | _, r'⟩ <;> rw [hr] at h <;>
      dsimp only at h ⊢
    · cases h
    · split_ifs at h ⊢ with hgt hz
      · rfl
      · cases h
      · simp only [Poll.ready.injEq, Except.ok.injEq] at h
        exact absurd (by rw [h, List.length_nil]) hz
    · cases h
  · exact chunkedLoop_empty_end w _ st size r h
  · -- `Eof`: the decoder records that its read was empty
    simp only [decode] at h ⊢
    cases is_eof
    · rw [if_neg Bool.false_ne_true] at h ⊢
      rcases hr : read_mem r 8192 with ⟨(e | slice) | _, r'⟩ <;> rw [hr] at h <;> dsimp only at h ⊢
      · cases h
      · simp only [Poll.ready.injEq, Except.ok.injEq] at h
        subst h
        rfl
      · cases h
    · rfl

/-- A decoder at its end returns the empty piece again, and does not read. -/
theorem decode_of_is_eof (w : ℕ) {d : Decoder} (hd : d.is_eof = true) (r : R) :
    decode w d r = (.ready (.ok []), d, r) := by
  rcases d with ⟨kind⟩
  unfold is_eof at hd
  split at hd
  · rename_i heq
    simp only at heq
    subst heq
    rfl
  · -- the chunked machine at `End` steps to `End` without reading
    rename_i size heq
    simp only at heq
    subst heq
    show chunkedLoop w (supply r + 1) .End size r = _
    rfl
  · rename_i heq
    simp only at heq
    subst heq
    rfl
  · cases hd

/-! ## The connection reports the end exactly at the decoder's end -/

theorem readBody_ready_none {B : Type} [Buf B] {In Out : Type} (T : Transaction In Out) (c : Conn B)
    (d : Decoder) :
    (Conn.readBody T c d).1 = .ready none ↔
      ∃ d' io, decode 64 d c.io = (.ready (.ok []), d', io) ∧ d'.is_eof = true := by
  have hend := is_eof_of_decode_empty 64 d c.io
  unfold Conn.readBody
  rcases hr : decode 64 d c.io with ⟨(e | slice) | _, d', io⟩ <;> rw [hr] at hend <;> dsimp only
  · simp
  · by_cases heof : d'.is_eof
    · rw [if_pos heof]
      by_cases hs : slice = []
      · simp [hs, heof]
      · simp [hs]
    · -- the "unexpectedly ended" branch: an empty piece would have ended the decoder
      rw [if_neg heof]
      have hs : slice ≠ [] := fun hs ↦ heof (hend (by rw [hs]))
      simp [hs]
  · simp

theorem decoder_end_of_body :
    (∀ {R : Type} [MemRead R] (w : ℕ) (d : Decoder) (r : R),
      (decode w d r).1 = .ready (.ok []) → (decode w d r).2.1.is_eof = true) ∧
    (∀ {R : Type} [MemRead R] (w : ℕ) (d : Decoder) (r : R),
      d.is_eof = true → decode w d r = (.ready (.ok []), d, r)) ∧
    (∀ {B : Type} [Buf B] {In Out : Type} (T : Transaction In Out) (c : Conn B) (d : Decoder),
      (Conn.readBody T c d).1 = .ready none ↔
        ∃ d' io, decode 64 d c.io = (.ready (.ok []), d', io) ∧ d'.is_eof = true) :=
  ⟨fun w d r h ↦ is_eof_of_decode_empty w d r h, fun w _ r hd ↦ decode_of_is_eof w hd r,
    fun T c d ↦ readBody_ready_none T c d⟩

/-! ## The length arm and the cast to `usize` -/

/-- Where `remaining as usize` is not zero, a reader that hands out some bytes, and no more than
it was asked for, moves the decoder forward by exactly those bytes. -/
theorem decode_length_progress {w remaining : ℕ} {r r' : R} {buf : List UInt8}
    (hcast : 0 < remaining % 2 ^ w) (hread : read_mem r (remaining % 2 ^ w) = (.ready (.ok buf), r'))
    (hle : buf.length ≤ remaining % 2 ^ w) (hne : buf ≠ []) :
    decode w (length remaining) r = (.ready (.ok buf), length (remaining - buf.length), r') := by
  have hpos : 0 < remaining := Nat.pos_of_ne_zero fun h0 ↦ by simp [h0] at hcast
  exact decode_length_slice hpos hread hne (hle.trans (Nat.mod_le _ _))

/-- On a 64-bit target every length hyper accepts casts to itself. -/
theorem length_cast_64 {remaining : ℕ} (h : remaining ≤ DecodedLength.MAX_LEN) :
    remaining % 2 ^ 64 = remaining :=
  Nat.mod_eq_of_lt (by unfold DecodedLength.MAX_LEN at h; omega)

/-- `IncompleteBody` comes only from an empty read. -/
theorem decode_length_incomplete {w remaining : ℕ} {r : R} {d' : Decoder} {r' : R}
    (h : decode w (length remaining) r = (.ready (.error incompleteBody), d', r'))
    (hread : ∀ e, (read_mem r (remaining % 2 ^ w)).1 ≠ .ready (.error e)) :
    read_mem r (remaining % 2 ^ w) = (.ready (.ok []), r') := by
  simp only [decode, length] at h
  by_cases h0 : remaining = 0
  · rw [if_pos h0] at h
    cases h
  rw [if_neg h0] at h
  rcases hr : read_mem r (remaining % 2 ^ w) with ⟨(e | buf) | _, r''⟩ <;> rw [hr] at h <;>
    dsimp only at h
  · exact absurd (by rw [hr]) (hread e)
  · split_ifs at h with hgt hz
    · cases h
    · simp only [Prod.mk.injEq] at h
      rw [List.eq_nil_of_length_eq_zero hz, h.2.2]
    · cases h
  · cases h

end Decoder

/-- A length that is a multiple of `2 ^ w` casts to a request for no bytes: with the body's bytes
already in the read buffer, where any request for one byte or more would get some, the decoder
reports `IncompleteBody`. -/
theorem length_decode_empty_read_on_wrap {B : Type} [Buf B] (w k : ℕ) (b : Buffered B)
    (hk : 0 < k) (hbuf : b.read_buf ≠ []) :
    (∀ len, 0 < len → ∃ bs b', read_mem b len = (.ready (.ok bs), b') ∧ bs ≠ [] ∧ bs.length ≤ len) ∧
    Decoder.decode w (Decoder.length (k * 2 ^ w)) b =
      (.ready (.error incompleteBody), Decoder.length (k * 2 ^ w), b) := by
  have hread : ∀ len, read_mem b len =
      (.ready (.ok (b.read_buf.take (min len b.read_buf.length))),
        { b with read_buf := b.read_buf.drop (min len b.read_buf.length) }) := fun len ↦ by
    show Buffered.read_mem b len = _
    rw [Buffered.read_mem, if_pos hbuf]
  refine ⟨fun len hlen ↦ ⟨_, _, hread len, ?_, ?_⟩, ?_⟩
  · have hpos : 0 < b.read_buf.length := List.length_pos_iff.mpr hbuf
    intro hnil
    have := congrArg List.length hnil
    simp only [List.length_take, List.length_nil] at this
    omega
  · simp only [List.length_take]
    omega
  · have hpos : k * 2 ^ w ≠ 0 := Nat.mul_ne_zero (Nat.pos_iff_ne_zero.mp hk) (by positivity)
    simp only [Decoder.decode, Decoder.length, hpos, if_false, Nat.mul_mod_left, hread 0, Nat.zero_min,
      List.take_zero, List.drop_zero, List.length_nil]
    rfl

/-- The read buffer of a connection that has read one byte of a body. -/
def oneByteRead : Buffered (List UInt8) := { Buffered.new ⟨[], [], [], []⟩ .Flatten with read_buf := [0] }

theorem length_decode_empty_read_on_wrap_32 :
    1 * 2 ^ 32 ≤ DecodedLength.MAX_LEN ∧ 0 < 1 ∧ oneByteRead.read_buf ≠ [] ∧
      Decoder.decode 32 (Decoder.length (1 * 2 ^ 32)) oneByteRead =
        (.ready (.error incompleteBody), Decoder.length (1 * 2 ^ 32), oneByteRead) :=
  ⟨by unfold DecodedLength.MAX_LEN; omega, by decide, by decide,
    (length_decode_empty_read_on_wrap 32 1 oneByteRead (by decide) (by decide)).2⟩

end Hyper.H1
