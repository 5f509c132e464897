import Hyper.Basic

/-!
# The HTTP/1 body decoder (`proto/h1/decode.rs`)

A `Decoder` turns the bytes after a message head into the message body.  It has three kinds,
chosen from the head by the role: `Length n` reads exactly `n` more bytes, `Eof` reads until the
transport ends, and `Chunked` undoes the chunked transfer coding of RFC 7230 §4.1.

The chunked decoder is a state machine over `ChunkedState` that consumes the size line, the
trailer and the line ends **one byte at a time**, through the `byte!` macro, and the chunk data
in slices of at most the size still owed.  Each state has its reader, `read_size` …
`read_end_lf`; here each of them is split into the `byte!` that reads the byte
(`ChunkedState.withByte`) and the `match` that decides on it (`ChunkedState.onByte`), which is a
pure function.  `ChunkedState.step` dispatches on the state exactly as the source does, and
`Decoder.decode` loops over `step` until it has body bytes to return, has reached `End`, or
cannot go on.

## Readers

`decode` reads through the `MemRead` trait.  The class carries, besides `read_mem`, a number
`supply` that every non-empty read lowers: a bound on the bytes the reader will still hand out.
The trait has no such method; the model needs it because the chunked loop of `decode` only goes
round again after `byte!` has read a byte, so `supply` bounds the number of rounds and the loop
can be written with that many rounds of fuel.  `decode_chunked` shows that the fuel never runs
out, and the rest of the development reasons with that equation, not with the fuel.

`Feed` is the reader the statements below run the decoder over: a byte string delivered
according to a `Delivery` plan — any mix of `Pending`s and reads cut short at any length — and,
once the plan is spent, in reads as long as asked for.  With an empty plan it is exactly the
test suite's `impl MemRead for &[u8]`.

Two rules hold of every reader: `decode_follows`, that a call leaves a decoder of the same kind,
a length one owing exactly the slice it handed out less (`Decoder.Follows`), and `decode_map`,
that a reader wrapped in state no read looks at is decoded as the bare one.

## Fixed-width arithmetic

The size of a chunk and the remaining length are `u64`s; they are `ℕ` here, with the source's
`checked_mul` and `checked_add` where it checks for overflow.  The casts from `u64` to `usize`
(`remaining as usize`, and the cap of `read_body`) depend on the target's pointer width `w`,
which is a parameter of `decode`.
-/

set_option autoImplicit false

namespace Hyper.H1

/-! ## Readers -/

/-- `MemRead`: a source of bytes for a decoder.  `read_mem r len` is a read of at most `len`
bytes, as the trait asks (the model does not require it); `supply` bounds how many bytes the
reader will still hand out, and every non-empty read lowers it. -/
class MemRead (R : Type) where
  read_mem : R → ℕ → Poll (Except IoError (List UInt8)) × R
  supply : R → ℕ
  supply_lt {r r' : R} {len : ℕ} {bs : List UInt8} :
    read_mem r len = (.ready (.ok bs), r') → bs ≠ [] → supply r' < supply r

open MemRead

/-- How a `Feed` answers one read: `Pending`, or at most `k + 1` bytes — never none while bytes
are left, which would read as the end of the stream. -/
inductive Delivery where
  | pending
  | upTo (k : ℕ)
  deriving DecidableEq, Repr

/-- A byte string delivered according to a plan; once the plan is spent, every read gets as many
bytes as it asks for. -/
structure Feed where
  data : List UInt8
  plan : List Delivery
  deriving DecidableEq, Repr

/-- The read of a `Feed`.  With an empty plan this is the test suite's `impl MemRead for &[u8]`:
`min(len, remaining)` bytes, and an empty read at the end. -/
def Feed.read_mem (f : Feed) (len : ℕ) : Poll (Except IoError (List UInt8)) × Feed :=
  match f.plan with
  | [] => (.ready (.ok (f.data.take len)), ⟨f.data.drop len, []⟩)
  | .pending :: plan => (.pending, ⟨f.data, plan⟩)
  | .upTo k :: plan =>
    (.ready (.ok (f.data.take (min (k + 1) len))), ⟨f.data.drop (min (k + 1) len), plan⟩)

theorem Feed.read_mem_ok {f f' : Feed} {len : ℕ} {bs : List UInt8}
    (h : f.read_mem len = (.ready (.ok bs), f')) :
    ∃ n ≤ len, bs = f.data.take n ∧ f'.data = f.data.drop n := by
  unfold Feed.read_mem at h
  split at h <;> simp only [Prod.mk.injEq, Poll.ready.injEq, Except.ok.injEq, reduceCtorEq,
    false_and] at h
  · obtain ⟨rfl, rfl⟩ := h
    exact ⟨len, Nat.le_refl _, rfl, rfl⟩
  · obtain ⟨rfl, rfl⟩ := h
    exact ⟨_, Nat.min_le_right _ _, rfl, rfl⟩

instance : MemRead Feed where
  read_mem := Feed.read_mem
  supply f := f.data.length
  supply_lt {f f' len bs} h hne := by
    obtain ⟨n, -, rfl, hdata⟩ := Feed.read_mem_ok h
    have hlen : 0 < (f.data.take n).length := List.length_pos_iff.mpr hne
    rw [List.length_take] at hlen
    rw [hdata, List.length_drop]
    omega

/-! ## The state machine of the chunked coding -/

/-- `ChunkedState`. -/
inductive ChunkedState where
  | Size
  | SizeLws
  | Extension
  | SizeLf
  | Body
  | BodyCr
  | BodyLf
  | Trailer
  | TrailerLf
  | EndCr
  | EndLf
  | End
  deriving DecidableEq, Repr

/-- The error `decode` raises when the body ends before its length: `IncompleteBody`, whose
message is "end of file before message length reached". -/
def incompleteBody : IoError := ⟨.UnexpectedEof, "end of file before message length reached"⟩

namespace ChunkedState

/-- The `or_overflow!` step of `read_size`: `size * 16 + d`, failing as soon as either the
multiplication or the addition leaves `u64`.  The size is returned even on failure, as the
`&mut` the source writes through keeps whatever was assigned before the error. -/
def accumulate (size d : ℕ) : Except IoError ChunkedState × ℕ :=
  let overflow : IoError := ⟨.InvalidData, "invalid chunk size: overflow"⟩
  match checked_mul size 16 with
  | none => (.error overflow, size)
  | some s =>
    match checked_add s d with
    | none => (.error overflow, s)
    | some s' => (.ok Size, s')

/-- A digit that keeps the size within `u64` goes into it. -/
theorem accumulate_ok {size d : ℕ} (h : size * 16 + d < 2 ^ 64) :
    accumulate size d = (.ok Size, size * 16 + d) := by
  have hmul : checked_mul size 16 = some (size * 16) := if_pos (by omega)
  have hadd : checked_add (size * 16) d = some (size * 16 + d) := if_pos h
  simp only [accumulate, hmul, hadd]

/-- The `match` of `read_size` on the byte `b`: a hex digit goes into the size; blank, `;` and CR
end the digits. -/
def read_size (size : ℕ) (b : UInt8) : Except IoError ChunkedState × ℕ :=
  if 48 ≤ b ∧ b ≤ 57 then accumulate size (b.toNat - 48)
  else if 97 ≤ b ∧ b ≤ 102 then accumulate size (b.toNat + 10 - 97)
  else if 65 ≤ b ∧ b ≤ 70 then accumulate size (b.toNat + 10 - 65)
  else if b = 9 ∨ b = 32 then (.ok SizeLws, size)
  else if b = 59 then (.ok Extension, size)
  else if b = CR then (.ok SizeLf, size)
  else (.error ⟨.InvalidInput, "Invalid chunk size line: Invalid Size"⟩, size)

/-- The `match` of `read_size_lws`: blanks may follow the size, but no more digits. -/
def read_size_lws (b : UInt8) : Except IoError ChunkedState :=
  if b = 9 ∨ b = 32 then .ok SizeLws
  else if b = 59 then .ok Extension
  else if b = CR then .ok SizeLf
  else .error ⟨.InvalidInput, "Invalid chunk size linear white space"⟩

/-- The `match` of `read_extension`: an extension runs to the CR, and may not hold a bare LF. -/
def read_extension (b : UInt8) : Except IoError ChunkedState :=
  if b = CR then .ok SizeLf
  else if b = LF then .error ⟨.InvalidData, "invalid chunk extension contains newline"⟩
  else .ok Extension

/-- The `match` of `read_size_lf`: the LF that ends the size line, after which a size of zero
means the last chunk. -/
def read_size_lf (size : ℕ) (b : UInt8) : Except IoError ChunkedState :=
  if b = LF then (if size = 0 then .ok EndCr else .ok Body)
  else .error ⟨.InvalidInput, "Invalid chunk size LF"⟩

/-- The `match` of `read_body_cr`. -/
def read_body_cr (b : UInt8) : Except IoError ChunkedState :=
  if b = CR then .ok BodyLf else .error ⟨.InvalidInput, "Invalid chunk body CR"⟩

/-- The `match` of `read_body_lf`. -/
def read_body_lf (b : UInt8) : Except IoError ChunkedState :=
  if b = LF then .ok Size else .error ⟨.InvalidInput, "Invalid chunk body LF"⟩

/-- The `match` of `read_trailer`: a trailer line runs to its CR. -/
def read_trailer (b : UInt8) : Except IoError ChunkedState :=
  if b = CR then .ok TrailerLf else .ok Trailer

/-- The `match` of `read_trailer_lf`. -/
def read_trailer_lf (b : UInt8) : Except IoError ChunkedState :=
  if b = LF then .ok EndCr else .error ⟨.InvalidInput, "Invalid trailer end LF"⟩

/-- The `match` of `read_end_cr`: a CR starts the final CRLF, anything else a trailer line. -/
def read_end_cr (b : UInt8) : Except IoError ChunkedState :=
  if b = CR then .ok EndLf else .ok Trailer

/-- The `match` of `read_end_lf`. -/
def read_end_lf (b : UInt8) : Except IoError ChunkedState :=
  if b = LF then .ok End else .error ⟨.InvalidInput, "Invalid chunk end LF"⟩

/-- What each state that reads through `byte!` does with its byte; `read_size` is the only one
that changes the size.  `Body` and `End` do not read a byte and are never asked. -/
def onByte : ChunkedState → ℕ → UInt8 → Except IoError ChunkedState × ℕ
  | Size, size, b => read_size size b
  | SizeLws, size, b => (read_size_lws b, size)
  | Extension, size, b => (read_extension b, size)
  | SizeLf, size, b => (read_size_lf size b, size)
  | BodyCr, size, b => (read_body_cr b, size)
  | BodyLf, size, b => (read_body_lf b, size)
  | Trailer, size, b => (read_trailer b, size)
  | TrailerLf, size, b => (read_trailer_lf b, size)
  | EndCr, size, b => (read_end_cr b, size)
  | EndLf, size, b => (read_end_lf b, size)
  | Body, size, _ => (.ok Body, size)
  | End, size, _ => (.ok End, size)

variable {R : Type} [MemRead R]

/-- What one `step` of the machine leaves: its result, the size, the body bytes it read (the
`buf` out-parameter) and the reader. -/
structure Stepped (R : Type) where
  res : Poll (Except IoError ChunkedState)
  size : ℕ
  buf : Option (List UInt8)
  rdr : R

/-- The `byte!` macro followed by the reader's `match`: one byte, or `UnexpectedEof` if the
reader has none. -/
def withByte (st : ChunkedState) (r : R) (size : ℕ) : Stepped R :=
  match read_mem r 1 with
  | (.ready (.ok (b :: _)), r') =>
    let out := st.onByte size b
    ⟨.ready out.1, out.2, none, r'⟩
  | (.ready (.ok []), r') =>
    ⟨.ready (.error ⟨.UnexpectedEof, "unexpected EOF during chunk size line"⟩), size, none, r'⟩
  | (.ready (.error e), r') => ⟨.ready (.error e), size, none, r'⟩
  | (.pending, r') => ⟨.pending, size, none, r'⟩

/-- `read_body`: a slice of at most the size still owed (capped at `usize::MAX`); an empty read
means the body was cut short. -/
def read_body (w : ℕ) (r : R) (rem : ℕ) : Stepped R :=
  let rem_cap := if rem > usize_max w then usize_max w else rem
  match read_mem r rem_cap with
  | (.ready (.ok slice), r') =>
    if slice.length = 0 then ⟨.ready (.error incompleteBody), 0, none, r'⟩
    else
      let rem' := rem - slice.length
      ⟨.ready (.ok (if rem' > 0 then Body else BodyCr)), rem', some slice, r'⟩
  | (.ready (.error e), r') => ⟨.ready (.error e), rem, none, r'⟩
  | (.pending, r') => ⟨.pending, rem, none, r'⟩

/-- `ChunkedState::step`. -/
def step (w : ℕ) (st : ChunkedState) (r : R) (size : ℕ) : Stepped R :=
  match st with
  | Body => read_body w r size
  | End => ⟨.ready (.ok End), size, none, r⟩
  | st => st.withByte r size

/-! ### One step, by what the reader answered -/

section
variable {w size : ℕ} {r r' : R}

theorem step_body : Body.step w r size = read_body w r size := rfl

theorem step_byte {st : ChunkedState} (hb : st ≠ Body) (he : st ≠ End) :
    st.step w r size = st.withByte r size := by
  cases st <;> first | rfl | contradiction

theorem withByte_pending {st : ChunkedState} (h : read_mem r 1 = (.pending, r')) :
    st.withByte r size = ⟨.pending, size, none, r'⟩ := by
  rw [withByte, h]

theorem withByte_byte {st : ChunkedState} {b : UInt8} {bs : List UInt8}
    (h : read_mem r 1 = (.ready (.ok (b :: bs)), r')) :
    st.withByte r size = ⟨.ready (st.onByte size b).1, (st.onByte size b).2, none, r'⟩ := by
  rw [withByte, h]

theorem read_body_pending
    (h : read_mem r (if size > usize_max w then usize_max w else size) = (.pending, r')) :
    read_body w r size = ⟨.pending, size, none, r'⟩ := by
  rw [read_body, h]

theorem read_body_slice {slice : List UInt8}
    (h : read_mem r (if size > usize_max w then usize_max w else size) = (.ready (.ok slice), r'))
    (hne : slice ≠ []) :
    read_body w r size =
      ⟨.ready (.ok (if size - slice.length > 0 then Body else BodyCr)), size - slice.length,
        some slice, r'⟩ := by
  have hlen : slice.length ≠ 0 := by simpa using hne
  simp only [read_body, h, hlen, if_false]

end

end ChunkedState

/-! ## The decoder -/

/-- The three kinds of decoder. -/
inductive Kind where
  | Length (remaining : ℕ)
  | Chunked (state : ChunkedState) (size : ℕ)
  | Eof (is_eof : Bool)
  deriving DecidableEq, Repr

/-- `Decoder`. -/
structure Decoder where
  kind : Kind
  deriving DecidableEq, Repr

namespace Decoder

/-- `Decoder::length`. -/
def length (x : ℕ) : Decoder := ⟨.Length x⟩

/-- `Decoder::chunked`. -/
def chunked : Decoder := ⟨.Chunked .Size 0⟩

/-- `Decoder::eof`. -/
def eof : Decoder := ⟨.Eof false⟩

/-- `Decoder::is_eof`. -/
def is_eof (d : Decoder) : Bool :=
  match d.kind with
  | .Length 0 => true
  | .Chunked .End _ => true
  | .Eof true => true
  | _ => false

variable {R : Type} [MemRead R]

/-- The `loop` of the `Chunked` arm of `decode`, with `fuel` rounds: `step` until body bytes come
out, `End` is reached, or the step is `Pending` or fails.  A `Pending` or an error leaves the
state where it was; the size keeps what the step wrote to it.  The fuel is never the reason the
loop stops (`decode_chunked`). -/
def chunkedLoop (w : ℕ) : ℕ → ChunkedState → ℕ → R → Poll (Except IoError (List UInt8)) × Decoder × R
  | 0, st, size, r => (.pending, ⟨.Chunked st size⟩, r)
  | fuel + 1, st, size, r =>
    let s := st.step w r size
    match s.res with
    | .pending => (.pending, ⟨.Chunked st s.size⟩, s.rdr)
    | .ready (.error e) => (.ready (.error e), ⟨.Chunked st s.size⟩, s.rdr)
    | .ready (.ok st') =>
      if st' = .End then (.ready (.ok []), ⟨.Chunked st' s.size⟩, s.rdr)
      else
        match s.buf with
        | some buf => (.ready (.ok buf), ⟨.Chunked st' s.size⟩, s.rdr)
        | none => chunkedLoop w fuel st' s.size s.rdr

/-- `Decoder::decode`: the next piece of the body, an empty piece once the body has ended. -/
def decode (w : ℕ) (d : Decoder) (r : R) : Poll (Except IoError (List UInt8)) × Decoder × R :=
  match d.kind with
  | .Length remaining =>
    if remaining = 0 then (.ready (.ok []), d, r)
    else
      -- `*remaining as usize`
      match read_mem r (remaining % 2 ^ w) with
      | (.ready (.ok buf), r') =>
        if buf.length > remaining then (.ready (.ok buf), length 0, r')
        else if buf.length = 0 then (.ready (.error incompleteBody), d, r')
        else (.ready (.ok buf), length (remaining - buf.length), r')
      | (.ready (.error e), r') => (.ready (.error e), d, r')
      | (.pending, r') => (.pending, d, r')
  | .Chunked st size => chunkedLoop w (supply r + 1) st size r
  | .Eof is_eof =>
    if is_eof then (.ready (.ok []), d, r)
    else
      match read_mem r 8192 with
      | (.ready (.ok slice), r') => (.ready (.ok slice), ⟨.Eof slice.isEmpty⟩, r')
      | (.ready (.error e), r') => (.ready (.error e), d, r')
      | (.pending, r') => (.pending, d, r')

/-! ### The loop never runs out of fuel -/

/-- A round of the loop that goes round again has read a byte, so the reader's supply went
down. -/
theorem step_supply_lt {w : ℕ} {st st' : ChunkedState} {size : ℕ} {r : R}
    (hres : (st.step w r size).res = .ready (.ok st')) (hbuf : (st.step w r size).buf = none)
    (hend : st' ≠ .End) : supply (st.step w r size).rdr < supply r := by
  cases st
  case Body =>
    simp only [ChunkedState.step, ChunkedState.read_body] at hres hbuf
    split at hbuf
    · split at hbuf <;> simp_all
    all_goals simp_all
  case End =>
    simp only [ChunkedState.step, Poll.ready.injEq, Except.ok.injEq] at hres
    exact absurd hres.symm hend
  all_goals
    simp only [ChunkedState.step, ChunkedState.withByte] at hres ⊢
    split at hres <;> simp only [Poll.ready.injEq, reduceCtorEq] at hres
    rename_i b _ r' hread
    exact supply_lt hread (List.cons_ne_nil _ _)

theorem chunkedLoop_fuel (w : ℕ) :
    ∀ (f₁ f₂ : ℕ) (st : ChunkedState) (size : ℕ) (r : R),
      supply r < f₁ → supply r < f₂ → chunkedLoop w f₁ st size r = chunkedLoop w f₂ st size r
  | 0, _, _, _, _, h₁, _ => absurd h₁ (Nat.not_lt_zero _)
  | _ + 1, 0, _, _, _, _, h₂ => absurd h₂ (Nat.not_lt_zero _)
  | f₁ + 1, f₂ + 1, st, size, r, h₁, h₂ => by
    simp only [chunkedLoop]
    split
    · rfl
    · rfl
    · rename_i st' hres
      split
      · rfl
      · split
        · rfl
        · rename_i hbuf
          have hlt := step_supply_lt hres hbuf ‹_›
          exact chunkedLoop_fuel w f₁ f₂ _ _ _ (by omega) (by omega)

/-- **The chunked arm of `decode`, without fuel**: one `step`, then either a result or
`decode` again from where the step left the machine and the reader. -/
theorem decode_chunked (w : ℕ) (st : ChunkedState) (size : ℕ) (r : R) :
    decode w ⟨.Chunked st size⟩ r =
      match (st.step w r size).res with
      | .pending => (.pending, ⟨.Chunked st (st.step w r size).size⟩, (st.step w r size).rdr)
      | .ready (.error e) =>
        (.ready (.error e), ⟨.Chunked st (st.step w r size).size⟩, (st.step w r size).rdr)
      | .ready (.ok st') =>
        if st' = .End then (.ready (.ok []), ⟨.Chunked st' (st.step w r size).size⟩,
          (st.step w r size).rdr)
        else
          match (st.step w r size).buf with
          | some buf => (.ready (.ok buf), ⟨.Chunked st' (st.step w r size).size⟩,
            (st.step w r size).rdr)
          | none => decode w ⟨.Chunked st' (st.step w r size).size⟩ (st.step w r size).rdr := by
  simp only [decode]
  rw [chunkedLoop]
  split
  · rfl
  · rfl
  · rename_i st' hres
    split
    · rfl
    · split
      · rfl
      · rename_i hbuf
        have hlt := step_supply_lt hres hbuf ‹_›
        exact chunkedLoop_fuel w _ _ _ _ _ (by omega) (by omega)

/-! ### One call of `decode`, by what the step did -/

section
variable {w size : ℕ} {st st' : ChunkedState} {r r' : R}

theorem decode_chunked_pending (h : (st.step w r size).res = .pending) :
    decode w ⟨.Chunked st size⟩ r =
      (.pending, ⟨.Chunked st (st.step w r size).size⟩, (st.step w r size).rdr) := by
  rw [decode_chunked]
  simp only [h]

theorem decode_chunked_end (h : (st.step w r size).res = .ready (.ok .End)) :
    decode w ⟨.Chunked st size⟩ r =
      (.ready (.ok []), ⟨.Chunked .End (st.step w r size).size⟩, (st.step w r size).rdr) := by
  rw [decode_chunked]
  simp only [h, if_true]

/-- A step that read body bytes ends the call with them. -/
theorem decode_chunked_slice {buf : List UInt8} (h : (st.step w r size).res = .ready (.ok st'))
    (hend : st' ≠ .End) (hbuf : (st.step w r size).buf = some buf) :
    decode w ⟨.Chunked st size⟩ r =
      (.ready (.ok buf), ⟨.Chunked st' (st.step w r size).size⟩, (st.step w r size).rdr) := by
  rw [decode_chunked]
  simp only [h, hend, if_false, hbuf]

/-- A step that read a byte of the framing goes round the loop again. -/
theorem decode_chunked_next (h : (st.step w r size).res = .ready (.ok st')) (hend : st' ≠ .End)
    (hbuf : (st.step w r size).buf = none) :
    decode w ⟨.Chunked st size⟩ r =
      decode w ⟨.Chunked st' (st.step w r size).size⟩ (st.step w r size).rdr := by
  rw [decode_chunked]
  simp only [h, hend, if_false, hbuf]

theorem decode_length_zero : decode w (length 0) r = (.ready (.ok []), length 0, r) := rfl

theorem decode_length_pending {remaining : ℕ} (h0 : 0 < remaining)
    (h : read_mem r (remaining % 2 ^ w) = (.pending, r')) :
    decode w (length remaining) r = (.pending, length remaining, r') := by
  simp only [decode, length, Nat.pos_iff_ne_zero.mp h0, if_false, h]

theorem decode_length_slice {remaining : ℕ} {buf : List UInt8} (h0 : 0 < remaining)
    (h : read_mem r (remaining % 2 ^ w) = (.ready (.ok buf), r')) (hne : buf ≠ [])
    (hle : buf.length ≤ remaining) :
    decode w (length remaining) r = (.ready (.ok buf), length (remaining - buf.length), r') := by
  have hlen : buf.length ≠ 0 := by simpa using hne
  simp only [decode, length, Nat.pos_iff_ne_zero.mp h0, if_false, h, hlen, Nat.not_lt.mpr hle]

end

/-! ### The reader is only read

`decode` touches its reader through `read_mem` alone, so whatever every read keeps, a whole call
keeps: the frame rule the connection uses to show that reading a body leaves its write side
alone. -/

/-- Every read keeps [P]. -/
def ReadsKeep (P : R → Prop) : Prop :=
  ∀ {r r' : R} {len : ℕ} {res : Poll (Except IoError (List UInt8))}, read_mem r len = (res, r') → P r → P r'

section Frame

variable {P : R → Prop} (hP : ReadsKeep P)
include hP

theorem step_frame (w : ℕ) (st : ChunkedState) (size : ℕ) {r : R} (hr : P r) :
    P (st.step w r size).rdr := by
  cases st
  case Body =>
    simp only [ChunkedState.step, ChunkedState.read_body]
    split
    · split <;> exact hP ‹_› hr
    all_goals exact hP ‹_› hr
  case End => exact hr
  all_goals
    simp only [ChunkedState.step, ChunkedState.withByte]
    split <;> exact hP ‹_› hr

theorem chunkedLoop_frame (w : ℕ) :
    ∀ (fuel : ℕ) (st : ChunkedState) (size : ℕ) (r : R), P r → P (chunkedLoop w fuel st size r).2.2
  | 0, _, _, _, hr => hr
  | fuel + 1, st, size, r, hr => by
    have hs := step_frame hP w st size hr
    simp only [chunkedLoop]
    split
    · exact hs
    · exact hs
    · split
      · exact hs
      · split
        · exact hs
        · exact chunkedLoop_frame w fuel _ _ _ hs

theorem decode_frame (w : ℕ) (d : Decoder) {r : R} (hr : P r) : P (decode w d r).2.2 := by
  unfold decode
  split
  · split_ifs
    · exact hr
    · split
      · split_ifs <;> exact hP ‹_› hr
      all_goals exact hP ‹_› hr
  · exact chunkedLoop_frame hP w _ _ _ _ hr
  · split_ifs
    · exact hr
    · split <;> exact hP ‹_› hr

end Frame

/-! ### How far along its body a decoder is -/

/-- What a decoder is after `n` more bytes of its body: a length decoder owes `n` fewer, and the
other two keep their kind. -/
def Follows (d d' : Decoder) (n : ℕ) : Prop :=
  match d.kind, d'.kind with
  | .Length rem, .Length rem' => n ≤ rem ∧ rem' = rem - n
  | .Chunked _ _, .Chunked _ _ => True
  | .Eof _, .Eof _ => True
  | _, _ => False

theorem follows_refl (d : Decoder) : d.Follows d 0 := by
  rcases d with ⟨rem | ⟨st, size⟩ | e⟩ <;> simp [Follows]

theorem chunkedLoop_chunked (w : ℕ) : ∀ (fuel : ℕ) (st : ChunkedState) (size : ℕ) (r : R),
    ∃ st' size', (chunkedLoop w fuel st size r).2.1 = ⟨.Chunked st' size'⟩
  | 0, st, size, r => ⟨st, size, rfl⟩
  | fuel + 1, st, size, r => by
    unfold chunkedLoop
    dsimp only
    split
    · exact ⟨_, _, rfl⟩
    · exact ⟨_, _, rfl⟩
    · split_ifs
      · exact ⟨_, _, rfl⟩
      · split
        · exact ⟨_, _, rfl⟩
        · exact chunkedLoop_chunked w fuel _ _ _

/-- A reader that hands out at most the bytes asked for. -/
def ReadsAtMost (r : R) : Prop :=
  ∀ {len : ℕ} {bs : List UInt8} {r' : R}, MemRead.read_mem r len = (.ready (.ok bs), r') → bs.length ≤ len

/-- What `decode` leaves for the rest of the body: a wait or a slice of it, after which the
decoder follows from where it was. -/
theorem decode_follows (w : ℕ) (d : Decoder) {r : R} (hr : ReadsAtMost r) :
    ((decode w d r).1 = .pending → d.Follows (decode w d r).2.1 0) ∧
    (∀ slice, (decode w d r).1 = .ready (.ok slice) → d.Follows (decode w d r).2.1 slice.length) := by
  rcases d with ⟨rem | ⟨st, size⟩ | e⟩
  · unfold decode
    dsimp only
    split_ifs with h0
    · subst h0
      exact ⟨by simp, fun slice h ↦ by simp at h; subst h; simp [Follows]⟩
    · rcases hread : MemRead.read_mem r (rem % 2 ^ w) with ⟨(e | buf) | _, r'⟩
      · exact ⟨by simp, by simp⟩
      · have hle : buf.length ≤ rem := (hr hread).trans (Nat.mod_le _ _)
        dsimp only
        split_ifs with hgt hz
        · omega
        · exact ⟨by simp, by simp⟩
        · exact ⟨by simp, fun slice h ↦ by simp at h; subst h; simp [Follows, length, hle]⟩
      · exact ⟨fun _ ↦ follows_refl _, by simp⟩
  · obtain ⟨st', size', h⟩ := chunkedLoop_chunked w (MemRead.supply r + 1) st size r
    have hk : (decode w ⟨.Chunked st size⟩ r).2.1 = ⟨.Chunked st' size'⟩ := h
    rw [hk]
    exact ⟨fun _ ↦ by simp [Follows], fun _ _ ↦ by simp [Follows]⟩
  · unfold decode
    dsimp only
    split_ifs
    · exact ⟨by simp, fun _ _ ↦ by simp [Follows]⟩
    · split <;> exact ⟨fun _ ↦ by simp [Follows], fun _ _ ↦ by simp [Follows]⟩

/-! ### Readers that read alike

A reader wrapped in more state that no read looks at (a connection's write buffer beside its
read buffer) is decoded as the bare reader is: `decode` over `f r` is `decode` over `r`, with
`f` applied to where the reader is left. -/

section Map

variable {R' : Type} [MemRead R']

/-- `f` reads alike: a read of `f r` answers what a read of `r` answers and leaves `f` of where
the read of `r` leaves it, and `f r` has the supply of `r`. -/
structure ReadsAlike (f : R → R') : Prop where
  read_mem : ∀ r len, read_mem (f r) len = ((read_mem r len).1, f (read_mem r len).2)
  supply : ∀ r, supply (f r) = supply r

variable {f : R → R'} (hf : ReadsAlike f)
include hf

theorem step_map (w : ℕ) (st : ChunkedState) (size : ℕ) (r : R) :
    st.step w (f r) size = ⟨(st.step w r size).res, (st.step w r size).size,
      (st.step w r size).buf, f (st.step w r size).rdr⟩ := by
  cases st
  case Body =>
    simp only [ChunkedState.step, ChunkedState.read_body, hf.read_mem]
    rcases read_mem r _ with ⟨(e | slice) | _, r'⟩
    · rfl
    · dsimp only
      split_ifs <;> rfl
    · rfl
  case End => rfl
  all_goals
    simp only [ChunkedState.step, ChunkedState.withByte, hf.read_mem]
    rcases read_mem r 1 with ⟨(e | _ | ⟨b, bs⟩) | _, r'⟩ <;> rfl

theorem chunkedLoop_map (w : ℕ) : ∀ (fuel : ℕ) (st : ChunkedState) (size : ℕ) (r : R),
    chunkedLoop w fuel st size (f r) = ((chunkedLoop w fuel st size r).1,
      (chunkedLoop w fuel st size r).2.1, f (chunkedLoop w fuel st size r).2.2)
  | 0, _, _, _ => rfl
  | fuel + 1, st, size, r => by
    simp only [chunkedLoop, step_map hf]
    rcases (st.step w r size) with ⟨(e | st') | _, size', buf, r'⟩
    · rfl
    · dsimp only
      split_ifs
      · rfl
      · rcases buf with _ | buf
        · exact chunkedLoop_map w fuel st' size' r'
        · rfl
    · rfl

/-- **`decode` over a reader that reads alike** is `decode` over the bare reader. -/
theorem decode_map (w : ℕ) (d : Decoder) (r : R) :
    decode w d (f r) = ((decode w d r).1, (decode w d r).2.1, f (decode w d r).2.2) := by
  rcases d with ⟨rem | ⟨st, size⟩ | e⟩
  · unfold decode
    dsimp only
    split_ifs
    · rfl
    · rw [hf.read_mem]
      rcases read_mem r _ with ⟨(e | buf) | _, r'⟩
      · rfl
      · dsimp only
        split_ifs <;> rfl
      · rfl
  · simp only [decode, hf.supply]
    exact chunkedLoop_map hf w _ st size r
  · unfold decode
    dsimp only
    split_ifs
    · rfl
    · rw [hf.read_mem]
      rcases read_mem r _ with ⟨(e | slice) | _, r'⟩ <;> rfl

end Map

end Decoder

end Hyper.H1
