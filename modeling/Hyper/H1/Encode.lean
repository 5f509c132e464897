import Hyper.Basic
import Hyper.Lib.Buf
import Hyper.Lib.Numeral

/-!
# The HTTP/1 body encoder (`proto/h1/encode.rs`)

An `Encoder` frames the body of an outgoing message.  Its kind is fixed by the head: `Chunked`
wraps every piece of the body in a chunk, `Length n` lets through at most `n` bytes in all, and
`CloseDelimited` lets everything through and relies on the connection closing.  `encode` frames
one piece, `end` produces what closes the body, and the two fast paths the connection uses for a
body known in one piece, `encode_and_end` and `danger_full_buf`, frame it and close it at once.

A framed piece is an `EncodedBuf`: the piece itself (`Exact`), a prefix of it (`Limited`, a
`Take`), the piece between its chunk-size line and its CRLF (`Chunked`, a `Chain`), or the
terminating `0\r\n\r\n` (`ChunkedEnd`).  Its `content` — what the transport will be handed —
is computed by `content_chunked` and its siblings, from the content of the piece.

The chunk-size line is a `ChunkSize`: the size in upper-case hexadecimal, `format!("{:X}")`,
followed by CRLF, written into an array of `CHUNK_SIZE_MAX_BYTES + 2` bytes.
`ChunkSize.new_length_le` shows that the array always has room for a `usize`, which is what the
`expect` in `ChunkSize::new` relies on.

`encode_follows` says what a piece does to the encoder: a length encoder owes at most the piece
less, and the kind and `is_last` stay (`Encoder.Follows`).

`encode_and_end` and `danger_full_buf` push their buffer into the connection's `WriteBuf`; here
they return it, together with `encode_and_end`'s verdict on keep-alive, and the connection
(`Hyper.H1.Conn`) pushes it.
-/

set_option autoImplicit false

namespace Hyper.H1

open LawfulBuf

/-! ## Chunk-size lines -/

/-- The digit `d < 16` as `{:X}` prints it. -/
def hexSym (d : ℕ) : UInt8 := if d < 10 then (48 + d).toUInt8 else (55 + d).toUInt8

/-- The bytes `{:X}` prints are `0`–`9` for the digits below ten and `A`–`F` for the others. -/
theorem hexSym_cases : ∀ d < 16,
    (48 ≤ hexSym d ∧ hexSym d ≤ 57 ∧ (hexSym d).toNat - 48 = d) ∨
    (¬(48 ≤ hexSym d ∧ hexSym d ≤ 57) ∧ ¬(97 ≤ hexSym d ∧ hexSym d ≤ 102) ∧
      (65 ≤ hexSym d ∧ hexSym d ≤ 70) ∧ (hexSym d).toNat + 10 - 65 = d) := by
  decide

/-- `format!("{:X}", n)`: upper-case hexadecimal, no leading zeros. -/
def fmt_upper_hex (n : ℕ) : List UInt8 := Numeral.render 16 hexSym n

/-- `CHUNK_SIZE_MAX_BYTES`: two hex digits for each byte of a `usize` of `w` bits. -/
def CHUNK_SIZE_MAX_BYTES (w : ℕ) : ℕ := w / 8 * 2

/-- `ChunkSize`: the bytes written into its array so far, and the read position. -/
structure ChunkSize where
  bytes : List UInt8
  pos : ℕ
  deriving DecidableEq, Repr

/-- `ChunkSize::new`: `{:X}\r\n` of the length. -/
def ChunkSize.new (len : ℕ) : ChunkSize := ⟨fmt_upper_hex len ++ [CR, LF], 0⟩

/-- The formatted size of a `usize` fits the array of `ChunkSize`, so its `expect` never
fires. -/
theorem ChunkSize.new_length_le {w len : ℕ} (hw : 8 ≤ w) (hw8 : w % 8 = 0) (hlen : len < 2 ^ w) :
    (ChunkSize.new len).bytes.length ≤ CHUNK_SIZE_MAX_BYTES w + 2 := by
  have hdig : (fmt_upper_hex len).length ≤ w / 8 * 2 := by
    apply Numeral.length_render_le (by norm_num) _ (by omega)
    calc len < 2 ^ w := hlen
      _ = 16 ^ (w / 8 * 2) := by
        rw [show (16 : ℕ) = 2 ^ 4 from rfl, ← pow_mul]
        congr 1
        omega
  simp only [ChunkSize.new, List.length_append, List.length_cons, List.length_nil,
    CHUNK_SIZE_MAX_BYTES]
  omega

instance : Buf ChunkSize where
  remaining c := c.bytes.length - c.pos
  chunk c := c.bytes.drop c.pos
  advance c n := ⟨c.bytes, c.pos + n⟩

instance : LawfulBuf ChunkSize where
  content c := c.bytes.drop c.pos
  remaining_eq c := by simp [Buf.remaining]
  chunk_isPrefix_content c := List.prefix_refl _
  chunk_ne_nil _ h := h
  content_advance c n _ := by
    show c.bytes.drop (c.pos + n) = _
    rw [List.drop_drop, Nat.add_comm]

@[simp]
theorem ChunkSize.content_new (len : ℕ) :
    content (ChunkSize.new len) = fmt_upper_hex len ++ [CR, LF] := rfl

/-! ## The encoder -/

/-- The kinds of `Encoder`. -/
inductive Encoder.Kind where
  | Chunked
  | Length (remaining : ℕ)
  | CloseDelimited
  deriving DecidableEq, Repr

/-- `Encoder`. -/
structure Encoder where
  kind : Encoder.Kind
  is_last : Bool
  deriving DecidableEq, Repr

/-- The pieces `EncodedBuf` can be made of. -/
inductive BufKind (B : Type) where
  | Exact (b : B)
  | Limited (b : Take B)
  | Chunked (b : Chain (Chain ChunkSize B) (List UInt8))
  | ChunkedEnd (b : List UInt8)

/-- `EncodedBuf`: one framed piece of a body. -/
structure EncodedBuf (B : Type) where
  kind : BufKind B

namespace EncodedBuf

variable {B : Type} [Buf B]

instance : Buf (EncodedBuf B) where
  remaining x :=
    match x.kind with
    | .Exact b => Buf.remaining b
    | .Limited b => Buf.remaining b
    | .Chunked b => Buf.remaining b
    | .ChunkedEnd b => Buf.remaining b
  chunk x :=
    match x.kind with
    | .Exact b => Buf.chunk b
    | .Limited b => Buf.chunk b
    | .Chunked b => Buf.chunk b
    | .ChunkedEnd b => Buf.chunk b
  advance x n :=
    match x.kind with
    | .Exact b => ⟨.Exact (Buf.advance b n)⟩
    | .Limited b => ⟨.Limited (Buf.advance b n)⟩
    | .Chunked b => ⟨.Chunked (Buf.advance b n)⟩
    | .ChunkedEnd b => ⟨.ChunkedEnd (Buf.advance b n)⟩

variable [LawfulBuf B]

instance : LawfulBuf (EncodedBuf B) where
  content x :=
    match x.kind with
    | .Exact b => content b
    | .Limited b => content b
    | .Chunked b => content b
    | .ChunkedEnd b => content b
  remaining_eq
    | ⟨.Exact b⟩ => remaining_eq b
    | ⟨.Limited b⟩ => remaining_eq b
    | ⟨.Chunked b⟩ => remaining_eq b
    | ⟨.ChunkedEnd b⟩ => remaining_eq b
  chunk_isPrefix_content
    | ⟨.Exact b⟩ => chunk_isPrefix_content b
    | ⟨.Limited b⟩ => chunk_isPrefix_content b
    | ⟨.Chunked b⟩ => chunk_isPrefix_content b
    | ⟨.ChunkedEnd b⟩ => chunk_isPrefix_content b
  chunk_ne_nil
    | ⟨.Exact b⟩ => chunk_ne_nil b
    | ⟨.Limited b⟩ => chunk_ne_nil b
    | ⟨.Chunked b⟩ => chunk_ne_nil b
    | ⟨.ChunkedEnd b⟩ => chunk_ne_nil b
  content_advance
    | ⟨.Exact b⟩, n => content_advance b n
    | ⟨.Limited b⟩, n => content_advance b n
    | ⟨.Chunked b⟩, n => content_advance b n
    | ⟨.ChunkedEnd b⟩, n => content_advance b n

@[simp]
theorem content_exact (b : B) : content (⟨.Exact b⟩ : EncodedBuf B) = content b := rfl

@[simp]
theorem content_limited (b : B) (n : ℕ) :
    content (⟨.Limited ⟨b, n⟩⟩ : EncodedBuf B) = (content b).take n := rfl

@[simp]
theorem content_chunked (c : ChunkSize) (b : B) (tail : List UInt8) :
    content (⟨.Chunked ⟨⟨c, b⟩, tail⟩⟩ : EncodedBuf B) = content c ++ content b ++ tail := rfl

@[simp]
theorem content_chunkedEnd (b : List UInt8) :
    content (⟨.ChunkedEnd b⟩ : EncodedBuf B) = b := rfl

end EncodedBuf

/-- `NotEof`: `end` was asked of a `Length` encoder that had not let its whole length through. -/
structure NotEof where
  deriving DecidableEq, Repr

namespace Encoder

/-- `Encoder::new`. -/
def new (kind : Encoder.Kind) : Encoder := ⟨kind, false⟩

/-- `Encoder::chunked`. -/
def chunked : Encoder := new .Chunked

/-- `Encoder::length`. -/
def length (len : ℕ) : Encoder := new (.Length len)

/-- `Encoder::close_delimited`. -/
def close_delimited : Encoder := new .CloseDelimited

/-- `Encoder::is_eof`: a `Length` encoder with nothing left to let through. -/
def is_eof (e : Encoder) : Bool :=
  match e.kind with
  | .Length 0 => true
  | _ => false

/-- `Encoder::set_last`. -/
def set_last (e : Encoder) (is_last : Bool) : Encoder := { e with is_last }

/-- `Encoder::is_close_delimited`. -/
def is_close_delimited (e : Encoder) : Bool :=
  match e.kind with
  | .CloseDelimited => true
  | _ => false

/-- `Encoder::end`: what closes the body, or `NotEof` if a length is still owed. -/
def «end» {B : Type} (e : Encoder) : Except NotEof (Option (EncodedBuf B)) :=
  match e.kind with
  | .Length 0 => .ok none
  | .Chunked => .ok (some ⟨.ChunkedEnd (ascii "0\r\n\r\n")⟩)
  | .CloseDelimited => .ok none
  | .Length _ => .error ⟨⟩

variable {B : Type} [Buf B]

/-- `Encoder::encode`: frame one piece, and count it against the length. -/
def encode (e : Encoder) (msg : B) : EncodedBuf B × Encoder :=
  let len := Buf.remaining msg
  match e.kind with
  | .Chunked => (⟨.Chunked ⟨⟨ChunkSize.new len, msg⟩, ascii "\r\n"⟩⟩, e)
  | .Length remaining =>
    if len > remaining then (⟨.Limited ⟨msg, remaining⟩⟩, { e with kind := .Length 0 })
    else (⟨.Exact msg⟩, { e with kind := .Length (remaining - len) })
  | .CloseDelimited => (⟨.Exact msg⟩, e)

/-- `Encoder::encode_and_end`: frame the last piece and close the body in one buffer; the flag
says whether the connection may be kept alive after it. -/
def encode_and_end (e : Encoder) (msg : B) : EncodedBuf B × Bool :=
  let len := Buf.remaining msg
  match e.kind with
  | .Chunked => (⟨.Chunked ⟨⟨ChunkSize.new len, msg⟩, ascii "\r\n0\r\n\r\n"⟩⟩, !e.is_last)
  | .Length remaining =>
    if len = remaining then (⟨.Exact msg⟩, !e.is_last)
    else if len > remaining then (⟨.Limited ⟨msg, remaining⟩⟩, !e.is_last)
    else (⟨.Exact msg⟩, false)
  | .CloseDelimited => (⟨.Exact msg⟩, false)

/-- `Encoder::danger_full_buf`: frame the whole body and close it, trusting that its length is
the one the head declared. -/
def danger_full_buf (e : Encoder) (msg : B) : EncodedBuf B :=
  match e.kind with
  | .Chunked => ⟨.Chunked ⟨⟨ChunkSize.new (Buf.remaining msg), msg⟩, ascii "\r\n0\r\n\r\n"⟩⟩
  | _ => ⟨.Exact msg⟩

/-- What an encoder is after `n` more bytes of its body went through: a length encoder owes `n`
fewer, the other two keep their kind, and whether the message is the last stays as it was. -/
def Follows (e e' : Encoder) (n : ℕ) : Prop :=
  e'.is_last = e.is_last ∧
    match e.kind, e'.kind with
    | .Length rem, .Length rem' => n ≤ rem ∧ rem' = rem - n
    | .Chunked, .Chunked => True
    | .CloseDelimited, .CloseDelimited => True
    | _, _ => False

/-- `encode` lets at most the piece through, and the encoder follows from where it was. -/
theorem encode_follows (e : Encoder) (msg : B) :
    ∃ n ≤ Buf.remaining msg, e.Follows (e.encode msg).2 n := by
  rcases e with ⟨_ | rem | _, last⟩
  · exact ⟨Buf.remaining msg, le_rfl, rfl, trivial⟩
  · unfold encode
    dsimp only
    split_ifs with hgt
    · exact ⟨rem, hgt.le, rfl, le_rfl, by simp⟩
    · exact ⟨Buf.remaining msg, le_rfl, rfl, by omega, rfl⟩
  · exact ⟨Buf.remaining msg, le_rfl, rfl, trivial⟩

end Encoder

end Hyper.H1
