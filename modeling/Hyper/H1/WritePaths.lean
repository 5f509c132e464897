import Hyper.H1.WriteOrder

/-!
# The fast write paths

A body known in one piece can be written three ways: `write_full_msg` frames it together with
the head (`Encoder.danger_full_buf`); `write_head` and then `write_body_and_end` frames it as the
last piece (`Encoder.encode_and_end`); and `write_head`, `write_body` and `end_body` frame it and
then close the body.  `danger_full_buf` trusts that the head declared the body's length.

When the encoder the head produced is chunked or counts exactly the body's bytes, the fast path
is the second one, connection for connection (`write_full_msg_eq_write_body_and_end`), and the
third leaves the same bytes and the same write side (`write_body_end_body_agrees`).

A client head that carries its own `Content-Length` breaks that trust, since `Client::set_length`
keeps a length the user set over the one the body has.  In `full_msg_keeps_alive_short_body` the
head says five bytes and the body has three: all three paths buffer the same eight bytes, but
`write_full_msg` leaves the write side ready for the next message, where the other two close it.
(`danger_full_buf` has a `debug_assert!` on that length, which a debug build would fail
instead.)
-/

set_option autoImplicit false

namespace Hyper.H1

/-! ## When the head declared the body's length -/

namespace Encoder

variable {B : Type} [Buf B]

/-- Trusting the length is right when it is right: on a chunked encoder, or one that counts
exactly the body's bytes, the full buffer is the last piece, and the body may be followed by
another message exactly when the encoder is not the last. -/
theorem encode_and_end_eq_danger_full_buf {e : Encoder} {msg : B}
    (hk : e.kind = .Chunked ∨ e.kind = .Length (Buf.remaining msg)) :
    e.encode_and_end msg = (e.danger_full_buf msg, !e.is_last) := by
  rcases hk with hk | hk <;> simp [encode_and_end, danger_full_buf, hk]

end Encoder

/-- A [POST] whose head leaves the body's length to the body. -/
def plainPost : MessageHead RequestLine :=
  ⟨.HTTP_11, ⟨⟨ascii "POST"⟩, ⟨ascii "/"⟩⟩, MultiMap.empty⟩

namespace Conn

variable {B : Type} {In Out : Type} (T : Transaction In Out)

/-- The head goes into the cursor, and the rest of the write buffer is as it was. -/
theorem encode_head_io {c c1 : Conn B} {head : MessageHead Out} {body : Option BodyLength}
    {oe : Option Encoder} (h : c.encode_head T head body = some (oe, c1)) :
    ∃ bytes, c1.io = c.io.headers_buf bytes := by
  unfold encode_head at h
  obtain ⟨⟨res, bytes⟩, -, hc⟩ := Option.map_eq_some_iff.mp h
  refine ⟨bytes, ?_⟩
  rcases res with err | encoder <;> (simp only [Prod.mk.injEq] at hc; rw [← hc.2])

theorem write_head_of_encode_head {c c1 : Conn B} {head : MessageHead Out}
    {body : Option BodyLength} {enc : Encoder} (he : c.encode_head T head body = some (some enc, c1))
    (heof : enc.is_eof = false) :
    c.write_head T head body = some { c1 with state := { c1.state with writing := .Body enc } } := by
  simp [write_head, he, heof]

variable [Buf B]

/-- With a head that declared the body's length, writing the message at once is writing the head
and then the body as its last piece. -/
theorem write_full_msg_eq_write_body_and_end {c c1 : Conn B} {head : MessageHead Out} {body : B}
    {enc : Encoder} (he : c.encode_head T head (some (.Known (Buf.remaining body))) = some (some enc, c1))
    (heof : enc.is_eof = false) (hk : enc.kind = .Chunked ∨ enc.kind = .Length (Buf.remaining body)) :
    c.write_full_msg T head body =
      (c.write_head T head (some (.Known (Buf.remaining body)))).bind (·.write_body_and_end body) := by
  rw [write_head_of_encode_head T he heof, Option.bind_some]
  simp only [write_full_msg, he, Option.map_some, heof, Bool.not_false, if_true, write_body_and_end,
    Encoder.encode_and_end_eq_danger_full_buf hk]
  -- the write side: closed after the last message, ready for the next otherwise
  cases enc.is_last <;> rfl

theorem write_full_msg_eq_write_body_and_end_post :
    newClient.write_full_msg partialClient plainPost (ascii "abc") =
      (newClient.write_head partialClient plainPost (some (.Known 3))).bind (·.write_body_and_end (ascii "abc")) :=
  write_full_msg_eq_write_body_and_end partialClient (c := newClient) rfl rfl (.inr rfl)

variable [LawfulBuf B]

/-- With a head that declared the body's length, framing the body as a piece and then closing
it leaves the bytes and the write side that writing the message at once leaves, and [end_body]
reports no error. -/
theorem write_body_end_body_agrees {c c1 : Conn B} {head : MessageHead Out} {body : B}
    {enc : Encoder} (hwf : c.io.write_buf.WellFormed)
    (he : c.encode_head T head (some (.Known (Buf.remaining body))) = some (some enc, c1))
    (heof : enc.is_eof = false) (hk : enc.kind = .Chunked ∨ enc.kind = .Length (Buf.remaining body)) :
    ∃ c2 c3, c.write_full_msg T head body = some c2 ∧
      (c.write_head T head (some (.Known (Buf.remaining body)))).bind (·.write_body body) = some c3 ∧
      c3.end_body.1 = .ok () ∧ c3.end_body.2.io.write_buf.content = c2.io.write_buf.content ∧
      c3.end_body.2.state.writing = c2.state.writing := by
  obtain ⟨bytes, hio⟩ := encode_head_io T he
  have hwf1 : c1.io.write_buf.WellFormed := hio ▸ Buffered.wellFormed_headers_buf hwf bytes
  rw [write_head_of_encode_head T he heof, Option.bind_some]
  simp only [write_full_msg, he, Option.map_some, heof, Bool.not_false, if_true, Option.some.injEq,
    exists_and_left, exists_eq_left']
  rcases hk with hk | hk
  · -- chunked: the terminator comes in a buffer of its own
    have hend : (enc.end : Except NotEof (Option (EncodedBuf B))) =
        .ok (some ⟨.ChunkedEnd (ascii "0\r\n\r\n")⟩) := by simp [Encoder.end, hk]
    have hterm : ascii "\r\n" ++ ascii "0\r\n\r\n" = ascii "\r\n0\r\n\r\n" := by decide +kernel
    simp [write_body, Encoder.encode, hk, heof, end_body, hend, Encoder.danger_full_buf,
      Buffered.buffer, WriteBuf.content_buffer hwf1, WriteBuf.content_buffer (WriteBuf.wellFormed_buffer hwf1 _),
      Encoder.is_close_delimited, hterm]
  · -- counted: the piece uses up the length, and there is nothing left to close
    simp only [write_body, Encoder.encode, hk, gt_iff_lt, lt_self_iff_false, if_false, Nat.sub_self,
      Encoder.is_eof, if_true, Encoder.danger_full_buf]
    cases enc.is_last <;> simp [end_body]

theorem write_body_end_body_agrees_post :
    ∃ c2 c3, newClient.write_full_msg partialClient plainPost (ascii "abc") = some c2 ∧
      (newClient.write_head partialClient plainPost (some (.Known 3))).bind (·.write_body (ascii "abc")) = some c3 ∧
      c3.end_body.1 = .ok () ∧ c3.end_body.2.io.write_buf.content = c2.io.write_buf.content ∧
      c3.end_body.2.state.writing = c2.state.writing :=
  write_body_end_body_agrees partialClient (c := newClient) (WriteBuf.wellFormed_new _) rfl rfl (.inr rfl)

end Conn

/-! ## A head that declares its own length -/

/-- A [POST] whose head carries its own [Content-Length: 5]. -/
def userLengthPost : MessageHead RequestLine :=
  ⟨.HTTP_11, ⟨⟨ascii "POST"⟩, ⟨ascii "/"⟩⟩, MultiMap.empty.append HeaderName.CONTENT_LENGTH ⟨ascii "5"⟩⟩

/-- The bytes of that head as the client writes them. -/
def userLengthPostBytes : List UInt8 := ascii "POST / HTTP/1.1\r\ncontent-length: 5\r\n\r\n"

theorem full_msg_keeps_alive_short_body :
    ∃ c₁ c₂ c₃,
      runCalls partialClient [.write_full_msg userLengthPost (ascii "abc")] newClient = some c₁ ∧
      runCalls partialClient [.write_head userLengthPost (some (.Known 3)),
        .write_body_and_end (ascii "abc")] newClient = some c₂ ∧
      runCalls partialClient [.write_head userLengthPost (some (.Known 3)), .write_body (ascii "abc")]
        newClient = some c₃ ∧
      c₁.io.write_buf.content = userLengthPostBytes ++ ascii "abc" ∧
      c₂.io.write_buf.content = userLengthPostBytes ++ ascii "abc" ∧
      c₃.end_body.2.io.write_buf.content = userLengthPostBytes ++ ascii "abc" ∧
      c₁.state.writing = .KeepAlive ∧ c₂.state.writing = .Closed ∧
      c₃.end_body = (.error (.User .Body), c₃.end_body.2) ∧ c₃.end_body.2.state.writing = .Closed := by
  have h₁ : (runCalls partialClient [.write_full_msg userLengthPost (ascii "abc")] newClient).map
      (fun c ↦ (c.io.write_buf.content, c.state.writing)) =
      some (userLengthPostBytes ++ ascii "abc", .KeepAlive) := by decide +kernel
  have h₂ : (runCalls partialClient [.write_head userLengthPost (some (.Known 3)),
      .write_body_and_end (ascii "abc")] newClient).map
      (fun c ↦ (c.io.write_buf.content, c.state.writing)) =
      some (userLengthPostBytes ++ ascii "abc", .Closed) := by decide +kernel
  have h₃ : (runCalls partialClient [.write_head userLengthPost (some (.Known 3)), .write_body (ascii "abc")]
      newClient).map (fun c ↦ (c.end_body.1, c.end_body.2.io.write_buf.content, c.end_body.2.state.writing)) =
      some (.error (.User .Body), userLengthPostBytes ++ ascii "abc", .Closed) := by decide +kernel
  obtain ⟨c₁, hc₁, hv₁⟩ := Option.map_eq_some_iff.mp h₁
  obtain ⟨c₂, hc₂, hv₂⟩ := Option.map_eq_some_iff.mp h₂
  obtain ⟨c₃, hc₃, hv₃⟩ := Option.map_eq_some_iff.mp h₃
  simp only [Prod.mk.injEq] at hv₁ hv₂ hv₃
  exact ⟨c₁, c₂, c₃, hc₁, hc₂, hc₃, hv₁.1, hv₂.1, hv₃.2.1, hv₁.2, hv₂.2,
    Prod.ext hv₃.1 rfl, hv₃.2.2⟩

end Hyper.H1
