import Hyper.H1.Dispatch

/-!
# The order of outgoing bytes

What a connection has handed to its transport, in the order the transport gets it, is
`Buffered.sent`: the bytes the transport has written, then those the write buffer will still
hand out.  Buffering a body appends to it (`sent_buffer`), and so does a head written into
`headers_buf` while nothing is queued (`sent_headers_buf_of_can`); a flush only moves bytes from
the buffer to the transport and leaves it as it is (`sent_poll_flush`).  Under `Flatten` nothing
is ever queued, so every write appends.

Under `Queue`, a head goes into the cursor, which `WriteBuf` hands out before its queue: written
while body bytes of an earlier message are still queued, it goes before them
(`sent_headers_buf`).  `write_head` is only called when `can_headers_buf` holds, but the
automatic `100 Continue` of `poll_read_body` is written whenever the response has not started.
`continue_overtakes_queued_body` is a run of a server that answers a first request, has part of
that answer's body still queued after a short write, and reads the body of a pipelined second
request that expects a `100 Continue`: the transport gets the `100 Continue` in the middle of
the first answer's body.  (`WriteBuf::headers_mut` has a `debug_assert!` that the queue is
empty, which a debug build would fail there instead.)
-/

set_option autoImplicit false

namespace Hyper.H1

/-! ## Writes to the transport -/

namespace Transport

variable {t t' : Transport} {bs : List UInt8}

/-- A write reports at most the bytes it was offered. -/
theorem poll_write_le {n : ℕ} (h : t.poll_write bs = (.ready (.ok n), t')) : n ≤ bs.length := by
  unfold poll_write at h
  split at h <;> simp only [Prod.mk.injEq, Poll.ready.injEq, Except.ok.injEq, reduceCtorEq,
    false_and] at h
  · exact h.1 ▸ le_refl _
  · exact h.1 ▸ min_le_right _ _

/-- A write that reports no count writes nothing. -/
theorem poll_write_written_of_not_ok {r : Poll (Except IoError ℕ)} (h : t.poll_write bs = (r, t'))
    (hr : ∀ n, r ≠ .ready (.ok n)) : t'.written = t.written := by
  unfold poll_write at h
  split at h <;> simp only [Prod.mk.injEq] at h <;> obtain ⟨rfl, rfl⟩ := h
  · exact absurd rfl (hr _)
  · rfl
  · exact absurd rfl (hr _)
  · rfl

end Transport

namespace Buffered

variable {B : Type} [Buf B] [LawfulBuf B]

/-- Everything handed to the transport, in the order it gets it. -/
def sent (b : Buffered B) : List UInt8 := b.io.written ++ b.write_buf.content

/-! ## Buffering -/

theorem sent_buffer {b : Buffered B} (hwf : b.write_buf.WellFormed) (buf : B) :
    (b.buffer buf).sent = b.sent ++ LawfulBuf.content buf := by
  simp only [sent, buffer, WriteBuf.content_buffer hwf, List.append_assoc]

/-- A head goes after what the cursor still holds, and before what is queued. -/
theorem sent_headers_buf {b : Buffered B} (hwf : b.write_buf.WellFormed) (bs : List UInt8) :
    (b.headers_buf bs).sent =
      b.io.written ++ LawfulBuf.content b.write_buf.headers ++ bs ++ b.write_buf.queue.content := by
  simp only [sent, headers_buf, WriteBuf.content_extend_headers hwf, List.append_assoc]

/-- With nothing queued, a head goes at the end. -/
theorem sent_headers_buf_of_can {b : Buffered B} (hwf : b.write_buf.WellFormed)
    (hq : b.can_headers_buf = true) (bs : List UInt8) : (b.headers_buf bs).sent = b.sent ++ bs := by
  have hnil : b.write_buf.queue.content = [] := by
    have hlen := BufList.remaining_eq b.write_buf.queue
    simp only [can_headers_buf, decide_eq_true_eq] at hq
    exact List.eq_nil_of_length_eq_zero (hlen ▸ hq)
  rw [sent_headers_buf hwf, hnil, sent, WriteBuf.content, hnil]
  simp

omit [Buf B] [LawfulBuf B] in
theorem wellFormed_headers_buf {b : Buffered B} (hwf : b.write_buf.WellFormed) (bs : List UInt8) :
    (b.headers_buf bs).write_buf.WellFormed :=
  WriteBuf.wellFormed_extend_headers hwf bs

omit [LawfulBuf B] in
theorem wellFormed_buffer {b : Buffered B} (hwf : b.write_buf.WellFormed) (buf : B) :
    (b.buffer buf).write_buf.WellFormed :=
  WriteBuf.wellFormed_buffer hwf buf

/-! ## Flushing -/

/-- A write that reports no count changes nothing that was sent. -/
theorem sent_of_not_ok {b : Buffered B} {r : Poll (Except IoError ℕ)} {io : Transport}
    {bs : List UInt8} (h : b.io.poll_write bs = (r, io)) (hr : ∀ n, r ≠ .ready (.ok n)) :
    ({ b with io } : Buffered B).sent = b.sent := by
  simp only [sent, Transport.poll_write_written_of_not_ok h hr]

/-- The queued flush: each write of `n` bytes takes the first `n` of the content, and the buffer
drops them. -/
theorem sent_flushQueued : ∀ (fuel : ℕ) (b : Buffered B), b.write_buf.WellFormed →
    (flushQueued fuel b).2.sent = b.sent ∧ (flushQueued fuel b).2.write_buf.WellFormed
  | 0, _, hwf => ⟨rfl, hwf⟩
  | fuel + 1, b, hwf => by
    rw [flushQueued]
    rcases hw : b.io.poll_write b.write_buf.content with ⟨(e | n) | _, io⟩
    · exact ⟨sent_of_not_ok hw (by simp), hwf⟩
    · -- the bytes written leave the buffer
      have hn : n ≤ Buf.remaining b.write_buf := by
        rw [WriteBuf.remaining_eq]
        exact Transport.poll_write_le hw
      have hsent : ({ b with io, write_buf := Buf.advance b.write_buf n } : Buffered B).sent = b.sent := by
        simp only [sent, Transport.poll_write_ok hw, WriteBuf.content_advance _ hn, List.append_assoc,
          List.take_append_drop]
      have hwf' := WriteBuf.wellFormed_advance hwf n
      dsimp only
      split_ifs
      · exact ⟨hsent, hwf'⟩
      · exact ⟨hsent, hwf'⟩
      · obtain ⟨h1, h2⟩ := sent_flushQueued fuel { b with io, write_buf := Buf.advance b.write_buf n } hwf'
        exact ⟨h1.trans hsent, h2⟩
    · exact ⟨sent_of_not_ok hw (by simp), hwf⟩

/-- The flattened flush: the cursor holds all the content, and each write takes its front. -/
theorem sent_flushFlattened : ∀ (fuel : ℕ) (b : Buffered B), b.write_buf.WellFormed →
    b.write_buf.strategy = .Flatten →
    (flushFlattened fuel b).2.sent = b.sent ∧ (flushFlattened fuel b).2.write_buf.WellFormed
  | 0, _, hwf, _ => ⟨rfl, hwf⟩
  | fuel + 1, b, hwf, hflat => by
    have hq : b.write_buf.queue.content = [] := by simp [BufList.content, hwf.flatten hflat]
    have hchunk : Buf.chunk b.write_buf.headers = LawfulBuf.content b.write_buf.headers := rfl
    rw [flushFlattened]
    rcases hw : b.io.poll_write (Buf.chunk b.write_buf.headers) with ⟨(e | n) | _, io⟩
    · exact ⟨sent_of_not_ok hw (by simp), hwf⟩
    · have hn : n ≤ Buf.remaining b.write_buf.headers := by
        rw [LawfulBuf.remaining_eq, ← hchunk]
        exact Transport.poll_write_le hw
      have hwritten := Transport.poll_write_ok hw
      rw [hchunk] at hwritten
      -- the cursor after the write, and what it still hands out
      have hcontent := LawfulBuf.content_advance b.write_buf.headers n hn
      have hwf' : ({ b.write_buf with headers := Buf.advance b.write_buf.headers n } : WriteBuf B).WellFormed :=
        ⟨by
          show b.write_buf.headers.pos + n ≤ b.write_buf.headers.bytes.length
          have := hwf.pos_le
          change n ≤ b.write_buf.headers.bytes.length - b.write_buf.headers.pos at hn
          omega, hwf.flatten⟩
      have hsent : ({ b with io, write_buf := { b.write_buf with
          headers := Buf.advance b.write_buf.headers n } } : Buffered B).sent = b.sent := by
        simp only [sent, WriteBuf.content, hcontent, hq, hwritten, List.append_nil, List.append_assoc,
          List.take_append_drop]
      dsimp only
      split_ifs with hzero
      · -- all of it is written, and the cursor is reset
        refine ⟨?_, ⟨Nat.zero_le _, hwf.flatten⟩⟩
        have hall : (LawfulBuf.content b.write_buf.headers).drop n = [] := by
          rw [← hcontent]
          exact List.eq_nil_of_length_eq_zero ((LawfulBuf.remaining_eq _).symm.trans hzero)
        rw [← hsent]
        simp only [sent, WriteBuf.content, Cursor.content_reset, hcontent, hall, hq]
      · exact ⟨hsent, hwf'⟩
      · obtain ⟨h1, h2⟩ := sent_flushFlattened fuel
          { b with io, write_buf := { b.write_buf with headers := Buf.advance b.write_buf.headers n } }
          hwf' hflat
        exact ⟨h1.trans hsent, h2⟩
    · exact ⟨sent_of_not_ok hw (by simp), hwf⟩

/-- A flush never changes what was sent, nor its order. -/
theorem sent_poll_flush {b : Buffered B} (hwf : b.write_buf.WellFormed) :
    b.poll_flush.2.sent = b.sent ∧ b.poll_flush.2.write_buf.WellFormed := by
  unfold poll_flush
  split_ifs
  · exact ⟨rfl, hwf⟩
  · exact ⟨rfl, hwf⟩
  · split
    · rename_i hflat
      exact sent_flushFlattened _ b hwf hflat
    · exact sent_flushQueued _ b hwf

end Buffered

/-! ## The automatic `100 Continue` behind a short write -/

/-- A first request, with a body of two bytes. -/
def firstRequest : List UInt8 := ascii "POST / HTTP/1.1\r\ncontent-length: 2\r\n\r\n"

/-- A pipelined second request that expects a `100 Continue` before its body. -/
def secondRequest : List UInt8 :=
  ascii "POST / HTTP/1.1\r\nexpect: 100-continue\r\ncontent-length: 3\r\n\r\n"

/-- What [httparse] reads from a buffer that starts with one of the two heads. -/
def pipelineParser : RequestParser := fun buf ↦
  if firstRequest.isPrefixOf buf then
    .ok (.Complete firstRequest.length
      ⟨ascii "POST", ascii "/", 1, [⟨ascii "content-length", ascii "2"⟩]⟩)
  else if secondRequest.isPrefixOf buf then
    .ok (.Complete secondRequest.length
      ⟨ascii "POST", ascii "/", 1, [⟨ascii "expect", ascii "100-continue"⟩, ⟨ascii "content-length", ascii "3"⟩]⟩)
  else .ok .Partial

/-- A server that takes every path as its URI and dates its responses at a fixed time. -/
def pipelineServer : Transaction RequestLine StatusCode :=
  .server pipelineParser (fun path ↦ some ⟨path⟩) (fun _ ↦ none) (ascii "Sun, 06 Nov 1994 08:49:37 GMT")

/-- The answer to the first request, with a body of five bytes. -/
def okHead : MessageHead StatusCode := ⟨.HTTP_11, StatusCode.OK, MultiMap.empty⟩

/-- The bytes of that head as the server writes them. -/
def okHeadBytes : List UInt8 :=
  ascii "HTTP/1.1 200 OK\r\ncontent-length: 5\r\ndate: Sun, 06 Nov 1994 08:49:37 GMT\r\n\r\n"

/-- A connection over a vectored transport: both requests arrive in one read, after which reads
are pending; the first write takes the head and two bytes of the body, and the next is
pending. -/
def pipelinedConn : Conn (List UInt8) :=
  Conn.new ⟨firstRequest ++ ascii "hi" ++ secondRequest, [.upTo 1000, .pending], [],
    [.upTo (okHeadBytes.length + 1), .pending]⟩ .Queue

/-- Read the first request's head, answer it, flush, read its body (the connection goes idle),
read the second head, read its body, flush. -/
def pipelineCalls : List (Call StatusCode (List UInt8)) :=
  [.read_head, .write_head okHead (some (.Known 5)), .write_body (ascii "hello"), .flush,
    .read_body, .read_head, .read_body, .flush]

theorem continue_overtakes_queued_body :
    ∃ c, runCalls pipelineServer pipelineCalls pipelinedConn = some c ∧
      Relation.ReflTransGen (Step pipelineServer) pipelinedConn c ∧
      Buf.remaining c.io.write_buf = 0 ∧
      c.io.io.written = okHeadBytes ++ ascii "he" ++ CONTINUE ++ ascii "llo" := by
  have hout : (runCalls pipelineServer pipelineCalls pipelinedConn).map
      (fun c ↦ (Buf.remaining c.io.write_buf, c.io.io.written)) =
      some (0, okHeadBytes ++ ascii "he" ++ CONTINUE ++ ascii "llo") := by decide +kernel
  obtain ⟨c, hc, hv⟩ := Option.map_eq_some_iff.mp hout
  simp only [Prod.mk.injEq] at hv
  exact ⟨c, hc, runCalls_run pipelineServer hc, hv.1, hv.2⟩

end Hyper.H1
