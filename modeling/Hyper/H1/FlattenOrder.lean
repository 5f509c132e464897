import Hyper.H1.WritePaths

/-!
# Under `Flatten`, outgoing bytes keep their order

`Hyper.H1.WriteOrder` shows that under `Queue` a head written behind a short write can overtake
body bytes that are still queued.  Under `Flatten` this cannot happen: every buffer is copied to
the end of the cursor, nothing is ever queued, and so every write of the connection appends to
what was sent, and every flush leaves it as it is.

The result is over whole runs.  `Buffered.Appends b b'` says that if `b` is flat (the `Flatten`
strategy, with a well-formed buffer) then so is `b'`, and what `b` had sent is a prefix of what
`b'` has sent.  It is reflexive and transitive, every step of a connection is one
(`Step.appends`), and so every run is one (`run_appends`): on a connection created with the
`Flatten` strategy, whatever the dispatcher does and however the transport answers, no byte
handed to the transport is ever reordered or dropped (`flatten_keeps_order`).

Reads are the bulk of the steps, and they leave the write side (`writeSide`: the write buffer
and what the transport has written) as it is.  This is proved once per reading function, and
for the body decoder once for all its states, through `Decoder.decode_frame`.
-/

set_option autoImplicit false

namespace Hyper.H1

open Relation

/-- A read leaves what the transport has written as it is. -/
theorem Transport.written_poll_read (t : Transport) (cap : ℕ) : (t.poll_read cap).2.written = t.written := by
  unfold Transport.poll_read
  split <;> rfl

namespace Buffered

variable {B : Type}

/-! ## Reads leave the write side alone -/

/-- The write side: what the write buffer holds, and what the transport has written. -/
def writeSide (b : Buffered B) : WriteBuf B × List UInt8 := (b.write_buf, b.io.written)

theorem writeSide_poll_read_from_io (b : Buffered B) : b.poll_read_from_io.2.writeSide = b.writeSide := by
  have hw := b.io.written_poll_read b.read_buf_strategy.next
  unfold poll_read_from_io
  split <;> rename_i hr <;> rw [hr] at hw <;> simp only [writeSide, ← hw]

theorem writeSide_consume_leading_lines (b : Buffered B) : b.consume_leading_lines.writeSide = b.writeSide := by
  unfold consume_leading_lines
  split_ifs <;> rfl

theorem strategy_flushFlattened :
    ∀ (fuel : ℕ) (b : Buffered B), (flushFlattened fuel b).2.write_buf.strategy = b.write_buf.strategy
  | 0, _ => rfl
  | fuel + 1, b => by
    rw [flushFlattened]
    split
    · rfl
    · rfl
    · dsimp only
      split_ifs
      · rfl
      · rfl
      · exact strategy_flushFlattened fuel _

theorem writeSide_read_mem (b : Buffered B) (len : ℕ) : (b.read_mem len).2.writeSide = b.writeSide := by
  have hio := b.writeSide_poll_read_from_io
  unfold read_mem
  split_ifs
  · rfl
  · split <;> rename_i hr <;> rw [hr] at hio <;> exact hio

/-- Parsing a head reads the transport as often as it needs, and writes nothing. -/
theorem writeSide_parseLoop {T : Type}
    (parse : List UInt8 → Except Parse (Option (ParsedMessage T)) × List UInt8) :
    ∀ (fuel : ℕ) (b : Buffered B), (parseLoop parse fuel b).2.writeSide = b.writeSide
  | 0, _ => rfl
  | fuel + 1, b => by
    rw [parseLoop]
    split
    · rfl
    · rfl
    · rename_i buf _
      dsimp only
      split_ifs
      · rfl
      · have hio := writeSide_poll_read_from_io { b with read_buf := buf }
        split <;> rename_i hr <;> rw [hr] at hio
        · exact hio
        · exact hio
        · split_ifs
          · exact hio
          · exact (writeSide_parseLoop parse fuel _).trans hio

theorem writeSide_parse {T : Type} (parse : List UInt8 → Except Parse (Option (ParsedMessage T)) × List UInt8)
    (b : Buffered B) : (b.parse parse).2.writeSide = b.writeSide :=
  writeSide_parseLoop parse _ b

/-- The body decoder writes nothing, whichever of its states it reads in. -/
theorem writeSide_decode (w : ℕ) (d : Decoder) (b : Buffered B) :
    (Decoder.decode w d b).2.2.writeSide = b.writeSide := by
  refine Decoder.decode_frame (P := fun b' : Buffered B ↦ b'.writeSide = b.writeSide) ?_ w d rfl
  intro r r' len res h hr
  have h1 := writeSide_read_mem r len
  rw [show (read_mem r len).2 = r' from congrArg Prod.snd h] at h1
  exact h1.trans hr

variable [Buf B]

/-! ## Flat buffers only grow -/

/-- Under `Flatten`, with a well-formed buffer. -/
structure Flat (b : Buffered B) : Prop where
  flatten : b.write_buf.strategy = .Flatten
  wellFormed : b.write_buf.WellFormed

/-- Under `Flatten` nothing is queued, so a head may always be written. -/
theorem can_headers_buf_of_flat {b : Buffered B} (h : b.Flat) : b.can_headers_buf = true := by
  have hq := h.wellFormed.flatten h.flatten
  simp only [can_headers_buf, decide_eq_true_eq]
  show (b.write_buf.queue.bufs.map Buf.remaining).sum = 0
  rw [hq]
  rfl

variable [LawfulBuf B]

/-- From `b` to `b'`: if `b` is flat, then so is `b'`, and what `b` had sent is a prefix of what
`b'` has sent. -/
def Appends (b b' : Buffered B) : Prop := b.Flat → b'.Flat ∧ b.sent <+: b'.sent

namespace Appends

theorem refl (b : Buffered B) : Appends b b := fun h ↦ ⟨h, List.prefix_refl _⟩

theorem trans {b₁ b₂ b₃ : Buffered B} (h₁₂ : Appends b₁ b₂) (h₂₃ : Appends b₂ b₃) : Appends b₁ b₃ := by
  intro h₁
  obtain ⟨h₂, hp₁₂⟩ := h₁₂ h₁
  obtain ⟨h₃, hp₂₃⟩ := h₂₃ h₂
  exact ⟨h₃, hp₁₂.trans hp₂₃⟩

end Appends

/-- Whatever leaves the write side alone appends nothing. -/
theorem appends_of_writeSide {b b' : Buffered B} (h : b'.writeSide = b.writeSide) : Appends b b' := by
  simp only [writeSide, Prod.mk.injEq] at h
  intro hflat
  refine ⟨⟨h.1 ▸ hflat.flatten, h.1 ▸ hflat.wellFormed⟩, ?_⟩
  rw [sent, sent, h.1, h.2]

theorem appends_headers_buf (b : Buffered B) (bs : List UInt8) : Appends b (b.headers_buf bs) := by
  intro h
  refine ⟨⟨h.flatten, wellFormed_headers_buf h.wellFormed bs⟩, ?_⟩
  rw [sent_headers_buf_of_can h.wellFormed (can_headers_buf_of_flat h)]
  exact List.prefix_append _ _

theorem appends_buffer (b : Buffered B) (buf : B) : Appends b (b.buffer buf) := by
  intro h
  refine ⟨⟨by simp [buffer, h.flatten], wellFormed_buffer h.wellFormed buf⟩, ?_⟩
  rw [sent_buffer h.wellFormed]
  exact List.prefix_append _ _

theorem strategy_flushQueued :
    ∀ (fuel : ℕ) (b : Buffered B), (flushQueued fuel b).2.write_buf.strategy = b.write_buf.strategy
  | 0, _ => rfl
  | fuel + 1, b => by
    rw [flushQueued]
    split
    · rfl
    · rfl
    · dsimp only
      split_ifs
      · exact WriteBuf.strategy_advance _ _
      · exact WriteBuf.strategy_advance _ _
      · exact (strategy_flushQueued fuel _).trans (WriteBuf.strategy_advance _ _)

theorem appends_poll_flush (b : Buffered B) : Appends b b.poll_flush.2 := by
  intro h
  obtain ⟨hsent, hwf⟩ := sent_poll_flush h.wellFormed
  refine ⟨⟨?_, hwf⟩, hsent ▸ List.prefix_refl _⟩
  rw [← h.flatten]
  unfold poll_flush
  split_ifs
  · rfl
  · rfl
  · split
    · exact strategy_flushFlattened _ b
    · exact strategy_flushQueued _ b

end Buffered

namespace Conn

variable {B : Type} {In Out : Type} (T : Transaction In Out)

open Buffered

/-! ## The read side writes nothing -/

theorem writeSide_maybe_notify (c : Conn B) : c.maybe_notify.io.writeSide = c.io.writeSide := by
  have hio := c.io.writeSide_poll_read_from_io
  unfold maybe_notify
  -- the read's outcome first, so that every branch names the transport the read left
  rcases hr : c.io.poll_read_from_io with ⟨(e | n) | _, io⟩ <;> rw [hr] at hio <;> dsimp only <;>
    repeat' split
  all_goals first | rfl | exact hio

theorem io_disable_keep_alive (c : Conn B) : c.disable_keep_alive.io = c.io := by
  unfold disable_keep_alive
  split_ifs <;> rfl

theorem writeSide_try_keep_alive (c : Conn B) : (c.try_keep_alive T).io.writeSide = c.io.writeSide :=
  writeSide_maybe_notify _

theorem writeSide_force_io_read (c : Conn B) : c.force_io_read.2.io.writeSide = c.io.writeSide := by
  have hio := c.io.writeSide_poll_read_from_io
  unfold force_io_read
  rcases hr : c.io.poll_read_from_io with ⟨(e | n) | _, io⟩ <;> rw [hr] at hio <;> exact hio

theorem writeSide_require_empty_read (c : Conn B) :
    (c.require_empty_read T).2.io.writeSide = c.io.writeSide := by
  have hf := writeSide_force_io_read c
  unfold require_empty_read
  split_ifs
  · rfl
  · rcases hr : force_io_read c with ⟨(e | n) | _, c1⟩ <;> rw [hr] at hf <;> dsimp only
    · exact hf
    · split_ifs <;> exact hf
    · exact hf

theorem writeSide_mid_message_detect_eof (c : Conn B) :
    c.mid_message_detect_eof.2.io.writeSide = c.io.writeSide := by
  have hf := writeSide_force_io_read c
  unfold mid_message_detect_eof
  split_ifs
  · rfl
  · rcases hr : force_io_read c with ⟨(e | n) | _, c1⟩ <;> rw [hr] at hf <;> dsimp only
    · exact hf
    · split_ifs <;> exact hf
    · exact hf

theorem writeSide_poll_read_keep_alive (c : Conn B) :
    (c.poll_read_keep_alive T).2.io.writeSide = c.io.writeSide := by
  unfold poll_read_keep_alive
  split_ifs
  · rfl
  · exact writeSide_mid_message_detect_eof c
  · exact writeSide_require_empty_read T c

theorem writeSide_readBody [Buf B] (c : Conn B) (d : Decoder) :
    (readBody T c d).2.io.writeSide = c.io.writeSide := by
  have hd := writeSide_decode 64 d c.io
  unfold readBody
  rcases hr : Decoder.decode 64 d c.io with ⟨(e | slice) | _, d', io⟩ <;> rw [hr] at hd <;> dsimp only
  · exact (writeSide_try_keep_alive T _).trans hd
  · by_cases heof : d'.is_eof
    · rw [if_pos heof]
      exact (writeSide_try_keep_alive T _).trans hd
    · rw [if_neg heof]
      split_ifs
      · exact (writeSide_try_keep_alive T _).trans hd
      · exact hd
  · exact hd

/-! ## Every entry point appends -/

variable [Buf B] [LawfulBuf B]

theorem appends_encode_head {c c1 : Conn B} {head : MessageHead Out} {body : Option BodyLength}
    {oe : Option Encoder} (h : c.encode_head T head body = some (oe, c1)) : c.io.Appends c1.io := by
  obtain ⟨bytes, hio⟩ := encode_head_io T h
  rw [hio]
  exact appends_headers_buf _ _

theorem appends_write_head {c c' : Conn B} {head : MessageHead Out} {body : Option BodyLength}
    (h : c.write_head T head body = some c') : c.io.Appends c'.io := by
  unfold write_head at h
  obtain ⟨⟨oe, c1⟩, he, rfl⟩ := Option.map_eq_some_iff.mp h
  have h1 := appends_encode_head T he
  rcases oe with _ | encoder <;> exact h1

theorem appends_write_full_msg {c c' : Conn B} {head : MessageHead Out} {body : B}
    (h : c.write_full_msg T head body = some c') : c.io.Appends c'.io := by
  unfold write_full_msg at h
  obtain ⟨⟨oe, c1⟩, he, rfl⟩ := Option.map_eq_some_iff.mp h
  have h1 := appends_encode_head T he
  rcases oe with _ | encoder
  · exact h1
  · -- the body goes after the head, unless the encoder is already at its end
    dsimp only
    split_ifs
    · exact h1.trans (appends_buffer _ _)
    · exact h1

theorem appends_write_body {c c' : Conn B} {chunk : B} (h : c.write_body chunk = some c') :
    c.io.Appends c'.io := by
  unfold write_body at h
  split at h
  · rw [← Option.some.inj h]
    exact appends_buffer _ _
  · cases h

theorem appends_write_body_and_end {c c' : Conn B} {chunk : B} (h : c.write_body_and_end chunk = some c') :
    c.io.Appends c'.io := by
  unfold write_body_and_end at h
  split at h
  · rw [← Option.some.inj h]
    exact appends_buffer _ _
  · cases h

theorem appends_end_body (c : Conn B) : c.io.Appends c.end_body.2.io := by
  unfold end_body
  split
  · split
    · -- the encoder's last bytes, if it has any
      dsimp only
      split
      · exact appends_buffer _ _
      · exact .refl _
    · exact .refl _
  · exact .refl _

theorem appends_on_parse_error {c c' : Conn B} {e : Error} {r : Except Error Unit}
    (h : c.on_parse_error T e = some (r, c')) : c.io.Appends c'.io := by
  unfold on_parse_error at h
  split at h
  · split_ifs at h
    · simp only [Option.some.injEq, Prod.mk.injEq] at h
      rw [← h.2]
      exact .refl _
    · split at h
      · -- the role's error response is written as a head
        obtain ⟨c1, hwh, hc⟩ := Option.map_eq_some_iff.mp h
        simp only [Prod.mk.injEq] at hc
        rw [← hc.2]
        show c.io.Appends c1.io
        exact appends_write_head T hwh
      · simp only [Option.some.injEq, Prod.mk.injEq] at h
        rw [← h.2]
        exact .refl _
  · simp only [Option.some.injEq, Prod.mk.injEq] at h
    rw [← h.2]
    exact .refl _

theorem appends_on_read_head_error {c c' : Conn B} {e : Error}
    {r : Poll (Option (Except Error (MessageHead In × DecodedLength × Wants)))}
    (h : c.on_read_head_error T e = some (r, c')) : c.io.Appends c'.io := by
  unfold on_read_head_error at h
  dsimp only at h
  have hlines : c.io.Appends c.io.consume_leading_lines :=
    appends_of_writeSide (writeSide_consume_leading_lines _)
  split_ifs at h
  · obtain ⟨⟨r1, c1⟩, hpe, hc⟩ := Option.map_eq_some_iff.mp h
    have hc1 : c' = c1 := by
      rcases r1 with _ | ⟨⟩ <;> simp only [Prod.mk.injEq] at hc <;> exact hc.2.symm
    rw [hc1]
    exact hlines.trans (appends_on_parse_error T hpe)
  · simp only [Option.some.injEq, Prod.mk.injEq] at h
    rw [← h.2]
    exact hlines

theorem appends_poll_read_head {c c' : Conn B}
    {r : Poll (Option (Except Error (MessageHead In × DecodedLength × Wants)))}
    (h : c.poll_read_head T = some (r, c')) : c.io.Appends c'.io := by
  have hparse := writeSide_parse (T.parse ⟨c.state.method, c.state.h09_responses⟩) c.io
  unfold poll_read_head at h
  rcases hp : c.io.parse (T.parse ⟨c.state.method, c.state.h09_responses⟩) with ⟨(e | msg) | _, io⟩ <;>
    rw [hp] at hparse h <;> dsimp only at h <;> have hio := appends_of_writeSide hparse
  · exact hio.trans (appends_on_read_head_error T h)
  · -- a parsed head: a client with no body to read may go idle at once
    split_ifs at h <;> simp only [Option.some.injEq, Prod.mk.injEq] at h <;> rw [← h.2]
    · exact hio.trans (appends_of_writeSide (writeSide_try_keep_alive T _))
    · exact hio
    · exact hio
    · exact hio
  · simp only [Option.some.injEq, Prod.mk.injEq] at h
    rw [← h.2]
    exact hio

theorem appends_poll_read_body {c c' : Conn B} {r : Poll (Option (Except IoError (List UInt8)))}
    (h : c.poll_read_body T = some (r, c')) : c.io.Appends c'.io := by
  unfold poll_read_body at h
  split at h
  · rename_i d _
    obtain rfl : c' = (readBody T c d).2 := by rw [Option.some.inj h]
    exact appends_of_writeSide (writeSide_readBody T c d)
  · rename_i d _
    dsimp only at h
    have hc := congrArg Prod.snd (Option.some.inj h)
    dsimp only at hc
    rw [← hc]
    -- the automatic [100 Continue] goes into [headers_buf] first
    have hcont : c.io.Appends (if c.state.writing = .Init then c.io.headers_buf CONTINUE else c.io) := by
      split_ifs
      · exact appends_headers_buf _ _
      · exact .refl _
    exact hcont.trans (appends_of_writeSide (writeSide_readBody T _ d))
  · cases h

theorem appends_poll_flush (c : Conn B) : c.io.Appends (c.poll_flush T).2.io := by
  have hflush := c.io.appends_poll_flush
  unfold poll_flush
  rcases hr : c.io.poll_flush with ⟨(e | ⟨⟩) | _, io⟩ <;> rw [hr] at hflush <;> dsimp only
  · exact hflush
  · exact hflush.trans (appends_of_writeSide (writeSide_try_keep_alive T _))
  · exact hflush

end Conn

/-! ## Over whole runs -/

section Runs

variable {B : Type} [Buf B] [LawfulBuf B] {In Out : Type} (T : Transaction In Out)

open Buffered

/-- Every step of a connection keeps a flat write side flat, and only appends to what it sent. -/
theorem Step.appends {c c' : Conn B} (h : Step T c c') : c.io.Appends c'.io := by
  cases h with
  | poll_read_head _ h => exact Conn.appends_poll_read_head T h
  | poll_read_body _ h => exact Conn.appends_poll_read_body T h
  | poll_read_keep_alive _ h =>
    obtain rfl : c' = (c.poll_read_keep_alive T).2 := by rw [h]
    exact appends_of_writeSide (Conn.writeSide_poll_read_keep_alive T c)
  | write_head _ h => exact Conn.appends_write_head T h
  | write_full_msg _ h => exact Conn.appends_write_full_msg T h
  | write_body _ h => exact Conn.appends_write_body h
  | write_body_and_end _ h => exact Conn.appends_write_body_and_end h
  | end_body _ h =>
    obtain rfl : c' = c.end_body.2 := by rw [h]
    exact Conn.appends_end_body c
  | on_parse_error h => exact Conn.appends_on_parse_error T h
  | poll_flush h =>
    obtain rfl : c' = (c.poll_flush T).2 := by rw [h]
    exact Conn.appends_poll_flush T c
  | close_read => exact .refl _
  | close_write => exact .refl _
  | disable_keep_alive => exact appends_of_writeSide (congrArg writeSide (Conn.io_disable_keep_alive c))
  | try_keep_alive => exact appends_of_writeSide (Conn.writeSide_try_keep_alive T c)
  | maybe_notify => exact appends_of_writeSide (Conn.writeSide_maybe_notify c)

theorem run_appends {c c' : Conn B} (h : ReflTransGen (Step T) c c') : c.io.Appends c'.io := by
  induction h with
  | refl => exact .refl _
  | tail _ hstep ih => exact ih.trans (hstep.appends T)

omit [Buf B] [LawfulBuf B] in
theorem flat_new (io : Transport) : (Conn.new io .Flatten : Conn B).io.Flat :=
  ⟨rfl, WriteBuf.wellFormed_new _⟩

/-- On a connection created with the [Flatten] strategy, whatever the dispatcher calls and however
the transport answers, what was sent at any point of a run is a prefix of what is sent at every
later point: no byte handed to the transport is reordered or dropped. -/
theorem flatten_keeps_order (io : Transport) {c c' : Conn B}
    (h₁ : ReflTransGen (Step T) (Conn.new io .Flatten) c) (h₂ : ReflTransGen (Step T) c c') :
    c.io.sent <+: c'.io.sent := by
  have hflat : c.io.Flat := (run_appends T h₁ (flat_new io)).1
  exact (run_appends T h₂ hflat).2

/-- The connection `pipelinedConn` with the first request only, under
`Flatten`. -/
def flatConn : Conn (List UInt8) :=
  Conn.new ⟨firstRequest ++ ascii "hi", [.upTo 1000, .pending], [],
    [.upTo (okHeadBytes.length + 1), .pending]⟩ .Flatten

theorem flatten_keeps_order_short_write :
    ∃ c, runCalls pipelineServer [.read_head, .write_head okHead (some (.Known 5)),
        .write_body (ascii "hello"), .flush] flatConn = some c ∧ flatConn.io.sent <+: c.io.sent := by
  obtain ⟨c, hc⟩ := Option.isSome_iff_exists.mp (by decide +kernel :
    (runCalls pipelineServer [.read_head, .write_head okHead (some (.Known 5)),
      .write_body (ascii "hello"), .flush] flatConn).isSome)
  exact ⟨c, hc, flatten_keeps_order pipelineServer _ .refl (runCalls_run pipelineServer hc)⟩

end Runs

end Hyper.H1
