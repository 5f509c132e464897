import Hyper.H1.Dispatcher
import Hyper.H1.Lifecycle
import Hyper.H1.Role.ServerParse

/-!
# What one call of a server connection does

The dispatcher's invariant (`Hyper.H1.DispatcherRuns`) is proved one call of `Conn` at a time;
this file gathers what each call does to the parts of the state the invariant speaks of.

* `Decoder.Follows` — after a slice of a body, a length decoder owes the slice less and the other
  two keep their kind (`decode_follows`);
* `Framed` — how the channel of a body stands to the decoder that fills it: a length decoder owes
  the body what it has still to read, and the two reserved lengths go with the other two kinds;
* `Transaction.Serves` — what the invariant needs of a role, and `server_serves`, that the server
  role with any parser has it, as `Server::parse` frames every request it accepts;
* `Pipelined` — how the two sides stand to the service's future in flight, and `ReadStays`, what
  the read side may do while no body is read;
* the `Conn` lemmas — for each of `poll_read_head`, `poll_read_body`, `poll_read_keep_alive`,
  `poll_drain_or_close_read`, the writes and `poll_flush`, what it leaves of the two sides;
* what the server's calls do not panic on: `Server::encode` panics only on a response of
  HTTP/0.9 or HTTP/3, so reading a head, whose parse errors are answered with HTTP/1.1 heads,
  never panics (`Conn.server_poll_read_head_isSome`).
-/

set_option autoImplicit false

namespace Hyper.H1

open Body Relation

/-! ## What the connection's calls do to its two sides -/

namespace State

variable (s : State)

/-- `State::try_keep_alive` leaves the two sides, closes both, or starts the next message from a
message done on both sides. -/
theorem try_keep_alive_sides (should_read_first : Bool) :
    ((s.try_keep_alive should_read_first).reading = s.reading ∧
      (s.try_keep_alive should_read_first).writing = s.writing) ∨
    ((s.try_keep_alive should_read_first).reading = .Closed ∧
      (s.try_keep_alive should_read_first).writing = .Closed) ∨
    (s.reading = .KeepAlive ∧ s.writing = .KeepAlive ∧
      (s.try_keep_alive should_read_first).reading = .Init ∧
      (s.try_keep_alive should_read_first).writing = .Init) := by
  unfold try_keep_alive
  split
  · rename_i hr hw
    split_ifs
    · have hp := s.phase_idle should_read_first
      exact .inr (.inr ⟨hr, hw, congrArg Phase.reading hp, congrArg Phase.writing hp⟩)
    · exact .inr (.inl ⟨rfl, rfl⟩)
  · exact .inr (.inl ⟨rfl, rfl⟩)
  · exact .inr (.inl ⟨rfl, rfl⟩)
  · exact .inl ⟨rfl, rfl⟩

end State

/-! ## A body and the decoder that fills it -/

/-- What the channel of a body says of the decoder that fills it: a length decoder owes the body
what it has left, while the body is there, and the other two go with the two reserved lengths. -/
def Framed (ch : Channel) (dec : Decoder) : Prop :=
  match dec.kind with
  | .Length rem => ch.rx_open = true → ch.Owes rem
  | .Chunked _ _ => ch.content_length = DecodedLength.CHUNKED
  | .Eof _ => ch.content_length = DecodedLength.CLOSE_DELIMITED

namespace Framed

variable {ch : Channel} {dec dec' : Decoder}

theorem sized (h : Framed ch dec) (hrx : ch.rx_open = true) : ch.Sized := by
  rcases dec with ⟨rem | ⟨st, size⟩ | e⟩
  · exact .inr (.inr ⟨rem, h hrx⟩)
  · exact .inl h
  · exact .inr (.inl h)

/-- A wait for bytes leaves the decoder owing what it owed. -/
theorem follows_zero (h : Framed ch dec) (hf : dec.Follows dec' 0) : Framed ch dec' := by
  rcases dec with ⟨rem | ⟨st, size⟩ | e⟩ <;> rcases dec' with ⟨rem' | ⟨st', size'⟩ | e'⟩ <;>
    simp only [Decoder.Follows] at hf <;> simp only [Framed] at h ⊢
  · rw [hf.2, Nat.sub_zero]
    exact h
  · exact h
  · exact h

theorem poll_inner (h : Framed ch dec) : Framed ch.poll_inner.2 dec := by
  rcases dec with ⟨rem | ⟨st, size⟩ | e⟩ <;> simp only [Framed] at h ⊢
  · intro hrx
    rw [Channel.poll_inner_rx_open] at hrx
    exact (h hrx).poll_inner
  · rw [Channel.poll_inner_content_length_reserved (.inl h)]
    exact h
  · rw [Channel.poll_inner_content_length_reserved (.inr h)]
    exact h

theorem drop_body (h : Framed ch dec) : Framed ch.drop_body dec := by
  rcases dec with ⟨rem | ⟨st, size⟩ | e⟩ <;> simp only [Framed] at h ⊢
  · simp
  · simpa using h
  · simpa using h

/-- A chunk that the decoder read, and that a real length owes. -/
theorem owes_chunk {chunk : List UInt8} (h : Framed ch dec) (hf : dec.Follows dec' chunk.length)
    (hrx : ch.rx_open = true) :
    ch.content_length = DecodedLength.CHUNKED ∨ ch.content_length = DecodedLength.CLOSE_DELIMITED ∨
      ∃ rest, ch.Owes (chunk.length + rest) := by
  rcases dec with ⟨rem | ⟨st, size⟩ | e⟩ <;> rcases dec' with ⟨rem' | ⟨st', size'⟩ | e'⟩ <;>
    simp only [Decoder.Follows] at hf <;> simp only [Framed] at h
  · refine .inr (.inr ⟨rem - chunk.length, ?_⟩)
    rw [Nat.add_sub_cancel' hf.1]
    exact h hrx
  · exact .inl h
  · exact .inr (.inl h)

/-- A chunk that the decoder read and the channel took: the decoder owes that much less. -/
theorem send {chunk : List UInt8} (h : Framed ch dec) (hf : dec.Follows dec' chunk.length)
    (hok : (Sender.try_send_data ch chunk).1 = .ok ()) : Framed (Sender.try_send_data ch chunk).2 dec' := by
  obtain ⟨-, hrx, heq⟩ := Channel.try_send_data_ok hok
  rcases dec with ⟨rem | ⟨st, size⟩ | e⟩ <;> rcases dec' with ⟨rem' | ⟨st', size'⟩ | e'⟩ <;>
    simp only [Decoder.Follows] at hf <;> simp only [Framed] at h ⊢
  · intro _
    rw [heq]
    obtain ⟨hle, rfl⟩ := hf
    apply Channel.Owes.send
    rw [Nat.add_sub_cancel' hle]
    exact h hrx
  · rw [Channel.try_send_data_content_length]
    exact h
  · rw [Channel.try_send_data_content_length]
    exact h

end Framed

/-- The channel of a new body and the decoder of its head: a real length is all owed. -/
theorem framed_new {len : DecodedLength}
    (hlen : len = DecodedLength.CHUNKED ∨ len = DecodedLength.CLOSE_DELIMITED ∨
      len.val ≤ DecodedLength.MAX_LEN) (wanter : Bool) :
    Framed (new_channel len wanter) (Decoder.new len) := by
  unfold Decoder.new
  split_ifs with hc hd
  · exact hc
  · exact hd
  · intro _
    rcases hlen with h | h | h
    · exact absurd h hc
    · exact absurd h hd
    · exact ⟨h, by simp [new_channel, DecodedLength.danger_len]⟩

/-- What the dispatcher's invariant needs of its role: it reads first, as a server does, and every
head it parses has a length a body can carry. -/
structure Transaction.Serves {In Out : Type} (T : Transaction In Out) : Prop where
  reads_first : T.should_read_first = true
  framed : ∀ ctx buf rest msg, T.parse ctx buf = (.ok (some msg), rest) →
    msg.decode = DecodedLength.CHUNKED ∨ msg.decode = DecodedLength.CLOSE_DELIMITED ∨
      msg.decode.val ≤ DecodedLength.MAX_LEN

/-- The server is such a role: `Server::parse` frames a request by a chunked `Transfer-Encoding`,
by a `Content-Length` that `checked_new` let through, or as empty. -/
theorem server_serves (parser : RequestParser) (uri_parse : UriParser)
    (canonical_reason : StatusCode → Option (List UInt8)) (date : List UInt8) :
    (Transaction.server parser uri_parse canonical_reason date).Serves := by
  refine ⟨rfl, fun ctx buf rest msg h ↦ ?_⟩
  obtain ⟨len, req, method, s, -, hrun, hte, -, hd⟩ := Server.parse_eq_ok_some h
  have hinv := Server.readLines_inv hrun
  rw [hd]
  by_cases hs : s.is_te = true
  · -- a `Transfer-Encoding` that `parse` accepted ends in `chunked`
    have hc : s.is_te_chunked = true := by
      by_contra hc
      exact hte ⟨hs, hc⟩
    exact .inl (hinv.chunked hc)
  · rcases hinv.length hs with ⟨-, hz, -⟩ | ⟨n, hn, -, -, hdn, -⟩
    · exact .inr (.inr (by simp [hz, DecodedLength.ZERO]))
    · exact .inr (.inr (by rw [hdn]; exact hn))

/-! ## The connection's side of the invariant -/

/-- What the read side may do when no body is read: stay, close, or start the next message once
the last is done on both sides. -/
def ReadStays (r r' : Reading) : Prop := r' = r ∨ r' = .Closed ∨ (r = .KeepAlive ∧ r' = .Init)

theorem ReadStays.refl (r : Reading) : ReadStays r r := .inl rfl

/-- A read side that stays in a body is where it was. -/
theorem ReadStays.eq_of_body {r r' : Reading} {dec : Decoder} (h : ReadStays r r')
    (hb : r' = .Body dec ∨ r' = .Continue dec) : r = r' := by
  rcases h with h | h | ⟨-, h⟩
  · exact h.symm
  · rcases hb with hb | hb <;> rw [h] at hb <;> cases hb
  · rcases hb with hb | hb <;> rw [h] at hb <;> cases hb

/-- How the connection's two sides stand to the service's future (`Server::in_flight`): back at
the start of a message, nothing is in flight and nothing is being written; while a future is in
flight, its request's head has been read and no response to it begun. -/
structure Pipelined (s : State) (in_flight : Bool) : Prop where
  idle : s.reading = .Init → s.writing = .Init ∧ in_flight = false
  busy : in_flight = true → s.reading ≠ .Init ∧ (s.writing = .Init ∨ s.writing = .Closed)

namespace Pipelined

variable {s s' : State} {f : Bool}

theorem congr (h : Pipelined s f) (hr : s'.reading = s.reading) (hw : s'.writing = s.writing) :
    Pipelined s' f := by
  refine ⟨fun hi ↦ ?_, fun hf ↦ ?_⟩
  · rw [hw]
    exact h.idle (hr ▸ hi)
  · rw [hr, hw]
    exact h.busy hf

/-- Away from the start of a message, with nothing in flight. -/
theorem of_reading_ne_init (hr : s.reading ≠ .Init) : Pipelined s false :=
  ⟨fun hi ↦ absurd hi hr, fun hf ↦ by cases hf⟩

/-- A closed read side, with the write side as it was or closed. -/
theorem close_read (h : Pipelined s f) (hr : s'.reading = .Closed)
    (hw : s'.writing = s.writing ∨ s'.writing = .Closed) : Pipelined s' f := by
  refine ⟨fun hi ↦ (by rw [hr] at hi; cases hi), fun hf ↦ ⟨by rw [hr]; simp, ?_⟩⟩
  rcases hw with hw | hw
  · rw [hw]
    exact (h.busy hf).2
  · exact .inr hw

/-- While a response is being written, nothing is in flight. -/
theorem in_flight_eq_false (h : Pipelined s f) (hw : s.writing ≠ .Init) (hc : s.writing ≠ .Closed) :
    f = false := by
  cases f
  · rfl
  · rcases (h.busy rfl).2 with h' | h' <;> contradiction

theorem reading_ne_init (h : Pipelined s f) (hw : s.writing ≠ .Init) : s.reading ≠ .Init :=
  fun hi ↦ hw (h.idle hi).1

end Pipelined

namespace Conn

variable {B : Type} [Buf B] {In Out : Type} (T : Transaction In Out)

omit [Buf B] in
/-- `maybe_notify` moves the sides only from a read side at `Init`, and then only to a closed read
side. -/
theorem maybe_notify_sides (c : Conn B) :
    (c.maybe_notify.state.reading = c.state.reading ∧ c.maybe_notify.state.writing = c.state.writing) ∨
    (c.state.reading = .Init ∧ c.maybe_notify.state.reading = .Closed ∧
      (c.maybe_notify.state.writing = c.state.writing ∨ c.maybe_notify.state.writing = .Closed)) := by
  unfold maybe_notify
  split
  case h_1 | h_2 | h_3 =>
    rename_i hr _
    repeat' split
    all_goals first
      | exact .inl ⟨rfl, rfl⟩
      | exact .inr ⟨hr, rfl, .inr rfl⟩
      | exact .inr ⟨hr, rfl, .inl rfl⟩
  all_goals exact .inl ⟨rfl, rfl⟩

omit [Buf B] in
/-- `try_keep_alive` leaves the two sides; or closes the read side, and the write side with it or
not; or, from a message done on both sides, goes back to the start of the next, or closes the read
side there when the stream has ended. -/
theorem try_keep_alive_sides (c : Conn B) :
    ((c.try_keep_alive T).state.reading = c.state.reading ∧
      (c.try_keep_alive T).state.writing = c.state.writing) ∨
    ((c.try_keep_alive T).state.reading = .Closed ∧
      ((c.try_keep_alive T).state.writing = c.state.writing ∨
        (c.try_keep_alive T).state.writing = .Closed)) ∨
    (c.state.reading = .KeepAlive ∧ c.state.writing = .KeepAlive ∧
      (((c.try_keep_alive T).state.reading = .Init ∧ (c.try_keep_alive T).state.writing = .Init) ∨
        (c.try_keep_alive T).state.reading = .Closed)) := by
  unfold try_keep_alive
  set c1 : Conn B := { c with state := c.state.try_keep_alive T.should_read_first }
  have hm := maybe_notify_sides c1
  rcases c.state.try_keep_alive_sides T.should_read_first with ⟨h1, h2⟩ | ⟨h1, h2⟩ | ⟨h0, h0', h1, h2⟩
  · rcases hm with ⟨hr, hw⟩ | ⟨-, hr, hw⟩
    · exact .inl ⟨hr.trans h1, hw.trans h2⟩
    · exact .inr (.inl ⟨hr, hw.imp (fun h ↦ h.trans h2) id⟩)
  · -- both sides closed: `maybe_notify` has nothing to do
    rcases hm with ⟨hr, hw⟩ | ⟨hr0, -, -⟩
    · exact .inr (.inl ⟨hr.trans h1, .inr (hw.trans h2)⟩)
    · exact absurd (hr0.symm.trans h1) (by simp)
  · refine .inr (.inr ⟨h0, h0', ?_⟩)
    rcases hm with ⟨hr, hw⟩ | ⟨-, hr, -⟩
    · exact .inl ⟨hr.trans h1, hw.trans h2⟩
    · exact .inr hr

omit [Buf B] in
theorem pipelined_try_keep_alive {c : Conn B} {f : Bool} (h : Pipelined c.state f) :
    Pipelined (c.try_keep_alive T).state f := by
  rcases try_keep_alive_sides T c with ⟨hr, hw⟩ | ⟨hr, hw⟩ | ⟨-, hka, h3⟩
  · exact h.congr hr hw
  · exact h.close_read hr hw
  · -- the last response is written, so nothing is in flight
    have hf : f = false := h.in_flight_eq_false (by rw [hka]; simp) (by rw [hka]; simp)
    subst hf
    rcases h3 with ⟨-, hw⟩ | hr
    · exact ⟨fun _ ↦ ⟨hw, rfl⟩, fun hf ↦ by cases hf⟩
    · exact .of_reading_ne_init (by rw [hr]; simp)

omit [Buf B] in
theorem readStays_try_keep_alive (c : Conn B) :
    ReadStays c.state.reading (c.try_keep_alive T).state.reading := by
  rcases try_keep_alive_sides T c with ⟨hr, -⟩ | ⟨hr, -⟩ | ⟨hka, -, ⟨hr, -⟩ | hr⟩
  · exact .inl hr
  · exact .inr (.inl hr)
  · exact .inr (.inr ⟨hka, hr⟩)
  · exact .inr (.inl hr)

omit [Buf B] in
/-- `Conn::disable_keep_alive` closes an idle connection and leaves the sides of any other. -/
theorem disable_keep_alive_sides (c : Conn B) :
    c.disable_keep_alive.state = c.state.close ∨
      (c.disable_keep_alive.state.reading = c.state.reading ∧
        c.disable_keep_alive.state.writing = c.state.writing) := by
  unfold disable_keep_alive
  split_ifs
  · exact .inl rfl
  · exact .inr ⟨rfl, rfl⟩

omit [Buf B] in
theorem writesOn_encode_head {c c' : Conn B} {head : MessageHead Out} {body : Option BodyLength}
    {oe : Option Encoder} (h : encode_head T c head body = some (oe, c')) :
    c'.state.reading = c.state.reading ∧ (oe = none → c'.state.writing = .Closed) := by
  obtain ⟨p, -, hr, -, hc⟩ := encode_head_phase T h
  have hread := congrArg Phase.reading hc
  have hwrite := congrArg Phase.writing hc
  refine ⟨?_, fun hnone ↦ ?_⟩
  · split_ifs at hread <;> exact hread.trans hr
  · subst hnone
    simpa [State.phase] using hwrite

omit [Buf B] in
/-- A head is written, or the role's error closes the write side. -/
theorem write_head_sides {c c' : Conn B} {head : MessageHead Out} {body : Option BodyLength}
    (h : c.write_head T head body = some c') :
    c'.state.reading = c.state.reading ∧ c'.state.writing ≠ .Init := by
  unfold write_head at h
  obtain ⟨⟨oe, c1⟩, he, rfl⟩ := Option.map_eq_some_iff.mp h
  obtain ⟨hr, hclosed⟩ := writesOn_encode_head T he
  rcases oe with _ | encoder
  · exact ⟨hr, by rw [hclosed rfl]; simp⟩
  · refine ⟨hr, ?_⟩
    dsimp only
    split_ifs <;> simp

theorem write_full_msg_sides {c c' : Conn B} {head : MessageHead Out} {body : B}
    (h : c.write_full_msg T head body = some c') :
    c'.state.reading = c.state.reading ∧ c'.state.writing ≠ .Init := by
  unfold write_full_msg at h
  obtain ⟨⟨oe, c1⟩, he, rfl⟩ := Option.map_eq_some_iff.mp h
  obtain ⟨hr, hclosed⟩ := writesOn_encode_head T he
  rcases oe with _ | encoder
  · exact ⟨hr, by rw [hclosed rfl]; simp⟩
  · -- buffering the body leaves the state as it is
    refine ⟨?_, ?_⟩ <;> dsimp only <;> split_ifs <;> simp [hr]

theorem write_body_sides {c c' : Conn B} {chunk : B} (h : c.write_body chunk = some c') :
    c'.state.reading = c.state.reading ∧ c'.state.writing ≠ .Init := by
  unfold write_body at h
  split at h
  · obtain rfl := Option.some.inj h
    refine ⟨rfl, ?_⟩
    dsimp only
    split_ifs <;> simp
  · cases h

theorem write_body_and_end_sides {c c' : Conn B} {chunk : B} (h : c.write_body_and_end chunk = some c') :
    c'.state.reading = c.state.reading ∧ c'.state.writing ≠ .Init := by
  unfold write_body_and_end at h
  split at h
  · obtain rfl := Option.some.inj h
    refine ⟨rfl, ?_⟩
    dsimp only
    split_ifs <;> simp
  · cases h

theorem end_body_sides (c : Conn B) :
    c.end_body.2.state.reading = c.state.reading ∧
      (c.end_body.2.state.writing = c.state.writing ∨ c.end_body.2.state.writing ≠ .Init) := by
  unfold end_body
  split
  · split
    · refine ⟨rfl, .inr ?_⟩
      dsimp only
      split_ifs <;> simp
    · exact ⟨rfl, .inr (by simp)⟩
  · exact ⟨rfl, .inl rfl⟩

/-! ### The read side -/

omit [Buf B] in
theorem force_io_read_state (c : Conn B) :
    c.force_io_read.2.state = c.state ∨ c.force_io_read.2.state = c.state.close := by
  unfold force_io_read
  split
  · exact .inr rfl
  · exact .inl rfl

omit [Buf B] in
/-- Watching the read side between messages closes it at most, and the write side with it at
most. -/
theorem poll_read_keep_alive_sides (c : Conn B) :
    ((c.poll_read_keep_alive T).2.state.reading = c.state.reading ∨
      (c.poll_read_keep_alive T).2.state.reading = .Closed) ∧
    ((c.poll_read_keep_alive T).2.state.writing = c.state.writing ∨
      (c.poll_read_keep_alive T).2.state.writing = .Closed) := by
  -- both ways of watching read once, then close the read side on the end of the stream
  have hread : ∀ c1 : Conn B, (c1.state = c.state ∨ c1.state = c.state.close) →
      ((c1.state.reading = c.state.reading ∨ c1.state.reading = .Closed) ∧
        (c1.state.writing = c.state.writing ∨ c1.state.writing = .Closed)) ∧
      ((c1.close_read.state.reading = c.state.reading ∨ c1.close_read.state.reading = .Closed) ∧
        (c1.close_read.state.writing = c.state.writing ∨ c1.close_read.state.writing = .Closed)) := by
    rintro c1 (h | h) <;> simp [close_read, State.close_read, h, State.close]
  unfold poll_read_keep_alive
  split_ifs
  · exact ⟨.inl rfl, .inl rfl⟩
  · unfold mid_message_detect_eof
    split_ifs
    · exact ⟨.inl rfl, .inl rfl⟩
    · rcases hf : force_io_read c with ⟨r, c1⟩
      have h1 := hread c1 (by simpa [hf] using force_io_read_state c)
      rcases r with (_ | n) | _ <;> dsimp only <;> (try split_ifs) <;> first | exact h1.1 | exact h1.2
  · unfold require_empty_read
    split_ifs
    · exact ⟨.inl rfl, .inl rfl⟩
    · rcases hf : force_io_read c with ⟨r, c1⟩
      have h1 := hread c1 (by simpa [hf] using force_io_read_state c)
      rcases r with (_ | n) | _ <;> dsimp only <;> (try split_ifs) <;> first | exact h1.1 | exact h1.2

omit [Buf B] in
/-- A head the role parses came from one call of its parser. -/
theorem parseLoop_ok {T' : Type}
    {parse : List UInt8 → Except Parse (Option (ParsedMessage T')) × List UInt8} :
    ∀ (fuel : ℕ) {b b' : Buffered B} {msg : ParsedMessage T'},
      Buffered.parseLoop parse fuel b = (.ready (.ok msg), b') →
        ∃ buf rest, parse buf = (.ok (some msg), rest)
  | 0, _, _, _, h => by simp [Buffered.parseLoop] at h
  | fuel + 1, b, b', msg, h => by
    unfold Buffered.parseLoop at h
    rcases hp : parse_headers parse b.read_buf with ⟨e | _ | m, buf⟩ <;> rw [hp] at h
    · simp at h
    · -- not a whole head yet: read more, and go round
      dsimp only at h
      split_ifs at h
      · simp at h
      · split at h
        · simp at h
        · simp at h
        · split_ifs at h
          · simp at h
          · exact parseLoop_ok fuel h
    · simp only [Prod.mk.injEq, Poll.ready.injEq, Except.ok.injEq] at h
      obtain ⟨rfl, -⟩ := h
      unfold parse_headers at hp
      split_ifs at hp
      · simp at hp
      · exact ⟨_, _, hp⟩

omit [Buf B] in
/-- The error response of `on_parse_error` is a head: the read side stays. -/
theorem on_parse_error_reading {c c' : Conn B} {e : Error} {r : Except Error Unit}
    (h : c.on_parse_error T e = some (r, c')) : c'.state.reading = c.state.reading := by
  unfold on_parse_error at h
  split at h
  · split_ifs at h
    · obtain ⟨-, rfl⟩ := Prod.mk.inj (Option.some.inj h)
      rfl
    · split at h
      · obtain ⟨c1, hw, hc⟩ := Option.map_eq_some_iff.mp h
        obtain ⟨-, rfl⟩ := Prod.mk.inj hc
        exact (write_head_sides T hw).1
      · obtain ⟨-, rfl⟩ := Prod.mk.inj (Option.some.inj h)
        rfl
  · obtain ⟨-, rfl⟩ := Prod.mk.inj (Option.some.inj h)
    rfl

omit [Buf B] in
/-- A failed read of a head closes the read side, and hands out no head. -/
theorem on_read_head_error_cases {c c' : Conn B} {e : Error}
    {r : Poll (Option (Except Error (MessageHead In × DecodedLength × Wants)))}
    (h : c.on_read_head_error T e = some (r, c')) :
    c'.state.reading = .Closed ∧ ∀ x, r ≠ .ready (some (.ok x)) := by
  unfold on_read_head_error at h
  dsimp only at h
  split_ifs at h
  · obtain ⟨⟨r1, c1⟩, hpe, hc⟩ := Option.map_eq_some_iff.mp h
    have hread := on_parse_error_reading T hpe
    rcases r1 with _ | ⟨⟩ <;> obtain ⟨rfl, rfl⟩ := Prod.mk.inj hc
    · exact ⟨hread, fun _ ↦ by simp⟩
    · exact ⟨hread, fun _ ↦ by simp⟩
  · obtain ⟨rfl, rfl⟩ := Prod.mk.inj (Option.some.inj h)
    exact ⟨rfl, fun _ ↦ by simp⟩

omit [Buf B] in
/-- What reading a head does, for a role that reads first: nothing but the buffers yet; a closed
read side on an error or at the end of the stream; or the read side moved into the head's body,
whose length came from one call of the role's parser. -/
theorem poll_read_head_cases (hT : T.should_read_first = true) {c c' : Conn B}
    {r : Poll (Option (Except Error (MessageHead In × DecodedLength × Wants)))}
    (h : c.poll_read_head T = some (r, c')) :
    (r = .pending ∧ c'.state = c.state) ∨
    (c'.state.reading = .Closed ∧ ∀ x, r ≠ .ready (some (.ok x))) ∨
    (∃ head len wants, r = .ready (some (.ok (head, len, wants))) ∧
      c'.state.reading = headReading len wants.expect ∧ c'.state.writing = c.state.writing ∧
      ∃ ctx buf rest msg, T.parse ctx buf = (.ok (some msg), rest) ∧ msg.decode = len) := by
  unfold poll_read_head at h
  split at h
  · obtain ⟨rfl, rfl⟩ := Prod.mk.inj (Option.some.inj h)
    exact .inl ⟨rfl, rfl⟩
  · exact .inr (.inl (on_read_head_error_cases T h))
  · rename_i msg io hparse
    obtain ⟨buf, rest, hp⟩ := parseLoop_ok _ hparse
    have hfrom : ∃ ctx buf rest msg', T.parse ctx buf = (.ok (some msg'), rest) ∧ msg'.decode = msg.decode :=
      ⟨_, buf, rest, msg, hp, rfl⟩
    dsimp only at h
    split_ifs at h with hz hsrf
    · simp [hT] at hsrf
    · -- no body: a role that reads first does not go idle here
      obtain ⟨rfl, rfl⟩ := Prod.mk.inj (Option.some.inj h)
      exact .inr (.inr ⟨_, _, _, rfl, by simp [headReading, hz], by simp, hfrom⟩)
    · obtain ⟨rfl, rfl⟩ := Prod.mk.inj (Option.some.inj h)
      exact .inr (.inr ⟨_, _, _, rfl, by simp [headReading, hz], by simp, hfrom⟩)
    · obtain ⟨rfl, rfl⟩ := Prod.mk.inj (Option.some.inj h)
      exact .inr (.inr ⟨_, _, _, rfl, by simp [headReading, hz], by simp, hfrom⟩)

omit [Buf B] in
/-- What one read of a body does: the state before the last `try_keep_alive`, with the write side
as it was, and the read side on in the body, at its end, or closed. -/
theorem readBody_cases (c : Conn B) (d : Decoder) :
    ∃ c1 : Conn B, c1.state.writing = c.state.writing ∧
      ((readBody T c d).2 = c1 ∨ (readBody T c d).2 = c1.try_keep_alive T) ∧
      (((readBody T c d).1 = .pending ∧ ∃ d', c1.state.reading = .Body d' ∧ d.Follows d' 0) ∨
       (∃ slice, (readBody T c d).1 = .ready (some (.ok slice)) ∧ ∃ d', d.Follows d' slice.length ∧
          (c1.state.reading = .Body d' ∨ (c1.state.reading = .KeepAlive ∧ d'.is_eof = true))) ∨
       ((readBody T c d).1 = .ready none ∧ (c1.state.reading = .KeepAlive ∨ c1.state.reading = .Closed)) ∨
       (∃ e, (readBody T c d).1 = .ready (some (.error e)) ∧ c1.state.reading = .Closed)) := by
  have hf := Decoder.decode_follows 64 d (Buffered.readsAtMost c.io)
  unfold readBody
  rcases hdec : Decoder.decode 64 d c.io with ⟨res, d', io⟩
  rw [hdec] at hf
  rcases res with (e | slice) | _
  · refine ⟨_, ?_, .inr rfl, .inr (.inr (.inr ⟨e, rfl, rfl⟩))⟩
    rfl
  · dsimp only
    have hfs := hf.2 slice rfl
    split_ifs with heof hs hempty
    · -- the decoder is at its end: the last slice, and the read side done
      refine ⟨_, ?_, .inr rfl, .inr (.inl ⟨slice, rfl, d', hfs, .inr ⟨rfl, heof⟩⟩)⟩
      rfl
    · refine ⟨_, ?_, .inr rfl, .inr (.inr (.inl ⟨rfl, .inl rfl⟩))⟩
      rfl
    · -- an empty slice before the end: the stream ended
      refine ⟨_, ?_, .inr rfl, .inr (.inr (.inl ⟨rfl, .inr rfl⟩))⟩
      rfl
    · refine ⟨_, ?_, .inl rfl, .inr (.inl ⟨slice, rfl, d', hfs, .inl rfl⟩)⟩
      rfl
  · refine ⟨_, ?_, .inl rfl, .inl ⟨rfl, d', rfl, hf.1 rfl⟩⟩
    rfl

omit [Buf B] in
/-- `poll_read_body` in a body is one read of it, after the `100 Continue` when one is owed. -/
theorem poll_read_body_cases {c c' : Conn B} {d : Decoder}
    {r : Poll (Option (Except IoError (List UInt8)))}
    (hd : c.state.reading = .Body d ∨ c.state.reading = .Continue d) (h : c.poll_read_body T = some (r, c')) :
    ∃ c1 : Conn B, c1.state.writing = c.state.writing ∧ (c' = c1 ∨ c' = c1.try_keep_alive T) ∧
      ((r = .pending ∧ ∃ d', c1.state.reading = .Body d' ∧ d.Follows d' 0) ∨
       (∃ slice, r = .ready (some (.ok slice)) ∧ ∃ d', d.Follows d' slice.length ∧
          (c1.state.reading = .Body d' ∨ (c1.state.reading = .KeepAlive ∧ d'.is_eof = true))) ∨
       (r = .ready none ∧ (c1.state.reading = .KeepAlive ∨ c1.state.reading = .Closed)) ∨
       (∃ e, r = .ready (some (.error e)) ∧ c1.state.reading = .Closed)) := by
  rcases hd with hd | hd
  · have hc : c.poll_read_body T = some (readBody T c d) := by simp only [poll_read_body, hd]
    rw [hc] at h
    obtain ⟨rfl, rfl⟩ := Prod.mk.inj (Option.some.inj h)
    exact readBody_cases T c d
  · -- the read side leaves the wait for the `100 Continue` first, the write side as it was
    have hc : c.poll_read_body T = some (readBody T
        { io := if c.state.writing = .Init then c.io.headers_buf CONTINUE else c.io,
          state := { c.state with reading := .Body d } } d) := by
      simp only [poll_read_body, hd]
    rw [hc] at h
    obtain ⟨rfl, rfl⟩ := Prod.mk.inj (Option.some.inj h)
    exact readBody_cases T
      { io := if c.state.writing = .Init then c.io.headers_buf CONTINUE else c.io,
        state := { c.state with reading := .Body d } } d

omit [Buf B] in
theorem reading_of_can_read_body {c : Conn B} (h : c.can_read_body = true) :
    ∃ dec, c.state.reading = .Body dec ∨ c.state.reading = .Continue dec := by
  unfold can_read_body at h
  split at h
  · exact ⟨_, .inl ‹_›⟩
  · exact ⟨_, .inr ‹_›⟩
  · cases h

omit [Buf B] in
theorem can_read_body_of_reading {c : Conn B} {dec : Decoder}
    (h : c.state.reading = .Body dec ∨ c.state.reading = .Continue dec) : c.can_read_body = true := by
  unfold can_read_body
  rcases h with h | h <;> rw [h]

omit [Buf B] in
/-- A role that reads first reads a head whenever the read side is at the start of a message. -/
theorem can_read_head_of_init (hT : T.should_read_first = true) {c : Conn B}
    (h : c.state.reading = .Init) : c.can_read_head T = true := by
  unfold can_read_head
  rw [h]
  simp [hT]

omit [Buf B] in
/-- The body a read side is in after a read and the last `try_keep_alive` is the one the read
left it in. -/
theorem reading_body_of_keep_alive {c1 c' : Conn B} {x : Decoder}
    (hc : c' = c1 ∨ c' = c1.try_keep_alive T)
    (hb : c'.state.reading = .Body x ∨ c'.state.reading = .Continue x) :
    c1.state.reading = c'.state.reading := by
  rcases hc with rfl | rfl
  · rfl
  · exact (readStays_try_keep_alive T c1).eq_of_body hb

omit [Buf B] in
theorem can_read_body_keep_alive {c1 c' : Conn B} (hc : c' = c1 ∨ c' = c1.try_keep_alive T)
    (hr : c1.can_read_body = false) : c'.can_read_body = false := by
  cases hcb : c'.can_read_body
  · rfl
  · obtain ⟨x, hx⟩ := reading_of_can_read_body hcb
    have heq := reading_body_of_keep_alive T hc hx
    rw [← heq] at hx
    rw [can_read_body_of_reading hx] at hr
    cases hr

omit [Buf B] in
/-- `poll_drain_or_close_read`: one read of the body, after which the read side is past the body
or closed. -/
theorem poll_drain_or_close_read_cases {c c' : Conn B} (h : c.poll_drain_or_close_read T = some c') :
    ∃ r c1, c.poll_read_body T = some (r, c1) ∧
      ((c' = c1 ∧ (c1.state.reading = .Init ∨ c1.state.reading = .KeepAlive)) ∨ c' = c1.close_read) := by
  unfold poll_drain_or_close_read at h
  obtain ⟨⟨r, c1⟩, h1, rfl⟩ := Option.map_eq_some_iff.mp h
  refine ⟨r, c1, h1, ?_⟩
  dsimp only
  split
  · exact .inl ⟨rfl, .inl ‹_›⟩
  · exact .inl ⟨rfl, .inr ‹_›⟩
  · exact .inr rfl

omit [Buf B] in
theorem writing_of_can_write_body {c : Conn B} (h : c.can_write_body = true) :
    ∃ enc, c.state.writing = .Body enc := by
  unfold can_write_body at h
  split at h
  · exact ⟨_, ‹_›⟩
  · cases h

omit [Buf B] in
/-- `take_error` clears the error and nothing else of the state. -/
theorem take_error_sides (c : Conn B) :
    c.take_error.2.state.reading = c.state.reading ∧ c.take_error.2.state.writing = c.state.writing := by
  unfold take_error
  split <;> exact ⟨rfl, rfl⟩

omit [Buf B] in
/-- `poll_read_body` reaches its `unreachable!` only outside a body. -/
theorem poll_read_body_isSome {c : Conn B} (h : c.can_read_body = true) : (c.poll_read_body T).isSome := by
  obtain ⟨dec, hd | hd⟩ := reading_of_can_read_body h <;> simp [poll_read_body, hd]

omit [Buf B] in
/-- A read of a body keeps the service's future where it stands. -/
theorem pipelined_poll_read_body {c c' : Conn B} {d : Decoder}
    {r : Poll (Option (Except IoError (List UInt8)))} {f : Bool}
    (hd : c.state.reading = .Body d ∨ c.state.reading = .Continue d) (h : c.poll_read_body T = some (r, c'))
    (hp : Pipelined c.state f) : Pipelined c'.state f := by
  obtain ⟨c1, hw, hc, hcases⟩ := poll_read_body_cases T hd h
  -- after the read, the read side is in the body, past it or closed: not at the next message
  have hr1 : c1.state.reading ≠ .Init := by
    rcases hcases with ⟨-, d', hr, -⟩ | ⟨-, -, d', -, hr | ⟨hr, -⟩⟩ | ⟨-, hr | hr⟩ | ⟨-, -, hr⟩ <;>
      rw [hr] <;> simp
  have h1 : Pipelined c1.state f := ⟨fun hi ↦ absurd hi hr1, fun hf ↦ ⟨hr1, hw ▸ (hp.busy hf).2⟩⟩
  rcases hc with rfl | rfl
  · exact h1
  · exact pipelined_try_keep_alive T h1

omit [Buf B] in
theorem pipelined_poll_read_keep_alive {c : Conn B} {f : Bool} (hr : c.state.reading ≠ .Init)
    (h : Pipelined c.state f) : Pipelined (c.poll_read_keep_alive T).2.state f := by
  obtain ⟨hr', hw'⟩ := poll_read_keep_alive_sides T c
  have hne : (c.poll_read_keep_alive T).2.state.reading ≠ .Init := by
    rcases hr' with hr' | hr' <;> rw [hr']
    · exact hr
    · simp
  refine ⟨fun hi ↦ absurd hi hne, fun hf ↦ ⟨hne, ?_⟩⟩
  rcases hw' with hw' | hw'
  · rw [hw']
    exact (h.busy hf).2
  · exact .inr hw'

omit [Buf B] in
theorem readStays_poll_read_keep_alive (c : Conn B) :
    ReadStays c.state.reading (c.poll_read_keep_alive T).2.state.reading := by
  rcases (poll_read_keep_alive_sides T c).1 with hr | hr
  · exact .inl hr
  · exact .inr (.inl hr)

variable [LawfulBuf B]

/-- A flush leaves the state as it was, and a finished one may then let the connection go idle. -/
theorem poll_flush_state (c : Conn B) :
    ∃ c1 : Conn B, c1.state = c.state ∧ ((c.poll_flush T).2 = c1 ∨ (c.poll_flush T).2 = c1.try_keep_alive T) := by
  unfold poll_flush
  split
  · rename_i io _
    exact ⟨{ c with io }, rfl, .inr rfl⟩
  · rename_i io _ _
    exact ⟨{ c with io }, rfl, .inl rfl⟩

theorem pipelined_poll_flush {c : Conn B} {f : Bool} (h : Pipelined c.state f) :
    Pipelined (c.poll_flush T).2.state f := by
  obtain ⟨c1, hs, hc | hc⟩ := poll_flush_state T c <;> rw [hc]
  · exact h.congr (by rw [hs]) (by rw [hs])
  · exact pipelined_try_keep_alive T (h.congr (by rw [hs]) (by rw [hs]))

theorem readStays_poll_flush (c : Conn B) : ReadStays c.state.reading (c.poll_flush T).2.state.reading := by
  obtain ⟨c1, hs, hc | hc⟩ := poll_flush_state T c <;> rw [hc]
  · rw [hs]
    exact .refl _
  · have := readStays_try_keep_alive T c1
    rwa [hs] at this

end Conn

/-! ## What the server's calls do not panic on -/

namespace Server

/-- The status line is written for every version but HTTP/0.9 and HTTP/3, on which
`Server::encode` panics; an HTTP/2 one is written as HTTP/1.1. -/
theorem statusLine_isSome (canonical_reason : StatusCode → Option (List UInt8))
    {head : MessageHead StatusCode} (hv : head.version ≠ .HTTP_09 ∧ head.version ≠ .HTTP_3) :
    (statusLine canonical_reason head).isSome := by
  unfold statusLine
  split_ifs
  · rfl
  · obtain ⟨h09, h3⟩ := hv
    cases hver : head.version <;> simp_all [Client.versionBytes]

/-- `Server::encode` panics only on those two versions: the bare `500` that replaces a `1xx` is an
HTTP/1.1 one. -/
theorem encode_isSome (ctx : EncodeCtx) (canonical_reason : StatusCode → Option (List UInt8))
    (date : List UInt8) {head : MessageHead StatusCode} (body : Option BodyLength)
    (hv : head.version ≠ .HTTP_09 ∧ head.version ≠ .HTTP_3) :
    (encode ctx canonical_reason date head body).isSome := by
  unfold encode
  dsimp only
  split_ifs <;> rw [Option.isSome_map]
  · exact statusLine_isSome canonical_reason hv
  · exact statusLine_isSome canonical_reason hv
  · exact statusLine_isSome canonical_reason ⟨by simp, by simp⟩
  · exact statusLine_isSome canonical_reason hv

end Server

namespace Conn

variable {B : Type} [Buf B] (parser : RequestParser) (uri_parse : UriParser)
  (canonical_reason : StatusCode → Option (List UInt8)) (date : List UInt8)

omit [Buf B] in
/-- `enforce_version` leaves the version of the head, or makes it HTTP/1.0. -/
theorem enforce_version_keeps {Out : Type} (s : State) {head : MessageHead Out}
    (hv : head.version ≠ .HTTP_09 ∧ head.version ≠ .HTTP_3) :
    (enforce_version s head).2.version ≠ .HTTP_09 ∧ (enforce_version s head).2.version ≠ .HTTP_3 := by
  unfold enforce_version
  split_ifs
  · exact ⟨by simp, by simp⟩
  · exact hv

omit [Buf B] in
/-- The server encodes every head whose version is not HTTP/0.9 or HTTP/3. -/
theorem server_encode_head_isSome (c : Conn B) {head : MessageHead StatusCode}
    (hv : head.version ≠ .HTTP_09 ∧ head.version ≠ .HTTP_3) (body : Option BodyLength) :
    (c.encode_head (Transaction.server parser uri_parse canonical_reason date) head body).isSome := by
  unfold encode_head
  rw [Option.isSome_map]
  exact Server.encode_isSome _ canonical_reason date body (enforce_version_keeps _ hv)

omit [Buf B] in
theorem server_write_head_isSome (c : Conn B) {head : MessageHead StatusCode}
    (hv : head.version ≠ .HTTP_09 ∧ head.version ≠ .HTTP_3) (body : Option BodyLength) :
    (c.write_head (Transaction.server parser uri_parse canonical_reason date) head body).isSome := by
  unfold write_head
  rw [Option.isSome_map]
  exact server_encode_head_isSome parser uri_parse canonical_reason date c hv body

theorem server_write_full_msg_isSome (c : Conn B) {head : MessageHead StatusCode}
    (hv : head.version ≠ .HTTP_09 ∧ head.version ≠ .HTTP_3) (body : B) :
    (c.write_full_msg (Transaction.server parser uri_parse canonical_reason date) head body).isSome := by
  unfold write_full_msg
  rw [Option.isSome_map]
  exact server_encode_head_isSome parser uri_parse canonical_reason date c hv _

/-- A body is written whenever the connection writes one (the guard `can_write_body`). -/
theorem write_body_isSome {c : Conn B} (hw : c.can_write_body = true) (chunk : B) :
    (c.write_body chunk).isSome := by
  unfold can_write_body at hw
  unfold write_body
  split at hw <;> simp_all

theorem write_body_and_end_isSome {c : Conn B} (hw : c.can_write_body = true) (chunk : B) :
    (c.write_body_and_end chunk).isSome := by
  unfold can_write_body at hw
  unfold write_body_and_end
  split at hw <;> simp_all

omit [Buf B] in
/-- `Conn::on_parse_error` of the server answers with a `4xx` it can write. -/
theorem server_on_parse_error_isSome (c : Conn B) (e : Error) :
    (c.on_parse_error (Transaction.server parser uri_parse canonical_reason date) e).isSome := by
  unfold on_parse_error
  split
  · split_ifs
    · rfl
    · rcases hon : (Transaction.server parser uri_parse canonical_reason date).on_error e with _ | msg
      · rfl
      · -- every head `Server::on_error` gives is a bare HTTP/1.1 status
        have hv : msg.version = .HTTP_11 := by
          simp only [Transaction.server] at hon
          unfold Transaction.server_on_error at hon
          split at hon <;> cases hon <;> rfl
        simp only [Option.isSome_map]
        exact server_write_head_isSome parser uri_parse canonical_reason date c ⟨by simp [hv], by simp [hv]⟩ none
  · rfl

omit [Buf B] in
/-- `Conn::poll_read_head` of the server does not panic. -/
theorem server_poll_read_head_isSome (c : Conn B) :
    (c.poll_read_head (Transaction.server parser uri_parse canonical_reason date)).isSome := by
  unfold poll_read_head
  split
  · rfl
  · unfold on_read_head_error
    dsimp only
    split_ifs
    · rw [Option.isSome_map]
      exact server_on_parse_error_isSome parser uri_parse canonical_reason date _ _
    · rfl
  · dsimp only
    split_ifs <;> rfl

end Conn

end Hyper.H1
