import Hyper.H1.DispatcherRuns
import Hyper.H1.Role.KeepAlive

/-!
# What a server connection keeps over every run

`Hyper.H1.DispatcherRuns` proves that every step of a server dispatcher keeps `Dispatcher.Inv`.
This file says what that means for the program.  A state is `Reachable` when some run of steps
leads to it from a new connection, whatever the service, the transport and the readers of the
request bodies answer, and in whatever order the dispatcher's rounds and the readers' polls come;
every call of the dispatcher's `poll` is such a run (`Reachable.poll_inner`).

For any role, `dispatcher_runs_lifecycle` says that each step moves the connection along the
lifecycle of `Hyper.H1.Lifecycle`, so what is closed stays closed, and
`dispatcher_disabled_reads_no_head` that once keep-alive is disabled mid-message no other request
head is read.  For the server role with any parser, in every reachable state:

* `server_one_request_at_a_time` — the next request's head is read only once the last response
  is written to its end and the service has no future in flight;
* `server_continue_waits_for_poll` — a body that waits for `100 Continue` has had nothing read
  into it until its reader polls it;
* `server_body_size_hint_exact` — the size hint of a body of known length is exactly what waits in
  its channel plus what the connection has still to read, and it ends exactly when both are zero;
* `server_body_counts_down` — every chunk a body hands out is within the length it reports, so the
  length goes down by exactly the chunk and never wraps;
* `server_body_delivers` — every message the dispatcher sends into a body that is still there is
  taken by the channel, and reaches the reader in order;
* `server_body_counts_declared` — what the reader of a body of known length received and what the
  body still reports add up to the declared length, and no more than it was sent;
* `server_one_open_sender` — the dispatcher holds the sender of one body at most, and every other
  body it made has lost its sender;
* `server_read_round_isSome` — a round of `poll_read` that reads no head never panics, and it
  watches for the next request only when no body is being read, as the `debug_assert!` of
  `Conn::poll_read_keep_alive` requires.

And from any state, `server_write_round_isSome`: a round of `poll_write` panics only when the
service answers with a head of HTTP/0.9 or HTTP/3.

The witnesses run a server through a transport that hands out the head of a request with a body
of five bytes, then the first two bytes of that body.
-/

set_option autoImplicit false

namespace Hyper.H1

open Body Relation

namespace Dispatcher

variable {B : Type} [Buf B] [LawfulBuf B] (T : Transaction RequestLine StatusCode)

/-- A state that a dispatcher reaches from a new connection. -/
def Reachable (d : Dispatcher B) : Prop :=
  ∃ io strategy, ReflTransGen (Step T) (Dispatcher.new (Conn.new io strategy)) d

variable {T} {d d' : Dispatcher B}

theorem Reachable.step (h : Reachable T d) (hs : Step T d d') : Reachable T d' := by
  obtain ⟨io, strategy, hrun⟩ := h
  exact ⟨io, strategy, hrun.tail hs⟩

/-- The dispatcher's `poll`, whatever the world answers, goes from a reachable state to one. -/
theorem Reachable.poll_inner {ps : List (Pass B)} {shutdown : Poll (Except IoError Unit)}
    {r : Poll (Except DispatchError Unit)} (h : Reachable T d)
    (hp : Dispatcher.poll_inner T ps shutdown d = some (r, d')) : Reachable T d' := by
  obtain ⟨io, strategy, hrun⟩ := h
  exact ⟨io, strategy, hrun.trans (poll_inner_run T hp)⟩

theorem Reachable.inv (hT : T.Serves) (h : Reachable T d) : Inv d := by
  obtain ⟨io, strategy, hrun⟩ := h
  exact inv_reachable T hT hrun

/-! ## A run that reads a request's body -/

/-- The head of a request with a body of five bytes, as a parser that takes it from whatever comes
first sees it; with `expect`, the request asks for `100-continue`. -/
def fiveParser (expect : Bool) : RequestParser :=
  linesParser 1 (⟨ascii "content-length", ascii "5"⟩ ::
    if expect then [⟨ascii "expect", ascii "100-continue"⟩] else [])

/-- The server with that parser. -/
def fiveServer (expect : Bool) : Transaction RequestLine StatusCode :=
  .server (fiveParser expect) (fun path ↦ some ⟨path⟩) (fun _ ↦ none) []

/-- A connection whose transport hands out one byte, then two, then waits. -/
def fiveConn : Conn (List UInt8) := Conn.new ⟨ascii "xhel", [.upTo 0, .upTo 1, .pending], [], []⟩ .Flatten

/-- A service that is ready, and readers that stay. -/
def readyWorld : ReadWorld := ⟨[], .ready (.ok ()), false⟩

/-- The channel of the body after its first two bytes were sent. -/
def fiveChannel : Channel :=
  { new_channel ⟨5⟩ false with
    queue := [.ok (ascii "he")], parked := true, sent := [.ok (ascii "he")] }

/-- One round reads the head and calls the service; with `100-continue` the body waits for its
first poll. -/
theorem fiveServer_reads_head (expect : Bool) :
    ∃ d : Dispatcher (List UInt8), Reachable (fiveServer expect) d ∧ d.body_tx = some 0 ∧
      d.chans[0]? = some (new_channel ⟨5⟩ expect) ∧
      d.conn.state.reading = (if expect then .Continue ⟨.Length 5⟩ else .Body ⟨.Length 5⟩) ∧
      d.in_flight = true := by
  have hrun : (poll_read_round (fiveServer expect) (Dispatcher.new fiveConn) readyWorld).map
      (fun p ↦ (p.2.body_tx, p.2.chans[0]?, p.2.conn.state.reading, p.2.in_flight)) =
      some (some 0, some (new_channel ⟨5⟩ expect),
        if expect then .Continue ⟨.Length 5⟩ else .Body ⟨.Length 5⟩, true) := by
    cases expect <;> decide +kernel
  obtain ⟨⟨r1, d1⟩, h1, hfacts⟩ := Option.map_eq_some_iff.mp hrun
  simp only [Prod.mk.injEq] at hfacts
  exact ⟨d1, ⟨_, _, .single (.read h1)⟩, hfacts⟩

/-- A second round sends the first two bytes of the body. -/
theorem fiveServer_reads_chunk :
    ∃ d : Dispatcher (List UInt8), Reachable (fiveServer false) d ∧ d.body_tx = some 0 ∧ d.chans[0]? = some fiveChannel ∧
      d.conn.state.reading = .Body ⟨.Length 3⟩ ∧ d.conn.can_read_head (fiveServer false) = false := by
  have hrun : ((poll_read_round (fiveServer false) (Dispatcher.new fiveConn) readyWorld).bind
      fun p ↦ poll_read_round (fiveServer false) p.2 readyWorld).map
        (fun p ↦ (p.2.body_tx, p.2.chans[0]?, p.2.conn.state.reading,
          p.2.conn.can_read_head (fiveServer false))) =
      some (some 0, some fiveChannel, .Body ⟨.Length 3⟩, false) := by
    decide +kernel
  obtain ⟨⟨r2, d2⟩, h12, hfacts⟩ := Option.map_eq_some_iff.mp hrun
  obtain ⟨⟨r1, d1⟩, h1, h2⟩ := Option.bind_eq_some_iff.mp h12
  simp only [Prod.mk.injEq] at hfacts
  exact ⟨d2, ⟨_, _, (ReflTransGen.single (.read h1)).tail (.read h2)⟩, hfacts⟩

/-! ## Rounds of `poll_read` that read no head -/

namespace Inv

variable (T)

omit [Buf B] [LawfulBuf B] in
/-- A body being read has its sender held. -/
theorem held_of_can_read_body (h : Inv d) (hb : d.conn.can_read_body = true) : ∃ i, d.body_tx = some i := by
  obtain ⟨dec, hd⟩ := Conn.reading_of_can_read_body hb
  obtain ⟨i, -, hi, -, -⟩ := h.reading dec hd
  exact ⟨i, hi⟩

omit [Buf B] [LawfulBuf B] in
/-- A round of `poll_read` that reads no head does not panic: the held channel is there, its
`want` is one of the three values, and the connection is in the body it reads. -/
theorem read_round_isSome (h : Inv d) (w : ReadWorld) (hg : d.conn.can_read_head T = false) :
    (poll_read_round T d w).isSome := by
  unfold poll_read_round
  by_cases hclose : d.is_closing = true
  · rw [if_pos hclose]
    rfl
  rw [if_neg hclose, hg]
  rcases hbt : d.body_tx with _ | i
  · rfl
  by_cases hb : d.conn.can_read_body = true
  · obtain ⟨ch, hch, -⟩ := h.arena.held i hbt
    simp only [hb, hch, if_true]
    have hready := (h.arena.sound i ch hch).wf.poll_ready_isSome
    have hread := Conn.poll_read_body_isSome T hb
    unfold Dispatcher.read_body
    rcases hpr : Sender.poll_ready ch with _ | ((⟨⟩ | ⟨⟩) | _)
    · rw [hpr] at hready
      cases hready
    · simpa [Conn.poll_drain_or_close_read] using hread
    · simpa using hread
    · rfl
  · simp only [hb]
    rfl

end Inv

/-! ## The connection's lifecycle along a dispatcher's run -/

section Lifecycle

variable (T)

omit [Buf B] [LawfulBuf B] in
theorem moves_close (d : Dispatcher B) : Moves d.conn.state.phase (Dispatcher.close d).conn.state.phase :=
  (State.moves_close_read _).trans (State.moves_close_write _)

omit [Buf B] [LawfulBuf B] in
theorem moves_poll_read_head {ready : Poll (Except Unit Unit)} {r : Poll (Except DispatchError Unit)}
    (hg : d.conn.can_read_head T = true) (h : Dispatcher.poll_read_head T d ready = some (r, d')) :
    Moves d.conn.state.phase d'.conn.state.phase := by
  cases poll_read_head_cases T h with
  | not_ready _ => exact .refl
  | service_gone _ => exact moves_close d
  | pending _ hc | error _ hc => exact Conn.moves_poll_read_head T hg hc
  | head _ hc =>
    -- the new body's channel does not touch the connection
    have hm := Conn.moves_poll_read_head T hg hc
    rw [recv_body_eq]
    split_ifs
    · exact hm
    · simpa using hm
  | @eof c' _ hc =>
    -- the end of the stream closes a connection done writing
    have hm := Conn.moves_poll_read_head T hg hc
    split_ifs
    · exact hm.trans (moves_close { d with conn := c' })
    · exact hm

omit [LawfulBuf B] in
theorem moves_read_body {i : ℕ} {ch : Channel} {gone : Bool} {r : Option (Poll (Except DispatchError Unit))}
    (h : Dispatcher.read_body T d i ch gone = some (r, d')) : Moves d.conn.state.phase d'.conn.state.phase := by
  cases read_body_cases T h with
  | parked _ => exact .refl
  | abandoned _ hc =>
    simp only [drop_body_tx_conn]
    obtain ⟨r0, c1, hc1, ⟨rfl, -⟩ | rfl⟩ := Conn.poll_drain_or_close_read_cases T hc
    · exact Conn.moves_poll_read_body T hc1
    · exact (Conn.moves_poll_read_body T hc1).trans (State.moves_close_read _)
  | pending _ hc | sent _ hc _ => exact Conn.moves_poll_read_body T hc
  | eof _ hc | error _ hc =>
    simp only [drop_body_tx_conn]
    exact Conn.moves_poll_read_body T hc
  | refused _ hc _ =>
    -- a refused chunk closes the read side if the connection is still in the body
    split_ifs
    · exact (Conn.moves_poll_read_body T hc).trans (State.moves_close_read _)
    · simp only [drop_body_tx_conn]
      exact Conn.moves_poll_read_body T hc

omit [LawfulBuf B] in
theorem moves_read_round {w : ReadWorld} {r : Option (Poll (Except DispatchError Unit))}
    (h : poll_read_round T d w = some (r, d')) : Moves d.conn.state.phase d'.conn.state.phase := by
  cases poll_read_round_cases T h with
  | closing _ => exact .refl
  | head_again _ hg h0 | head_done _ hg h0 _ => exact moves_poll_read_head T hg h0
  | keep_alive _ _ _ hka =>
    have := Conn.moves_poll_read_keep_alive T d.conn
    rw [hka] at this
    exact this
  | body _ _ _ _ _ hr => exact moves_read_body T hr
  | ended _ _ _ _ =>
    simp only [drop_body_tx_conn]
    exact .refl

omit [LawfulBuf B] in
theorem moves_write_response {response : Poll (Except Unit (Response B))}
    {r : Option (Poll (Except DispatchError Unit))} (hg : d.conn.can_write_head T = true)
    (h : write_response T d response = some (r, d')) : Moves d.conn.state.phase d'.conn.state.phase := by
  have hw := Conn.writing_of_can_write_head T hg
  cases write_response_cases T h with
  | pending _ | service_error _ => exact .refl
  | full _ _ hc => exact Conn.moves_write_full_msg T hw hc
  | ended _ _ _ hc | streamed _ _ _ hc => exact Conn.moves_write_head T hw hc

omit [LawfulBuf B] in
theorem moves_end_body (d : Dispatcher B) :
    Moves d.conn.state.phase (Dispatcher.end_body d).2.conn.state.phase := by
  have hm := Conn.moves_end_body d.conn
  unfold Dispatcher.end_body
  rcases hend : d.conn.end_body with ⟨_ | ⟨⟩, c'⟩ <;> rw [hend] at hm <;> exact hm

omit [LawfulBuf B] in
theorem moves_write_body {data : Poll (Option (Except Unit B))} {end_stream : Bool}
    {r : Option (Poll (Except DispatchError Unit))} (h : Dispatcher.write_body d data end_stream = some (r, d')) :
    Moves d.conn.state.phase d'.conn.state.phase := by
  cases write_body_cases h with
  | pending _ | error _ | empty _ _ _ => exact .refl
  | last_empty _ _ _ | eof _ => exact moves_end_body { d with body_rx := false }
  | last _ _ _ hc => exact Conn.moves_write_body_and_end hc
  | chunk _ _ _ hc => exact Conn.moves_write_body hc

theorem moves_poll_flush (d : Dispatcher B) :
    Moves d.conn.state.phase (Dispatcher.poll_flush T d).2.conn.state.phase := by
  have hm := Conn.moves_poll_flush T d.conn
  unfold Dispatcher.poll_flush
  rcases hf : d.conn.poll_flush T with ⟨r, c'⟩
  rw [hf] at hm
  exact hm

theorem moves_write_round {w : WriteWorld B} {r : Option (Poll (Except DispatchError Unit))}
    (h : poll_write_round T d w = some (r, d')) : Moves d.conn.state.phase d'.conn.state.phase := by
  cases poll_write_round_cases T h with
  | closing _ | body_gone _ _ _ _ _ | idle _ _ _ _ => exact .refl
  | head _ _ hg _ hr => exact moves_write_response T hg hr
  | @flush_again d1 _ _ _ hf | @flush_done _ d1 _ _ _ hf _ =>
    have hm := moves_poll_flush T d
    rw [hf] at hm
    exact hm
  | body _ _ _ _ _ hr => exact moves_write_body hr

/-- Each step of a dispatcher moves its connection along the lifecycle. -/
theorem Step.moves (hs : Step T d d') : Moves d.conn.state.phase d'.conn.state.phase := by
  cases hs with
  | read h => exact moves_read_round T h
  | write h => exact moves_write_round T h
  | flush => exact moves_poll_flush T d
  | wants_read_again => exact .refl
  | take_error =>
    show Moves d.conn.state.phase d.conn.take_error.2.state.phase
    unfold Conn.take_error
    split <;> exact .refl
  | disable_keep_alive =>
    have hm := Conn.moves_disable_keep_alive d.conn
    unfold Dispatcher.disable_keep_alive
    dsimp only
    split_ifs
    · exact hm.trans (moves_close { d with conn := d.conn.disable_keep_alive })
    · exact hm
  | poll_body => exact .refl
  | drop_body => exact .refl

/-- Every run of a dispatcher is a run of the lifecycle. -/
theorem moves_of_run (hrun : ReflTransGen (Step T) d d') : Moves d.conn.state.phase d'.conn.state.phase := by
  induction hrun with
  | refl => exact .refl
  | tail _ hs ih => exact ih.trans (hs.moves T)

/-- **A dispatcher drives its connection along the keep-alive lifecycle.** Over every run of a
dispatcher, its connection's phase moves by the moves of the lifecycle, so a closed read side or
write side stays closed and keep-alive, once disabled, stays disabled. -/
theorem dispatcher_runs_lifecycle (hrun : ReflTransGen (Step T) d d') :
    Moves d.conn.state.phase d'.conn.state.phase ∧
      (d.conn.state.reading = .Closed → d'.conn.state.reading = .Closed) ∧
      (d.conn.state.writing = .Closed → d'.conn.state.writing = .Closed) ∧
      (d.conn.state.keep_alive = .Disabled → d'.conn.state.keep_alive = .Disabled) := by
  have hm := moves_of_run T hrun
  exact ⟨hm, hm.reading_closed, hm.writing_closed, hm.disabled⟩

theorem dispatcher_runs_lifecycle_after_head :
    ∃ d d' : Dispatcher (List UInt8), ReflTransGen (Step (fiveServer false)) d d' ∧
      Moves d.conn.state.phase d'.conn.state.phase ∧
      (d.conn.state.reading = .Closed → d'.conn.state.reading = .Closed) ∧
      (d.conn.state.writing = .Closed → d'.conn.state.writing = .Closed) ∧
      (d.conn.state.keep_alive = .Disabled → d'.conn.state.keep_alive = .Disabled) := by
  obtain ⟨d', ⟨io, strategy, hrun⟩, -⟩ := fiveServer_reads_head false
  exact ⟨_, d', hrun, dispatcher_runs_lifecycle _ hrun⟩

/-- **No request head after keep-alive is disabled mid-message.** Once keep-alive is disabled
(graceful shutdown does it through `disable_keep_alive`) on a connection past the start of a
message, no run of the dispatcher brings the read side back to the start, so no further request
head is read. -/
theorem dispatcher_disabled_reads_no_head (hrun : ReflTransGen (Step T) d d')
    (hd : d.conn.state.keep_alive = .Disabled) (hr : d.conn.state.reading ≠ .Init) :
    d'.conn.state.reading ≠ .Init ∧ d'.conn.can_read_head T = false := by
  have hr' := (moves_of_run T hrun).disabled_reading_ne_init hd hr
  refine ⟨hr', ?_⟩
  cases hg : d'.conn.can_read_head T
  · rfl
  · exact absurd (Conn.reading_of_can_read_head T hg) hr'

theorem dispatcher_disabled_reads_no_head_after_head :
    ∃ d d' : Dispatcher (List UInt8), ReflTransGen (Step (fiveServer false)) d d' ∧
      d.conn.state.keep_alive = .Disabled ∧ d.conn.state.reading ≠ .Init ∧
      d'.conn.state.reading ≠ .Init ∧ d'.conn.can_read_head (fiveServer false) = false := by
  -- read the head, disable keep-alive, then read the first two bytes of the body
  have hrun : ((poll_read_round (fiveServer false) (Dispatcher.new fiveConn) readyWorld).bind fun p ↦
      (poll_read_round (fiveServer false) (disable_keep_alive p.2) readyWorld).map fun q ↦ (p, q)).map
        (fun x ↦ ((disable_keep_alive x.1.2).conn.state.keep_alive, (disable_keep_alive x.1.2).conn.state.reading)) =
      some (.Disabled, .Body ⟨.Length 5⟩) := by
    decide +kernel
  obtain ⟨⟨⟨r1, d1⟩, ⟨r2, d2⟩⟩, h12, hfacts⟩ := Option.map_eq_some_iff.mp hrun
  obtain ⟨⟨r1', d1'⟩, -, h2⟩ := Option.bind_eq_some_iff.mp h12
  obtain ⟨⟨r2', d2'⟩, hq, hpq⟩ := Option.map_eq_some_iff.mp h2
  obtain ⟨⟨rfl, rfl⟩, ⟨rfl, rfl⟩⟩ := Prod.mk.inj hpq
  simp only [Prod.mk.injEq] at hfacts
  have hne : (disable_keep_alive d1).conn.state.reading ≠ .Init := by
    rw [hfacts.2]
    simp
  have hs : ReflTransGen (Step (fiveServer false)) (disable_keep_alive d1) d2 := .single (.read hq)
  exact ⟨_, _, hs, hfacts.1, hne, dispatcher_disabled_reads_no_head _ hs hfacts.1 hne⟩

end Lifecycle

/-! ## Safety of a server connection -/

section Server

variable (parser : RequestParser) (uri_parse : UriParser)
  (canonical_reason : StatusCode → Option (List UInt8)) (date : List UInt8)

/-- **One request at a time.** Whenever the server may read the next request's head, the response
to the last one is written to its end and the service has no future in flight; while a future is
in flight, its request's head has been read and no response to it begun, unless the write side
is closed. -/
theorem server_one_request_at_a_time
    (h : Reachable (Transaction.server parser uri_parse canonical_reason date) d) :
    (d.conn.can_read_head (Transaction.server parser uri_parse canonical_reason date) = true →
      d.conn.state.writing = .Init ∧ d.in_flight = false) ∧
    (d.in_flight = true → d.conn.state.reading ≠ .Init ∧
      (d.conn.state.writing = .Init ∨ d.conn.state.writing = .Closed)) := by
  have hinv := h.inv (server_serves parser uri_parse canonical_reason date)
  exact ⟨fun hg ↦ hinv.pipelined.idle (Conn.reading_of_can_read_head _ hg), hinv.pipelined.busy⟩

theorem server_one_request_at_a_time_after_head :
    ∃ d : Dispatcher (List UInt8), Reachable (fiveServer false) d ∧ d.in_flight = true ∧ d.conn.state.reading ≠ .Init ∧
      (d.conn.state.writing = .Init ∨ d.conn.state.writing = .Closed) := by
  obtain ⟨d, hreach, -, -, -, hf⟩ := fiveServer_reads_head false
  exact ⟨d, hreach, hf, (server_one_request_at_a_time _ _ _ _ hreach).2 hf⟩

/-- **`100 Continue` waits for the body to be polled.** While the reader of a request body that
asked for `100-continue` has neither polled nor dropped it, its request still waits for the
`100 Continue`, or the read side is closed; and nothing has been sent into such a body, or
received from it. -/
theorem server_continue_waits_for_poll
    (h : Reachable (Transaction.server parser uri_parse canonical_reason date) d) :
    (∀ (i : ℕ) (ch : Channel), d.body_tx = some i → d.chans[i]? = some ch → ch.want = WANT_PENDING →
      (∃ dec, d.conn.state.reading = .Continue dec) ∨ d.conn.state.reading = .Closed) ∧
    (∀ (i : ℕ) (ch : Channel), d.chans[i]? = some ch → ch.want = WANT_PENDING →
      ch.sent = [] ∧ ch.received = [] ∧ ch.queue = []) := by
  have hinv := h.inv (server_serves parser uri_parse canonical_reason date)
  refine ⟨hinv.waiting, fun i ch hch hw ↦ ?_⟩
  have hs := hinv.arena.sound i ch hch
  have hsent := hs.unsent hw
  -- a body still there: what it received and what waits is what was sent
  have hrx : ch.rx_open = true := by
    cases hrx : ch.rx_open
    · have := (hs.wf.closed hrx).2
      rw [hw] at this
      cases this
    · rfl
  have hd := hs.delivers hrx
  rw [hsent, List.append_eq_nil_iff] at hd
  exact ⟨hsent, hd⟩

theorem server_continue_waits_for_poll_after_head :
    ∃ d : Dispatcher (List UInt8), Reachable (fiveServer true) d ∧ d.body_tx = some 0 ∧
      d.chans[0]? = some (new_channel ⟨5⟩ true) ∧ (new_channel ⟨5⟩ true).want = WANT_PENDING ∧
      ((∃ dec, d.conn.state.reading = .Continue dec) ∨ d.conn.state.reading = .Closed) ∧
      (new_channel ⟨5⟩ true).sent = [] := by
  obtain ⟨d, hreach, hi, hch, -, -⟩ := fiveServer_reads_head true
  have hw : (new_channel ⟨5⟩ true).want = WANT_PENDING := rfl
  have hwait := server_continue_waits_for_poll _ _ _ _ hreach
  exact ⟨d, hreach, hi, hch, hw, hwait.1 0 _ hi hch hw, (hwait.2 0 _ hch hw).1⟩

/-- **The size hint of a request body is exact.** While the connection reads a body of known
length into the channel it holds, the body's size hint is what waits in the channel plus what the
connection has still to read, and the body is at its end exactly when both are zero. -/
theorem server_body_size_hint_exact
    (h : Reachable (Transaction.server parser uri_parse canonical_reason date) d)
    {i : ℕ} {ch : Channel} {rem : ℕ} (hi : d.body_tx = some i) (hch : d.chans[i]? = some ch)
    (hr : d.conn.state.reading = .Body ⟨.Length rem⟩ ∨ d.conn.state.reading = .Continue ⟨.Length rem⟩)
    (hrx : ch.rx_open = true) :
    ch.size_hint = SizeHint.with_exact (bytes ch.queue + rem).toUInt64 ∧
      (ch.is_end_stream = true ↔ bytes ch.queue = 0 ∧ rem = 0) := by
  have hinv := h.inv (server_serves parser uri_parse canonical_reason date)
  obtain ⟨j, x, hj, hx, hfr⟩ := hinv.reading _ hr
  rw [hi, Option.some.injEq] at hj
  subst hj
  rw [hch, Option.some.injEq] at hx
  subst hx
  have ho : ch.Owes rem := hfr hrx
  exact ⟨ho.size_hint, ho.is_end_stream_iff⟩

theorem server_body_size_hint_exact_after_chunk :
    ∃ d : Dispatcher (List UInt8), Reachable (fiveServer false) d ∧ d.body_tx = some 0 ∧ d.chans[0]? = some fiveChannel ∧
      d.conn.state.reading = .Body ⟨.Length 3⟩ ∧ fiveChannel.rx_open = true ∧
      fiveChannel.size_hint = SizeHint.with_exact (bytes fiveChannel.queue + 3).toUInt64 ∧
      (fiveChannel.is_end_stream = true ↔ bytes fiveChannel.queue = 0 ∧ 3 = 0) := by
  obtain ⟨d, hreach, hi, hch, hr, -⟩ := fiveServer_reads_chunk
  exact ⟨d, hreach, hi, hch, hr, rfl,
    server_body_size_hint_exact _ _ _ _ hreach hi hch (.inl hr) rfl⟩

/-- **A request body's length counts down exactly.** Every chunk a body of known length hands
out is within the length it reports, so the poll takes exactly the chunk off it and `sub_if`
never wraps. -/
theorem server_body_counts_down
    (h : Reachable (Transaction.server parser uri_parse canonical_reason date) d)
    {i : ℕ} {ch : Channel} {chunk : List UInt8} (hch : d.chans[i]? = some ch) (hrx : ch.rx_open = true)
    (hlen : ch.content_length ≠ DecodedLength.CHUNKED ∧ ch.content_length ≠ DecodedLength.CLOSE_DELIMITED)
    (hpoll : ch.poll_inner.1 = .ready (some (.ok chunk))) :
    chunk.length ≤ ch.content_length.val ∧
      ch.poll_inner.2.content_length = ⟨ch.content_length.val - chunk.length⟩ := by
  have hinv := h.inv (server_serves parser uri_parse canonical_reason date)
  obtain ⟨rest, hq⟩ := Channel.poll_inner_chunk hpoll
  rcases (hinv.arena.sound i ch hch).sized hrx with hl | hl | ⟨owed, ho⟩
  · exact absurd hl hlen.1
  · exact absurd hl hlen.2
  -- the chunk waits in the channel, whose bytes the length owes
  have hle : chunk.length ≤ ch.content_length.val := by
    have := ho.2
    rw [hq, bytes_cons_ok] at this
    omega
  refine ⟨hle, ?_⟩
  rw [Channel.poll_inner_eq, hq]
  exact Channel.sub_if_of_le ho.1 hle

theorem server_body_counts_down_after_chunk :
    ∃ d : Dispatcher (List UInt8), Reachable (fiveServer false) d ∧ d.chans[0]? = some fiveChannel ∧
      fiveChannel.rx_open = true ∧
      (fiveChannel.content_length ≠ DecodedLength.CHUNKED ∧
        fiveChannel.content_length ≠ DecodedLength.CLOSE_DELIMITED) ∧
      fiveChannel.poll_inner.1 = .ready (some (.ok (ascii "he"))) ∧
      (ascii "he").length ≤ fiveChannel.content_length.val ∧
      fiveChannel.poll_inner.2.content_length = ⟨fiveChannel.content_length.val - (ascii "he").length⟩ := by
  obtain ⟨d, hreach, -, hch, -, -⟩ := fiveServer_reads_chunk
  have hlen : fiveChannel.content_length ≠ DecodedLength.CHUNKED ∧
      fiveChannel.content_length ≠ DecodedLength.CLOSE_DELIMITED := by decide
  have hpoll : fiveChannel.poll_inner.1 = .ready (some (.ok (ascii "he"))) := rfl
  exact ⟨d, hreach, hch, rfl, hlen, hpoll, server_body_counts_down _ _ _ _ hreach hch rfl hlen hpoll⟩

/-- **No request body loses a message.** While the reader of a body is there, every message the
dispatcher sent into it was taken by the channel: what the reader received, then what waits, is
what was sent, in order, and at most one message waits, exactly while the sender is parked. -/
theorem server_body_delivers
    (h : Reachable (Transaction.server parser uri_parse canonical_reason date) d)
    {i : ℕ} {ch : Channel} (hch : d.chans[i]? = some ch) (hrx : ch.rx_open = true) :
    ch.received ++ ch.queue = ch.sent ∧ ch.queue.length ≤ 1 ∧ (ch.parked = true ↔ ch.queue ≠ []) := by
  have hs := (h.inv (server_serves parser uri_parse canonical_reason date)).arena.sound i ch hch
  exact ⟨hs.delivers hrx, hs.wf.queue_length, hs.wf.parked_iff⟩

theorem server_body_delivers_after_chunk :
    ∃ d : Dispatcher (List UInt8), Reachable (fiveServer false) d ∧ d.chans[0]? = some fiveChannel ∧ fiveChannel.rx_open = true ∧
      fiveChannel.received ++ fiveChannel.queue = fiveChannel.sent ∧ fiveChannel.queue.length ≤ 1 ∧
      (fiveChannel.parked = true ↔ fiveChannel.queue ≠ []) := by
  obtain ⟨d, hreach, -, hch, -, -⟩ := fiveServer_reads_chunk
  exact ⟨d, hreach, hch, rfl, server_body_delivers _ _ _ _ hreach hch rfl⟩

/-- **A request body of known length hands out exactly its length.** What the reader of a body
has received and the length the body still reports always add up to the length the body was made
with (`Body::new_channel` with the request's `Content-Length`), so the reader's polls take off no
more than they hand out; and while the reader is there, the dispatcher has sent no more bytes into
the body than that length. -/
theorem server_body_counts_declared
    (h : Reachable (Transaction.server parser uri_parse canonical_reason date) d)
    {i : ℕ} {ch : Channel} (hch : d.chans[i]? = some ch)
    (hlen : ch.content_length ≠ DecodedLength.CHUNKED ∧ ch.content_length ≠ DecodedLength.CLOSE_DELIMITED) :
    bytes ch.received + ch.content_length.val = ch.declared ∧
      (ch.rx_open = true → bytes ch.sent ≤ ch.declared) := by
  have hs := (h.inv (server_serves parser uri_parse canonical_reason date)).arena.sound i ch hch
  have hcount := hs.counted hlen.1 hlen.2
  refine ⟨hcount, fun hrx ↦ ?_⟩
  obtain ⟨owed, ho⟩ : ∃ owed, ch.Owes owed := by
    rcases hs.sized hrx with hl | hl | ho
    · exact absurd hl hlen.1
    · exact absurd hl hlen.2
    · exact ho
  -- what was sent was received or waits, and the length still counts what waits
  have hsent : bytes ch.sent = bytes ch.received + bytes ch.queue := by
    rw [← hs.delivers hrx, bytes_append]
  have howed := ho.2
  omega

theorem server_body_counts_declared_after_poll :
    ∃ d : Dispatcher (List UInt8), Reachable (fiveServer false) d ∧
      d.chans[0]? = some fiveChannel.poll_inner.2 ∧
      (fiveChannel.poll_inner.2.content_length ≠ DecodedLength.CHUNKED ∧
        fiveChannel.poll_inner.2.content_length ≠ DecodedLength.CLOSE_DELIMITED) ∧
      bytes fiveChannel.poll_inner.2.received + fiveChannel.poll_inner.2.content_length.val =
        fiveChannel.poll_inner.2.declared ∧
      (fiveChannel.poll_inner.2.rx_open = true → bytes fiveChannel.poll_inner.2.sent ≤ fiveChannel.poll_inner.2.declared) := by
  obtain ⟨d, hreach, -, hch, -, -⟩ := fiveServer_reads_chunk
  -- the body's reader polls it and takes the two bytes
  have hreach' := hreach.step (.poll_body hch rfl)
  have hlt : 0 < d.chans.length := (List.getElem?_eq_some_iff.mp hch).1
  have hch' : (d.chans.set 0 fiveChannel.poll_inner.2)[0]? = some fiveChannel.poll_inner.2 :=
    List.getElem?_set_self hlt
  have hlen : fiveChannel.poll_inner.2.content_length ≠ DecodedLength.CHUNKED ∧
      fiveChannel.poll_inner.2.content_length ≠ DecodedLength.CLOSE_DELIMITED := by decide
  exact ⟨_, hreach', hch', hlen, server_body_counts_declared _ _ _ _ hreach' hch' hlen⟩

/-- **One open sender.** The bodies whose sender is still open are exactly the one whose sender
the dispatcher holds: the body of every earlier request has lost its sender, so its reader sees
the end of it once the channel is empty. -/
theorem server_one_open_sender
    (h : Reachable (Transaction.server parser uri_parse canonical_reason date) d) (j : ℕ) :
    (∃ ch : Channel, d.chans[j]? = some ch ∧ ch.tx_open = true) ↔ d.body_tx = some j := by
  have ha := (h.inv (server_serves parser uri_parse canonical_reason date)).arena
  constructor
  · rintro ⟨ch, hch, htx⟩
    exact ha.senders j ch hch htx
  · exact ha.held j

theorem server_one_open_sender_after_head :
    ∃ d : Dispatcher (List UInt8), Reachable (fiveServer false) d ∧
      ((∃ ch : Channel, d.chans[0]? = some ch ∧ ch.tx_open = true) ↔ d.body_tx = some 0) ∧
      d.body_tx = some 0 := by
  obtain ⟨d, hreach, hi, -, -, -⟩ := fiveServer_reads_head false
  exact ⟨d, hreach, server_one_open_sender _ _ _ _ hreach 0, hi⟩

/-- **A read round that reads no head does not panic**, and it watches for the next request only
when no body is being read, as the `debug_assert!` of `Conn::poll_read_keep_alive` requires. -/
theorem server_read_round_isSome
    (h : Reachable (Transaction.server parser uri_parse canonical_reason date) d) (w : ReadWorld)
    (hg : d.conn.can_read_head (Transaction.server parser uri_parse canonical_reason date) = false) :
    (poll_read_round (Transaction.server parser uri_parse canonical_reason date) d w).isSome ∧
      (d.body_tx = none → d.conn.can_read_body = false) := by
  have hinv := h.inv (server_serves parser uri_parse canonical_reason date)
  refine ⟨hinv.read_round_isSome _ w hg, fun hn ↦ ?_⟩
  cases hb : d.conn.can_read_body
  · rfl
  · obtain ⟨i, hi⟩ := hinv.held_of_can_read_body hb
    rw [hn] at hi
    cases hi

theorem server_read_round_isSome_after_chunk :
    ∃ d : Dispatcher (List UInt8), Reachable (fiveServer false) d ∧ d.conn.can_read_head (fiveServer false) = false ∧
      (poll_read_round (fiveServer false) d readyWorld).isSome ∧
      (d.body_tx = none → d.conn.can_read_body = false) := by
  obtain ⟨d, hreach, -, -, -, hg⟩ := fiveServer_reads_chunk
  exact ⟨d, hreach, hg, server_read_round_isSome _ _ _ _ hreach readyWorld hg⟩

omit [LawfulBuf B] in
/-- The head arm of a write round panics only on a head that `Server::encode` cannot write. -/
theorem server_write_response_isSome (d : Dispatcher B) (response : Poll (Except Unit (Response B)))
    (hv : ∀ res, response = .ready (.ok res) → res.head.version ≠ .HTTP_09 ∧ res.head.version ≠ .HTTP_3) :
    (write_response (Transaction.server parser uri_parse canonical_reason date) d response).isSome := by
  unfold write_response
  rcases response with (_ | res) | _
  · rfl
  · have hver := hv res rfl
    dsimp only
    split
    · rw [Option.isSome_map]
      exact Conn.server_write_full_msg_isSome parser uri_parse canonical_reason date _ hver _
    · split_ifs <;> rw [Option.isSome_map] <;>
        exact Conn.server_write_head_isSome parser uri_parse canonical_reason date _ hver _
  · rfl

omit [LawfulBuf B] in
/-- The body arm of a write round does not panic while the connection is writing a body. -/
theorem write_body_isSome {d : Dispatcher B} (hw : d.conn.can_write_body = true)
    (data : Poll (Option (Except Unit B))) (end_stream : Bool) : (write_body d data end_stream).isSome := by
  unfold write_body
  split
  · rfl
  · rfl
  · split_ifs
    · rfl
    · rw [Option.isSome_map]
      exact Conn.write_body_and_end_isSome hw _
    · rfl
    · rw [Option.isSome_map]
      exact Conn.write_body_isSome hw _
  · rfl

/-- **A write round panics only on a response of HTTP/0.9 or HTTP/3.** Whatever state the
dispatcher is in and whatever the response body hands out, a round of `poll_write` returns unless
the service answers with a head of one of those two versions, on which `Server::encode` panics
("unexpected response version"). -/
theorem server_write_round_isSome (d : Dispatcher B) (w : WriteWorld B)
    (hv : ∀ res, w.response = .ready (.ok res) → res.head.version ≠ .HTTP_09 ∧ res.head.version ≠ .HTTP_3) :
    (poll_write_round (Transaction.server parser uri_parse canonical_reason date) d w).isSome := by
  unfold poll_write_round
  by_cases hclose : d.is_closing = true
  · rw [if_pos hclose]
    rfl
  rw [if_neg hclose]
  by_cases hhead : (!d.body_rx && d.conn.can_write_head (Transaction.server parser uri_parse canonical_reason date)
      && d.in_flight) = true
  · -- the head arm: only the encoding of the response head can panic
    rw [if_pos hhead]
    exact server_write_response_isSome parser uri_parse canonical_reason date d w.response hv
  rw [if_neg hhead]
  by_cases hbuf : (!d.conn.can_buffer_body) = true
  · rw [if_pos hbuf]
    split <;> rfl
  rw [if_neg hbuf]
  by_cases hrx : d.body_rx = true
  · rw [if_pos hrx]
    by_cases hcw : (!d.conn.can_write_body) = true
    · rw [if_pos hcw]
      rfl
    -- the body arm: the connection is writing a body, so its writes do not panic
    rw [if_neg hcw]
    exact write_body_isSome (by simpa using hcw) w.data w.end_stream
  · rw [if_neg hrx]
    rfl

theorem server_write_round_isSome_first_response :
    (∀ res, (⟨.ready (.ok ⟨⟨.HTTP_11, StatusCode.OK, MultiMap.empty⟩, some (ascii "hi"), false, none⟩),
        .pending, false⟩ : WriteWorld (List UInt8)).response = .ready (.ok res) →
      res.head.version ≠ .HTTP_09 ∧ res.head.version ≠ .HTTP_3) ∧
    (poll_write_round (fiveServer false) { Dispatcher.new fiveConn with in_flight := true }
      ⟨.ready (.ok ⟨⟨.HTTP_11, StatusCode.OK, MultiMap.empty⟩, some (ascii "hi"), false, none⟩),
        .pending, false⟩).isSome := by
  have hv : ∀ res, (⟨.ready (.ok ⟨⟨.HTTP_11, StatusCode.OK, MultiMap.empty⟩, some (ascii "hi"), false, none⟩),
      .pending, false⟩ : WriteWorld (List UInt8)).response = .ready (.ok res) →
      res.head.version ≠ .HTTP_09 ∧ res.head.version ≠ .HTTP_3 := by
    intro res hres
    cases hres
    exact ⟨by decide, by decide⟩
  exact ⟨hv, server_write_round_isSome _ _ _ _ _ _ hv⟩

/-- The hypothesis is needed: a service that answers a request with an HTTP/3 head makes the
round panic. -/
example : (poll_write_round (fiveServer false) { Dispatcher.new fiveConn with in_flight := true }
    ⟨.ready (.ok ⟨⟨.HTTP_3, StatusCode.OK, MultiMap.empty⟩, some (ascii "hi"), false, none⟩),
      .pending, false⟩).isNone := by
  decide +kernel

end Server

end Dispatcher

end Hyper.H1
