import Hyper.H1.HeaderTimeout
import Hyper.H1.Conn
import Hyper.Body.Channel

/-!
# The dispatcher of a server connection (`proto/h1/dispatch.rs`)

`Dispatcher` drives one `Conn` for a service.  `poll_read` reads a request head, makes the body
the service will read (`Body::new_channel`, which keeps the `Sender` in `body_tx`) and calls the
service; while the connection has body bytes for it, it forwards them through the sender, but
only once the sender's `poll_ready` says the body wants them.  `poll_write` takes the service's
response when its future resolves and writes its head and its body.  `poll_loop` runs the two
and a flush, at most 16 times in a row.  With `Server` as its `Dispatch`, the service has one
future at a time, `in_flight`, and `poll_ready` holds back the next head while it runs.

The service, its futures and the bodies of its responses belong to the world, and so does the
peer behind each request body: what they answer at a poll is an argument of the round that
polls them (`ReadWorld`, `WriteWorld`).  The body of a request lives on after the dispatcher
hands it over, so the dispatcher keeps every channel it made in `chans`, in the order it made
them, and names the one it holds the sender of by its place there.  The reader of a body runs in
a task of its own: between two rounds of `poll_read` it may poll its body, which takes the chunk
waiting there and lets the parked sender go on, or drop it (`ReadWorld.readers`, `reader_act`);
and its receiver may go away between the sender's `poll_ready` and its send
(`ReadWorld.receiver_gone`).

Each round of a loop is a function of the dispatcher (`poll_read_round`, `poll_write_round`),
`none` for a panic (`unreachable!`, or a role that panics); the loops run rounds with their
answers until one returns (`poll_read`, `poll_write`, `poll_loop`, `poll_inner`).  `Step` is
one round, or one thing a body's reader does (poll the body, or drop it); every run of the loops
is a run of steps (`poll_inner_run`).

The upgrade a request may ask for (`on_upgrade`), the date cache and `poll_without_shutdown` are
left out, and so is the request head handed to the service, which nothing here reads again.
-/

set_option autoImplicit false

namespace Hyper.H1

open Body

/-! ## What the connection adds for the dispatcher -/

namespace Conn

variable {B : Type} [Buf B] {In Out : Type} (T : Transaction In Out)

/-- `Conn::poll_drain_or_close_read`: read what the body has ready, and stop reading unless that
finished it; `none` is the `unreachable!` of `poll_read_body` outside a body. -/
def poll_drain_or_close_read (c : Conn B) : Option (Conn B) :=
  (c.poll_read_body T).map fun (_, c) ↦
    match c.state.reading with
    | .Init | .KeepAlive => c
    | _ => c.close_read

/-- `Conn::wants_read_again`: the flag, which the call clears. -/
def wants_read_again (c : Conn B) : Bool × Conn B :=
  (c.state.notify_read, { c with state := { c.state with notify_read := false } })

/-- `Conn::take_error`. -/
def take_error (c : Conn B) : Except Error Unit × Conn B :=
  match c.state.error with
  | some e => (.error e, { c with state := { c.state with error := none } })
  | none => (.ok (), c)

end Conn

/-! ## The dispatcher -/

/-- The errors a dispatcher ends with: the connection's, and those it makes of the service's, of
the response body's, of a failed write and of a failed shutdown (`Error::new_user_service`,
`new_user_body`, `new_body_write`, `new_shutdown`). -/
inductive DispatchError where
  | Conn (e : Error)
  | UserService
  | UserBody
  | BodyWrite (e : IoError)
  | Shutdown (e : IoError)
  deriving DecidableEq, Repr

/-- `Dispatcher` with `Server` as its `Dispatch`: the connection; whether the service's future is
in flight (`Server::in_flight`); the request body's sender, by its channel (`body_tx`); whether a
response body is being written (`body_rx`); `is_closing`; and the channels of the bodies handed
to the service. -/
structure Dispatcher (B : Type) where
  conn : Conn B
  in_flight : Bool
  body_tx : Option ℕ
  body_rx : Bool
  is_closing : Bool
  chans : List Channel

/-- What the reader of a request body, in a task of its own, does between two rounds of
`poll_read`: poll the body, or drop it.  The body is named by its channel's place in `chans`. -/
inductive ReaderAct where
  | poll (i : ℕ)
  | drop (i : ℕ)
  deriving DecidableEq, Repr

/-- What the world answers in one round of `poll_read`: what the readers of the request bodies do
before the round, the service's `poll_ready`, and whether the request body's receiver goes away
just before the round sends to it. -/
structure ReadWorld where
  readers : List ReaderAct
  service_ready : Poll (Except Unit Unit)
  receiver_gone : Bool
  deriving DecidableEq, Repr

/-- The response a service future resolves to: its head, and what the dispatcher asks of its body
at once (`take_full_data`, `is_end_stream`, and the exact size hint). -/
structure Response (B : Type) where
  head : MessageHead StatusCode
  full : Option B
  is_end_stream : Bool
  exact : Option ℕ

/-- What the world answers in one round of `poll_write`: the poll of the service's future, and
the poll of the response body, with its `is_end_stream` after that poll. -/
structure WriteWorld (B : Type) where
  response : Poll (Except Unit (Response B))
  data : Poll (Option (Except Unit B))
  end_stream : Bool

namespace Dispatcher

variable {B : Type} [Buf B] (T : Transaction RequestLine StatusCode)

/-- `Dispatcher::new`, with `Server::new`: nothing in flight, no body. -/
def new (conn : Conn B) : Dispatcher B := ⟨conn, false, none, false, false, []⟩

/-- `Dispatcher::close`. -/
def close (d : Dispatcher B) : Dispatcher B :=
  { d with is_closing := true, conn := d.conn.close_read.close_write }

/-- Dropping the request body's sender: its channel loses its sender. -/
def drop_body_tx (d : Dispatcher B) : Dispatcher B :=
  match d.body_tx with
  | some i => { d with body_tx := none, chans := d.chans.modify i Channel.drop_sender }
  | none => d

/-- The reader of channel `i`, if it is still there, does `f` to its body. -/
def on_reader (d : Dispatcher B) (i : ℕ) (f : Channel → Channel) : Dispatcher B :=
  match d.chans[i]? with
  | some ch => if ch.rx_open then { d with chans := d.chans.set i (f ch) } else d
  | none => d

/-- What a reader's act does: it polls its body (`Body::poll_frame`) or drops it. -/
def reader_act (d : Dispatcher B) : ReaderAct → Dispatcher B
  | .poll i => d.on_reader i fun ch ↦ ch.poll_inner.2
  | .drop i => d.on_reader i Channel.drop_body

omit [Buf B] in
@[simp] theorem close_conn (d : Dispatcher B) : (close d).conn = d.conn.close_read.close_write := rfl
omit [Buf B] in
@[simp] theorem close_in_flight (d : Dispatcher B) : (close d).in_flight = d.in_flight := rfl
omit [Buf B] in
@[simp] theorem close_body_tx (d : Dispatcher B) : (close d).body_tx = d.body_tx := rfl
omit [Buf B] in
@[simp] theorem close_chans (d : Dispatcher B) : (close d).chans = d.chans := rfl
omit [Buf B] in
@[simp] theorem close_is_closing (d : Dispatcher B) : (close d).is_closing = true := rfl

omit [Buf B] in
@[simp] theorem drop_body_tx_conn (d : Dispatcher B) : (drop_body_tx d).conn = d.conn := by
  unfold drop_body_tx; split <;> rfl
omit [Buf B] in
@[simp] theorem drop_body_tx_in_flight (d : Dispatcher B) : (drop_body_tx d).in_flight = d.in_flight := by
  unfold drop_body_tx; split <;> rfl
omit [Buf B] in
@[simp] theorem drop_body_tx_is_closing (d : Dispatcher B) : (drop_body_tx d).is_closing = d.is_closing := by
  unfold drop_body_tx; split <;> rfl
omit [Buf B] in
@[simp] theorem drop_body_tx_body_tx (d : Dispatcher B) : (drop_body_tx d).body_tx = none := by
  unfold drop_body_tx; split
  · rfl
  · assumption

omit [Buf B] in
/-- Dropping the sender does not touch the connection. -/
theorem drop_body_tx_with_conn (d : Dispatcher B) (conn : Conn B) :
    { drop_body_tx d with conn } = drop_body_tx { d with conn } := by
  rcases d with ⟨c, in_flight, _ | i, body_rx, is_closing, chans⟩ <;> rfl

/-- `Server::poll_ready`: no message while a future is in flight, else the service's readiness. -/
def server_poll_ready (in_flight : Bool) (ready : Poll (Except Unit Unit)) : Poll (Except Unit Unit) :=
  if in_flight then .pending else ready

omit [Buf B] in
theorem server_poll_ready_in_flight {in_flight : Bool} {ready : Poll (Except Unit Unit)}
    {x : Except Unit Unit} (h : server_poll_ready in_flight ready = .ready x) : in_flight = false := by
  unfold server_poll_ready at h
  cases in_flight
  · rfl
  · cases h

/-- The body of a new request: none for a length of zero (`Body::empty()`); otherwise a new
channel, whose sender replaces (and so drops) the one held before. -/
def recv_body (d : Dispatcher B) (body_len : DecodedLength) (wants : Wants) : Dispatcher B :=
  if body_len = DecodedLength.ZERO then d
  else
    let d := drop_body_tx d
    { d with body_tx := some d.chans.length, chans := d.chans ++ [new_channel body_len wants.expect] }

omit [Buf B] in
/-- `recv_body` without its `let`. -/
theorem recv_body_eq (d : Dispatcher B) (body_len : DecodedLength) (wants : Wants) :
    recv_body d body_len wants =
      if body_len = DecodedLength.ZERO then d
      else { drop_body_tx d with
        body_tx := some (drop_body_tx d).chans.length,
        chans := (drop_body_tx d).chans ++ [new_channel body_len wants.expect] } := rfl

/-- `Dispatcher::poll_read_head`: with the service ready, read a head and call the service with
it (`Server::recv_msg`), which puts its future in flight; `Server::recv_msg` hands an error
back. -/
def poll_read_head (d : Dispatcher B) (ready : Poll (Except Unit Unit)) :
    Option (Poll (Except DispatchError Unit) × Dispatcher B) :=
  match server_poll_ready d.in_flight ready with
  | .pending => some (.pending, d)
  | .ready (.error ()) => some (.ready (.ok ()), close d)
  | .ready (.ok ()) =>
    (d.conn.poll_read_head T).map fun
      | (.pending, conn) => (.pending, { d with conn })
      | (.ready (some (.ok (_, body_len, wants))), conn) =>
        (.ready (.ok ()), { recv_body { d with conn } body_len wants with in_flight := true })
      | (.ready (some (.error err)), conn) => (.ready (.error (.Conn err)), { d with conn })
      | (.ready none, conn) =>
        (.ready (.ok ()), if conn.state.is_write_closed then close { d with conn } else { d with conn })

/-- What the head arm of a round of `poll_read` can do, a constructor for each of its arms. -/
inductive ReadHead (d : Dispatcher B) (ready : Poll (Except Unit Unit)) :
    Poll (Except DispatchError Unit) → Dispatcher B → Prop
  /-- the service is not ready, or its future still runs -/
  | not_ready : server_poll_ready d.in_flight ready = .pending → ReadHead d ready .pending d
  /-- the service is gone: the dispatcher closes -/
  | service_gone : server_poll_ready d.in_flight ready = .ready (.error ()) →
      ReadHead d ready (.ready (.ok ())) (close d)
  /-- the connection has no head yet -/
  | pending {c' : Conn B} : server_poll_ready d.in_flight ready = .ready (.ok ()) →
      d.conn.poll_read_head T = some (.pending, c') → ReadHead d ready .pending { d with conn := c' }
  /-- a head: its body gets a channel, and the service's future is in flight -/
  | head {c' : Conn B} {head : MessageHead RequestLine} {len : DecodedLength} {wants : Wants} :
      server_poll_ready d.in_flight ready = .ready (.ok ()) →
      d.conn.poll_read_head T = some (.ready (some (.ok (head, len, wants))), c') →
      ReadHead d ready (.ready (.ok ())) { recv_body { d with conn := c' } len wants with in_flight := true }
  /-- the head did not parse -/
  | error {c' : Conn B} {err : Error} : server_poll_ready d.in_flight ready = .ready (.ok ()) →
      d.conn.poll_read_head T = some (.ready (some (.error err)), c') →
      ReadHead d ready (.ready (.error (.Conn err))) { d with conn := c' }
  /-- the read side ended: a connection done writing closes -/
  | eof {c' : Conn B} : server_poll_ready d.in_flight ready = .ready (.ok ()) →
      d.conn.poll_read_head T = some (.ready none, c') →
      ReadHead d ready (.ready (.ok ()))
        (if c'.state.is_write_closed then close { d with conn := c' } else { d with conn := c' })

omit [Buf B] in
theorem poll_read_head_cases {d d' : Dispatcher B} {ready : Poll (Except Unit Unit)}
    {r : Poll (Except DispatchError Unit)} (h : poll_read_head T d ready = some (r, d')) :
    ReadHead T d ready r d' := by
  unfold poll_read_head at h
  rcases hsr : server_poll_ready d.in_flight ready with (⟨⟩ | ⟨⟩) | _ <;> rw [hsr] at h <;>
    dsimp only at h
  · obtain ⟨rfl, rfl⟩ := Prod.mk.inj (Option.some.inj h)
    exact .service_gone hsr
  · obtain ⟨⟨r0, c'⟩, hc, hf⟩ := Option.map_eq_some_iff.mp h
    rcases r0 with (_ | (err | ⟨head, len, wants⟩)) | _ <;> obtain ⟨rfl, rfl⟩ := Prod.mk.inj hf
    · exact .eof hsr hc
    · exact .error hsr hc
    · exact .head hsr hc
    · exact .pending hsr hc
  · obtain ⟨rfl, rfl⟩ := Prod.mk.inj (Option.some.inj h)
    exact .not_ready hsr

/-- The body arm of a round of `poll_read`, with the sender of channel `i`: once the body wants
data and the channel has room, read from the connection and send what it gives; a body that is
gone is drained or abandoned, and a body that ended drops the sender. -/
def read_body (d : Dispatcher B) (i : ℕ) (ch : Channel) (receiver_gone : Bool) :
    Option (Option (Poll (Except DispatchError Unit)) × Dispatcher B) :=
  match Sender.poll_ready ch with
  | none => none
  | some .pending => some (some .pending, d)
  | some (.ready (.error .closed)) =>
    -- the receiver dropped the body before its end
    (d.conn.poll_drain_or_close_read T).map fun conn ↦ (none, drop_body_tx { d with conn })
  | some (.ready (.ok ())) =>
    (d.conn.poll_read_body T).map fun
      | (.ready (some (.ok chunk)), conn) =>
        let ch := if receiver_gone then ch.drop_body else ch
        match Sender.try_send_data ch chunk with
        | (.ok (), ch) => (none, { d with conn, chans := d.chans.set i ch })
        | (.error _, ch) =>
          let d := drop_body_tx { d with conn, chans := d.chans.set i ch }
          (none, if conn.can_read_body then { d with conn := conn.close_read } else d)
      | (.ready none, conn) => (none, drop_body_tx { d with conn })
      | (.pending, conn) => (some .pending, { d with conn })
      | (.ready (some (.error e)), conn) =>
        let ch := if receiver_gone then ch.drop_body else ch
        (none, drop_body_tx { d with conn, chans := d.chans.set i (Sender.send_error ch e) })

/-- What one call of `read_body` can do, a constructor for each of its arms. -/
inductive ReadBody (d : Dispatcher B) (i : ℕ) (ch : Channel) (gone : Bool) :
    Option (Poll (Except DispatchError Unit)) → Dispatcher B → Prop
  /-- the channel has no room: the round waits -/
  | parked : Sender.poll_ready ch = some .pending → ReadBody d i ch gone (some .pending) d
  /-- the receiver dropped the body: what is ready of it is drained, and the sender let go -/
  | abandoned {c' : Conn B} : Sender.poll_ready ch = some (.ready (.error .closed)) →
      d.conn.poll_drain_or_close_read T = some c' →
      ReadBody d i ch gone none (drop_body_tx { d with conn := c' })
  /-- the connection has nothing yet -/
  | pending {c' : Conn B} : Sender.poll_ready ch = some (.ready (.ok ())) →
      d.conn.poll_read_body T = some (.pending, c') →
      ReadBody d i ch gone (some .pending) { d with conn := c' }
  /-- the end of the body: the sender is let go -/
  | eof {c' : Conn B} : Sender.poll_ready ch = some (.ready (.ok ())) →
      d.conn.poll_read_body T = some (.ready none, c') →
      ReadBody d i ch gone none (drop_body_tx { d with conn := c' })
  /-- an error of the body is sent to it, and the sender let go -/
  | error {c' : Conn B} {e : IoError} : Sender.poll_ready ch = some (.ready (.ok ())) →
      d.conn.poll_read_body T = some (.ready (some (.error e)), c') →
      ReadBody d i ch gone none (drop_body_tx
        { d with conn := c', chans := d.chans.set i (Sender.send_error (if gone then ch.drop_body else ch) e) })
  /-- a chunk the channel takes -/
  | sent {c' : Conn B} {chunk : List UInt8} {ch' : Channel} : Sender.poll_ready ch = some (.ready (.ok ())) →
      d.conn.poll_read_body T = some (.ready (some (.ok chunk)), c') →
      Sender.try_send_data (if gone then ch.drop_body else ch) chunk = (.ok (), ch') →
      ReadBody d i ch gone none { d with conn := c', chans := d.chans.set i ch' }
  /-- a chunk refused, the receiver gone just before: the sender is let go, and the read side
  closed if it is still in the body -/
  | refused {c' : Conn B} {chunk rest : List UInt8} {ch' : Channel} :
      Sender.poll_ready ch = some (.ready (.ok ())) →
      d.conn.poll_read_body T = some (.ready (some (.ok chunk)), c') →
      Sender.try_send_data (if gone then ch.drop_body else ch) chunk = (.error rest, ch') →
      ReadBody d i ch gone none (if c'.can_read_body then
        { drop_body_tx { d with conn := c', chans := d.chans.set i ch' } with conn := c'.close_read }
        else drop_body_tx { d with conn := c', chans := d.chans.set i ch' })

omit [Buf B] in
theorem read_body_cases {d d' : Dispatcher B} {i : ℕ} {ch : Channel} {gone : Bool}
    {r : Option (Poll (Except DispatchError Unit))} (h : read_body T d i ch gone = some (r, d')) :
    ReadBody T d i ch gone r d' := by
  unfold read_body at h
  rcases hpr : Sender.poll_ready ch with _ | ((⟨⟩ | ⟨⟩) | _) <;> rw [hpr] at h <;> dsimp only at h
  · cases h
  · obtain ⟨c', hc, hf⟩ := Option.map_eq_some_iff.mp h
    obtain ⟨rfl, rfl⟩ := Prod.mk.inj hf
    exact .abandoned hpr hc
  · obtain ⟨⟨r0, c'⟩, hc, hf⟩ := Option.map_eq_some_iff.mp h
    rcases r0 with (_ | (e | chunk)) | _
    · obtain ⟨rfl, rfl⟩ := Prod.mk.inj hf
      exact .eof hpr hc
    · obtain ⟨rfl, rfl⟩ := Prod.mk.inj hf
      exact .error hpr hc
    · -- the send, to the channel as it was or with its receiver gone
      dsimp only at hf
      rcases hsend : Sender.try_send_data (if gone then ch.drop_body else ch) chunk with ⟨rest | ⟨⟩, ch'⟩ <;>
        rw [hsend] at hf <;> obtain ⟨rfl, rfl⟩ := Prod.mk.inj hf
      · exact .refused hpr hc hsend
      · exact .sent hpr hc hsend
    · obtain ⟨rfl, rfl⟩ := Prod.mk.inj hf
      exact .pending hpr hc
  · obtain ⟨rfl, rfl⟩ := Prod.mk.inj (Option.some.inj h)
    exact .parked hpr

/-- One round of `poll_read`'s loop: `none` inside to go round again, or what `poll_read`
returns. -/
def poll_read_round (d : Dispatcher B) (w : ReadWorld) :
    Option (Option (Poll (Except DispatchError Unit)) × Dispatcher B) :=
  if d.is_closing then some (some (.ready (.ok ())), d)
  else if d.conn.can_read_head T then
    (poll_read_head T d w.service_ready).map fun
      | (.ready (.ok ()), d) => (none, d)
      | (r, d) => (some r, d)
  else
    match d.body_tx with
    | some i =>
      if d.conn.can_read_body then
        match d.chans[i]? with
        | some ch => read_body T d i ch w.receiver_gone
        | none => none
      else some (none, drop_body_tx d)
    | none =>
      let (r, conn) := d.conn.poll_read_keep_alive T
      some (some (r.map (·.mapError .Conn)), { d with conn })

/-- What one round of `poll_read` can do, a constructor for each of its arms. -/
inductive ReadRound (d : Dispatcher B) (w : ReadWorld) :
    Option (Poll (Except DispatchError Unit)) → Dispatcher B → Prop
  /-- a closing dispatcher reads no more -/
  | closing : d.is_closing = true → ReadRound d w (some (.ready (.ok ()))) d
  /-- the head arm, after a head or the end of the read side: round again -/
  | head_again {d' : Dispatcher B} : d.is_closing = false → d.conn.can_read_head T = true →
      poll_read_head T d w.service_ready = some (.ready (.ok ()), d') → ReadRound d w none d'
  /-- the head arm, with anything else: return it -/
  | head_done {r : Poll (Except DispatchError Unit)} {d' : Dispatcher B} : d.is_closing = false →
      d.conn.can_read_head T = true → poll_read_head T d w.service_ready = some (r, d') →
      r ≠ .ready (.ok ()) → ReadRound d w (some r) d'
  /-- between bodies the read side is watched for the next request -/
  | keep_alive {r : Poll (Except Error Unit)} {c' : Conn B} : d.is_closing = false →
      d.conn.can_read_head T = false → d.body_tx = none → d.conn.poll_read_keep_alive T = (r, c') →
      ReadRound d w (some (r.map (·.mapError .Conn))) { d with conn := c' }
  /-- the body arm, with the held sender's channel -/
  | body {i : ℕ} {ch : Channel} {r : Option (Poll (Except DispatchError Unit))} {d' : Dispatcher B} :
      d.is_closing = false → d.conn.can_read_head T = false → d.body_tx = some i →
      d.conn.can_read_body = true → d.chans[i]? = some ch → read_body T d i ch w.receiver_gone = some (r, d') →
      ReadRound d w r d'
  /-- the body ended on the connection's side: the sender is let go -/
  | ended {i : ℕ} : d.is_closing = false → d.conn.can_read_head T = false → d.body_tx = some i →
      d.conn.can_read_body = false → ReadRound d w none (drop_body_tx d)

omit [Buf B] in
theorem poll_read_round_cases {d d' : Dispatcher B} {w : ReadWorld}
    {r : Option (Poll (Except DispatchError Unit))} (h : poll_read_round T d w = some (r, d')) :
    ReadRound T d w r d' := by
  unfold poll_read_round at h
  by_cases hclose : d.is_closing = true
  · rw [if_pos hclose] at h
    obtain ⟨rfl, rfl⟩ := Prod.mk.inj (Option.some.inj h)
    exact .closing hclose
  have hc : d.is_closing = false := eq_false_of_ne_true hclose
  rw [if_neg hclose] at h
  by_cases hhead : d.conn.can_read_head T = true
  · rw [if_pos hhead] at h
    obtain ⟨⟨r0, d0⟩, h0, hf⟩ := Option.map_eq_some_iff.mp h
    rcases r0 with (_ | ⟨⟩) | _ <;> obtain ⟨rfl, rfl⟩ := Prod.mk.inj hf
    · exact .head_done hc hhead h0 (by simp)
    · exact .head_again hc hhead h0
    · exact .head_done hc hhead h0 (by simp)
  have hg : d.conn.can_read_head T = false := eq_false_of_ne_true hhead
  rw [if_neg hhead] at h
  rcases hbt : d.body_tx with _ | i <;> rw [hbt] at h <;> dsimp only at h
  · rcases hka : d.conn.poll_read_keep_alive T with ⟨r1, c1⟩
    rw [hka] at h
    obtain ⟨rfl, rfl⟩ := Prod.mk.inj (Option.some.inj h)
    -- rewriting the match's scrutinee has also turned the new record's `body_tx` into `none`
    have hk := ReadRound.keep_alive (w := w) hc hg hbt hka
    rwa [hbt] at hk
  by_cases hb : d.conn.can_read_body = true
  · rw [if_pos hb] at h
    rcases hch : d.chans[i]? with _ | ch <;> rw [hch] at h
    · cases h
    · exact .body hc hg hbt hb hch h
  · rw [if_neg hb] at h
    obtain ⟨rfl, rfl⟩ := Prod.mk.inj (Option.some.inj h)
    exact .ended hc hg hbt (eq_false_of_ne_true hb)

/-- `poll_read`: rounds of its loop, each with its own answers and after what the body readers
did since the last one, until one returns; `none` when a round panics or the answers run out
first. -/
def poll_read : List ReadWorld → Dispatcher B → Option (Poll (Except DispatchError Unit) × Dispatcher B)
  | [], _ => none
  | w :: ws, d =>
    match poll_read_round T (w.readers.foldl reader_act d) w with
    | none => none
    | some (some r, d) => some (r, d)
    | some (none, d) => poll_read ws d

variable [LawfulBuf B]

/-- `Dispatcher::poll_flush`. -/
def poll_flush (d : Dispatcher B) : Poll (Except DispatchError Unit) × Dispatcher B :=
  let (r, conn) := d.conn.poll_flush T
  (r.map (·.mapError .BodyWrite), { d with conn })

/-- `conn.end_body()?` in `poll_write`: an error returns, and the loop goes on otherwise. -/
def end_body (d : Dispatcher B) : Option (Poll (Except DispatchError Unit)) × Dispatcher B :=
  match d.conn.end_body with
  | (.ok (), conn) => (none, { d with conn })
  | (.error e, conn) => (some (.ready (.error (.Conn e))), { d with conn })

/-- The head arm of a round of `poll_write`: poll the future in flight (`Server::poll_msg`,
which keeps it in flight on an error) and write the response's head, with the whole body when
the body has it at once. -/
def write_response (d : Dispatcher B) (response : Poll (Except Unit (Response B))) :
    Option (Option (Poll (Except DispatchError Unit)) × Dispatcher B) :=
  match response with
  | .pending => some (some .pending, d)
  | .ready (.error ()) => some (some (.ready (.error .UserService)), d)
  | .ready (.ok res) =>
    let d := { d with in_flight := false }
    match res.full with
    | some full =>
      (d.conn.write_full_msg T res.head full).map fun conn ↦ (some (.ready (.ok ())), { d with conn })
    | none =>
      if res.is_end_stream then
        (d.conn.write_head T res.head none).map fun conn ↦ (none, { d with conn, body_rx := false })
      else
        (d.conn.write_head T res.head (some ((res.exact.map .Known).getD .Unknown))).map fun conn ↦
          (none, { d with conn, body_rx := true })

/-- What the head arm of a round of `poll_write` can do, a constructor for each of its arms. -/
inductive WriteResponse (d : Dispatcher B) (response : Poll (Except Unit (Response B))) :
    Option (Poll (Except DispatchError Unit)) → Dispatcher B → Prop
  /-- the future still runs -/
  | pending : response = .pending → WriteResponse d response (some .pending) d
  /-- the service failed, and its future stays in flight -/
  | service_error : response = .ready (.error ()) →
      WriteResponse d response (some (.ready (.error .UserService))) d
  /-- a response with its whole body, written at once -/
  | full {res : Response B} {full : B} {c' : Conn B} : response = .ready (.ok res) → res.full = some full →
      d.conn.write_full_msg T res.head full = some c' →
      WriteResponse d response (some (.ready (.ok ()))) { d with in_flight := false, conn := c' }
  /-- a response whose body has already ended: the head alone -/
  | ended {res : Response B} {c' : Conn B} : response = .ready (.ok res) → res.full = none →
      res.is_end_stream = true → d.conn.write_head T res.head none = some c' →
      WriteResponse d response none { d with in_flight := false, conn := c', body_rx := false }
  /-- a response with a body still to come: its head, and the body is read next -/
  | streamed {res : Response B} {c' : Conn B} : response = .ready (.ok res) → res.full = none →
      res.is_end_stream = false →
      d.conn.write_head T res.head (some ((res.exact.map .Known).getD .Unknown)) = some c' →
      WriteResponse d response none { d with in_flight := false, conn := c', body_rx := true }

omit [LawfulBuf B] in
theorem write_response_cases {d d' : Dispatcher B} {response : Poll (Except Unit (Response B))}
    {r : Option (Poll (Except DispatchError Unit))} (h : write_response T d response = some (r, d')) :
    WriteResponse T d response r d' := by
  rcases response with (⟨⟩ | res) | _ <;> unfold write_response at h
  · obtain ⟨rfl, rfl⟩ := Prod.mk.inj (Option.some.inj h)
    exact .service_error rfl
  · dsimp only at h
    rcases hfull : res.full with _ | full <;> rw [hfull] at h <;> dsimp only at h
    · cases hend : res.is_end_stream
      · rw [hend, if_neg Bool.false_ne_true] at h
        obtain ⟨c', hc, hf⟩ := Option.map_eq_some_iff.mp h
        obtain ⟨rfl, rfl⟩ := Prod.mk.inj hf
        exact .streamed rfl hfull hend hc
      · rw [hend, if_pos rfl] at h
        obtain ⟨c', hc, hf⟩ := Option.map_eq_some_iff.mp h
        obtain ⟨rfl, rfl⟩ := Prod.mk.inj hf
        exact .ended rfl hfull hend hc
    · obtain ⟨c', hc, hf⟩ := Option.map_eq_some_iff.mp h
      obtain ⟨rfl, rfl⟩ := Prod.mk.inj hf
      exact .full rfl hfull hc
  · obtain ⟨rfl, rfl⟩ := Prod.mk.inj (Option.some.inj h)
    exact .pending rfl

/-- The body arm of a round of `poll_write`: write the next chunk of the response body, skipping
empty ones, and end the body with its last chunk or after it. -/
def write_body (d : Dispatcher B) (data : Poll (Option (Except Unit B))) (end_stream : Bool) :
    Option (Option (Poll (Except DispatchError Unit)) × Dispatcher B) :=
  match data with
  | .pending => some (some .pending, d)
  | .ready (some (.error ())) => some (some (.ready (.error .UserBody)), { d with body_rx := false })
  | .ready (some (.ok chunk)) =>
    if end_stream then
      let d := { d with body_rx := false }
      if Buf.remaining chunk = 0 then some (end_body d)
      else (d.conn.write_body_and_end chunk).map fun conn ↦ (none, { d with conn })
    else if Buf.remaining chunk = 0 then some (none, d)
    else (d.conn.write_body chunk).map fun conn ↦ (none, { d with conn })
  | .ready none => some (end_body { d with body_rx := false })

/-- What the body arm of a round of `poll_write` can do, a constructor for each of its arms. -/
inductive WriteBody (d : Dispatcher B) (data : Poll (Option (Except Unit B))) (end_stream : Bool) :
    Option (Poll (Except DispatchError Unit)) → Dispatcher B → Prop
  /-- the body has nothing yet -/
  | pending : data = .pending → WriteBody d data end_stream (some .pending) d
  /-- the body failed: it is let go -/
  | error : data = .ready (some (.error ())) →
      WriteBody d data end_stream (some (.ready (.error .UserBody))) { d with body_rx := false }
  /-- an empty last chunk: the body is ended -/
  | last_empty {chunk : B} : data = .ready (some (.ok chunk)) → end_stream = true → Buf.remaining chunk = 0 →
      WriteBody d data end_stream (end_body { d with body_rx := false }).1 (end_body { d with body_rx := false }).2
  /-- the last chunk, written with the end of the body -/
  | last {chunk : B} {c' : Conn B} : data = .ready (some (.ok chunk)) → end_stream = true →
      Buf.remaining chunk ≠ 0 → d.conn.write_body_and_end chunk = some c' →
      WriteBody d data end_stream none { d with body_rx := false, conn := c' }
  /-- an empty chunk is skipped -/
  | empty {chunk : B} : data = .ready (some (.ok chunk)) → end_stream = false → Buf.remaining chunk = 0 →
      WriteBody d data end_stream none d
  /-- a chunk -/
  | chunk {chunk : B} {c' : Conn B} : data = .ready (some (.ok chunk)) → end_stream = false →
      Buf.remaining chunk ≠ 0 → d.conn.write_body chunk = some c' →
      WriteBody d data end_stream none { d with conn := c' }
  /-- the body ended after its last chunk -/
  | eof : data = .ready none →
      WriteBody d data end_stream (end_body { d with body_rx := false }).1 (end_body { d with body_rx := false }).2

omit [LawfulBuf B] in
theorem write_body_cases {d d' : Dispatcher B} {data : Poll (Option (Except Unit B))} {end_stream : Bool}
    {r : Option (Poll (Except DispatchError Unit))} (h : write_body d data end_stream = some (r, d')) :
    WriteBody d data end_stream r d' := by
  rcases data with (_ | (⟨⟩ | chunk)) | _ <;> unfold write_body at h
  · obtain ⟨rfl, rfl⟩ := Prod.mk.inj (Option.some.inj h)
    exact .eof rfl
  · obtain ⟨rfl, rfl⟩ := Prod.mk.inj (Option.some.inj h)
    exact .error rfl
  · -- the chunk is the last one or not, and empty or not
    dsimp only at h
    cases end_stream <;> by_cases hrem : Buf.remaining chunk = 0
    · rw [if_neg Bool.false_ne_true, if_pos hrem] at h
      obtain ⟨rfl, rfl⟩ := Prod.mk.inj (Option.some.inj h)
      exact .empty rfl rfl hrem
    · rw [if_neg Bool.false_ne_true, if_neg hrem] at h
      obtain ⟨c', hc, hf⟩ := Option.map_eq_some_iff.mp h
      obtain ⟨rfl, rfl⟩ := Prod.mk.inj hf
      exact .chunk rfl rfl hrem hc
    · rw [if_pos rfl, if_pos hrem] at h
      obtain ⟨rfl, rfl⟩ := Prod.mk.inj (Option.some.inj h)
      exact .last_empty rfl rfl hrem
    · rw [if_pos rfl, if_neg hrem] at h
      obtain ⟨c', hc, hf⟩ := Option.map_eq_some_iff.mp h
      obtain ⟨rfl, rfl⟩ := Prod.mk.inj hf
      exact .last rfl rfl hrem hc
  · obtain ⟨rfl, rfl⟩ := Prod.mk.inj (Option.some.inj h)
    exact .pending rfl

/-- One round of `poll_write`'s loop: `none` inside to go round again, or what `poll_write`
returns. -/
def poll_write_round (d : Dispatcher B) (w : WriteWorld B) :
    Option (Option (Poll (Except DispatchError Unit)) × Dispatcher B) :=
  if d.is_closing then some (some (.ready (.ok ())), d)
  else if !d.body_rx && d.conn.can_write_head T && d.in_flight then write_response T d w.response
  else if !d.conn.can_buffer_body then
    match poll_flush T d with
    | (.ready (.ok ()), d) => some (none, d)
    | (r, d) => some (some r, d)
  else if d.body_rx then
    if !d.conn.can_write_body then some (none, { d with body_rx := false })
    else write_body d w.data w.end_stream
  else some (some .pending, d)

/-- What one round of `poll_write` can do, a constructor for each of its arms. -/
inductive WriteRound (d : Dispatcher B) (w : WriteWorld B) :
    Option (Poll (Except DispatchError Unit)) → Dispatcher B → Prop
  /-- a closing dispatcher writes no more -/
  | closing : d.is_closing = true → WriteRound d w (some (.ready (.ok ()))) d
  /-- the head arm, with a future in flight and the head's turn to be written -/
  | head {r : Option (Poll (Except DispatchError Unit))} {d' : Dispatcher B} : d.is_closing = false →
      d.body_rx = false → d.conn.can_write_head T = true → d.in_flight = true →
      write_response T d w.response = some (r, d') → WriteRound d w r d'
  /-- a full write buffer, flushed: round again -/
  | flush_again {d' : Dispatcher B} : d.is_closing = false →
      (!d.body_rx && d.conn.can_write_head T && d.in_flight) = false → d.conn.can_buffer_body = false →
      poll_flush T d = (.ready (.ok ()), d') → WriteRound d w none d'
  /-- a full write buffer that does not flush: return -/
  | flush_done {r : Poll (Except DispatchError Unit)} {d' : Dispatcher B} : d.is_closing = false →
      (!d.body_rx && d.conn.can_write_head T && d.in_flight) = false → d.conn.can_buffer_body = false →
      poll_flush T d = (r, d') → r ≠ .ready (.ok ()) → WriteRound d w (some r) d'
  /-- a body the connection cannot take any more is let go -/
  | body_gone : d.is_closing = false → (!d.body_rx && d.conn.can_write_head T && d.in_flight) = false →
      d.conn.can_buffer_body = true → d.body_rx = true → d.conn.can_write_body = false →
      WriteRound d w none { d with body_rx := false }
  /-- the body arm -/
  | body {r : Option (Poll (Except DispatchError Unit))} {d' : Dispatcher B} : d.is_closing = false →
      (!d.body_rx && d.conn.can_write_head T && d.in_flight) = false → d.conn.can_buffer_body = true →
      d.body_rx = true → d.conn.can_write_body = true → write_body d w.data w.end_stream = some (r, d') →
      WriteRound d w r d'
  /-- nothing to write -/
  | idle : d.is_closing = false → (!d.body_rx && d.conn.can_write_head T && d.in_flight) = false →
      d.conn.can_buffer_body = true → d.body_rx = false → WriteRound d w (some .pending) d

theorem poll_write_round_cases {d d' : Dispatcher B} {w : WriteWorld B}
    {r : Option (Poll (Except DispatchError Unit))} (h : poll_write_round T d w = some (r, d')) :
    WriteRound T d w r d' := by
  unfold poll_write_round at h
  by_cases hclose : d.is_closing = true
  · rw [if_pos hclose] at h
    obtain ⟨rfl, rfl⟩ := Prod.mk.inj (Option.some.inj h)
    exact .closing hclose
  have hc : d.is_closing = false := eq_false_of_ne_true hclose
  rw [if_neg hclose] at h
  by_cases hhead : (!d.body_rx && d.conn.can_write_head T && d.in_flight) = true
  · rw [if_pos hhead] at h
    simp only [Bool.and_eq_true, Bool.not_eq_true'] at hhead
    exact .head hc hhead.1.1 hhead.1.2 hhead.2 h
  have hg := eq_false_of_ne_true hhead
  rw [if_neg hhead] at h
  by_cases hbuf : (!d.conn.can_buffer_body) = true
  · -- the write buffer is full: flush it
    rw [if_pos hbuf] at h
    have hfull : d.conn.can_buffer_body = false := by simpa using hbuf
    rcases hf : poll_flush T d with ⟨r1, d1⟩
    rw [hf] at h
    rcases r1 with (_ | ⟨⟩) | _ <;> obtain ⟨rfl, rfl⟩ := Prod.mk.inj (Option.some.inj h)
    · exact .flush_done hc hg hfull hf (by simp)
    · exact .flush_again hc hg hfull hf
    · exact .flush_done hc hg hfull hf (by simp)
  have hroom : d.conn.can_buffer_body = true := by simpa using hbuf
  rw [if_neg hbuf] at h
  by_cases hrx : d.body_rx = true
  · rw [if_pos hrx] at h
    by_cases hcw : (!d.conn.can_write_body) = true
    · rw [if_pos hcw] at h
      obtain ⟨rfl, rfl⟩ := Prod.mk.inj (Option.some.inj h)
      exact .body_gone hc hg hroom hrx (by simpa using hcw)
    · rw [if_neg hcw] at h
      exact .body hc hg hroom hrx (by simpa using hcw) h
  · rw [if_neg hrx] at h
    obtain ⟨rfl, rfl⟩ := Prod.mk.inj (Option.some.inj h)
    exact .idle hc hg hroom (eq_false_of_ne_true hrx)

/-- `poll_write`: rounds of its loop until one returns. -/
def poll_write : List (WriteWorld B) → Dispatcher B →
    Option (Poll (Except DispatchError Unit) × Dispatcher B)
  | [], _ => none
  | w :: ws, d =>
    match poll_write_round T d w with
    | none => none
    | some (some r, d) => some (r, d)
    | some (none, d) => poll_write ws d

/-- The answers of the world to one pass of `poll_loop`: to the rounds of `poll_read`, then to
those of `poll_write`. -/
structure Pass (B : Type) where
  reads : List ReadWorld
  writes : List (WriteWorld B)

/-- `Dispatcher::poll_loop` with `n` passes left (it starts with 16): read, write and flush, an
error returning at once, while the connection wants to read again; after the last pass the task
yields, which is `Pending`. -/
def poll_loop : ℕ → List (Pass B) → Dispatcher B → Option (Poll (Except DispatchError Unit) × Dispatcher B)
  | 0, _, d => some (.pending, d)
  | _ + 1, [], _ => none
  | n + 1, p :: ps, d =>
    (poll_read T p.reads d).bind fun (r, d) ↦
      match r with
      | .ready (.error e) => some (.ready (.error e), d)
      | _ =>
        (poll_write T p.writes d).bind fun (r, d) ↦
          match r with
          | .ready (.error e) => some (.ready (.error e), d)
          | _ =>
            let (r, d) := poll_flush T d
            match r with
            | .ready (.error e) => some (.ready (.error e), d)
            | _ =>
              let (again, conn) := d.conn.wants_read_again
              if !again then some (.ready (.ok ()), { d with conn }) else poll_loop n ps { d with conn }

/-- `Dispatcher::is_done` for a server: closing, or both sides done, the write side also when
nothing is in flight and no body is being written. -/
def is_done (d : Dispatcher B) : Bool :=
  if d.is_closing then true
  else
    let read_done := d.conn.state.is_read_closed
    if !T.should_read_first && read_done then true
    else read_done && (d.conn.state.is_write_closed || (!d.in_flight && !d.body_rx))

/-- `Dispatcher::poll_inner` with `should_shutdown` (the dispatcher's `poll`; with `Server`,
`poll_catch` hands every error on as it is): the loop, then, once done, the transport's shutdown
(whose answer is `shutdown`) and the error the connection kept. -/
def poll_inner (ps : List (Pass B)) (shutdown : Poll (Except IoError Unit)) (d : Dispatcher B) :
    Option (Poll (Except DispatchError Unit) × Dispatcher B) :=
  (poll_loop T 16 ps d).bind fun (r, d) ↦
    match r with
    | .ready (.ok ()) =>
      if is_done T d then
        match shutdown with
        | .pending => some (.pending, d)
        | .ready (.error e) => some (.ready (.error (.Shutdown e)), d)
        | .ready (.ok ()) =>
          match d.conn.take_error with
          | (.error e, conn) => some (.ready (.error (.Conn e)), { d with conn })
          | (.ok (), conn) => some (.ready (.ok ()), { d with conn })
      else some (.pending, d)
    | r => some (r, d)

/-- `Dispatcher::disable_keep_alive`: a connection that has written its last response closes. -/
def disable_keep_alive (d : Dispatcher B) : Dispatcher B :=
  let d := { d with conn := d.conn.disable_keep_alive }
  if d.conn.state.is_write_closed then close d else d

/-! ## Runs -/

/-- A step of a server connection: a round of a loop of the dispatcher, whatever the world
answers; a call of `disable_keep_alive`; or what the reader of a body does, poll it or drop it. -/
inductive Step : Dispatcher B → Dispatcher B → Prop
  | read {d d' : Dispatcher B} {w : ReadWorld} {r : Option (Poll (Except DispatchError Unit))}
      (h : poll_read_round T d w = some (r, d')) : Step d d'
  | write {d d' : Dispatcher B} {w : WriteWorld B} {r : Option (Poll (Except DispatchError Unit))}
      (h : poll_write_round T d w = some (r, d')) : Step d d'
  | flush (d : Dispatcher B) : Step d (poll_flush T d).2
  | wants_read_again (d : Dispatcher B) : Step d { d with conn := d.conn.wants_read_again.2 }
  | take_error (d : Dispatcher B) : Step d { d with conn := d.conn.take_error.2 }
  | disable_keep_alive (d : Dispatcher B) : Step d (disable_keep_alive d)
  | poll_body {d : Dispatcher B} {i : ℕ} {ch : Channel} (h : d.chans[i]? = some ch)
      (hrx : ch.rx_open = true) : Step d { d with chans := d.chans.set i ch.poll_inner.2 }
  | drop_body {d : Dispatcher B} {i : ℕ} {ch : Channel} (h : d.chans[i]? = some ch)
      (hrx : ch.rx_open = true) : Step d { d with chans := d.chans.set i ch.drop_body }

open Relation

/-- What a reader still there does to its body is a step, and a reader that is gone does
nothing. -/
theorem on_reader_run (d : Dispatcher B) (i : ℕ) {f : Channel → Channel}
    (hf : ∀ ch, d.chans[i]? = some ch → ch.rx_open = true →
      Step T d { d with chans := d.chans.set i (f ch) }) :
    ReflTransGen (Step T) d (d.on_reader i f) := by
  unfold on_reader
  split
  · rename_i ch hch
    split_ifs with hrx
    · exact .single (hf ch hch hrx)
    · exact .refl
  · exact .refl

/-- A reader's act is a step of its body's reader, or nothing once the reader is gone. -/
theorem reader_act_run (d : Dispatcher B) : ∀ a : ReaderAct, ReflTransGen (Step T) d (d.reader_act a)
  | .poll i => on_reader_run T d i fun _ hch hrx ↦ .poll_body hch hrx
  | .drop i => on_reader_run T d i fun _ hch hrx ↦ .drop_body hch hrx

theorem readers_run : ∀ (as : List ReaderAct) (d : Dispatcher B),
    ReflTransGen (Step T) d (as.foldl reader_act d)
  | [], _ => .refl
  | a :: as, d => (reader_act_run T d a).trans (readers_run as _)

theorem poll_read_run : ∀ {ws : List ReadWorld} {d d' : Dispatcher B}
    {r : Poll (Except DispatchError Unit)}, poll_read T ws d = some (r, d') → ReflTransGen (Step T) d d'
  | [], _, _, _, h => by cases h
  | w :: ws, d, d', r, h => by
    unfold poll_read at h
    have hreaders := readers_run T w.readers d
    rcases hround : poll_read_round T (w.readers.foldl reader_act d) w with _ | ⟨_ | r', d1⟩ <;>
      rw [hround] at h
    · cases h
    · exact hreaders.trans (.head (.read hround) (poll_read_run h))
    · obtain ⟨-, rfl⟩ := Prod.mk.inj (Option.some.inj h)
      exact hreaders.tail (.read hround)

theorem poll_write_run : ∀ {ws : List (WriteWorld B)} {d d' : Dispatcher B}
    {r : Poll (Except DispatchError Unit)}, poll_write T ws d = some (r, d') → ReflTransGen (Step T) d d'
  | [], _, _, _, h => by cases h
  | w :: ws, d, d', r, h => by
    unfold poll_write at h
    rcases hround : poll_write_round T d w with _ | ⟨_ | r', d1⟩ <;> rw [hround] at h
    · cases h
    · exact .head (.write hround) (poll_write_run h)
    · obtain ⟨-, rfl⟩ := Prod.mk.inj (Option.some.inj h)
      exact .single (.write hround)

/-- A pass that does not return: after the read and the write, the flush and the read of the
flag are two steps more. -/
theorem flush_again_run {n : ℕ} {ps : List (Pass B)} {d d' : Dispatcher B}
    {r : Poll (Except DispatchError Unit)}
    (ih : ∀ {d d' : Dispatcher B} {r : Poll (Except DispatchError Unit)},
      poll_loop T n ps d = some (r, d') → ReflTransGen (Step T) d d')
    (h : (let (r, d) := poll_flush T d
          match r with
          | .ready (.error e) => some (.ready (.error e), d)
          | _ =>
            let (again, conn) := d.conn.wants_read_again
            if !again then some (.ready (.ok ()), { d with conn }) else poll_loop T n ps { d with conn }) =
      some (r, d')) :
    ReflTransGen (Step T) d d' := by
  rcases hf : poll_flush T d with ⟨r3, d3⟩
  have run3 : ReflTransGen (Step T) d d3 := by
    have := ReflTransGen.single (Step.flush (T := T) d)
    rwa [hf] at this
  rw [hf] at h
  dsimp only at h
  split at h
  · obtain ⟨-, rfl⟩ := Prod.mk.inj (Option.some.inj h)
    exact run3
  -- the flag is read, and cleared
  have run4 := run3.tail (.wants_read_again d3)
  split_ifs at h
  · obtain ⟨-, rfl⟩ := Prod.mk.inj (Option.some.inj h)
    exact run4
  · exact run4.trans (ih h)

/-- A pass of `poll_loop` reads, writes and flushes: every pass, and so the whole loop, is a run
of steps. -/
theorem poll_loop_run : ∀ (n : ℕ) {ps : List (Pass B)} {d d' : Dispatcher B}
    {r : Poll (Except DispatchError Unit)}, poll_loop T n ps d = some (r, d') → ReflTransGen (Step T) d d'
  | 0, _, _, _, _, h => by
    obtain ⟨-, rfl⟩ := Prod.mk.inj (Option.some.inj h)
    exact .refl
  | _ + 1, [], _, _, _, h => by cases h
  | n + 1, p :: ps, d, d', r, h => by
    unfold poll_loop at h
    obtain ⟨⟨r1, d1⟩, h1, h⟩ := Option.bind_eq_some_iff.mp h
    have run1 := poll_read_run T h1
    dsimp only at h
    split at h
    · obtain ⟨-, rfl⟩ := Prod.mk.inj (Option.some.inj h)
      exact run1
    obtain ⟨⟨r2, d2⟩, h2, h⟩ := Option.bind_eq_some_iff.mp h
    have run2 := run1.trans (poll_write_run T h2)
    dsimp only at h
    split at h
    · obtain ⟨-, rfl⟩ := Prod.mk.inj (Option.some.inj h)
      exact run2
    exact run2.trans (flush_again_run T (poll_loop_run n) h)

/-- **The dispatcher's `poll` is a run of steps**: whatever the world answers, every call that
returns moves the dispatcher along `Step`. -/
theorem poll_inner_run {ps : List (Pass B)} {shutdown : Poll (Except IoError Unit)} {d d' : Dispatcher B}
    {r : Poll (Except DispatchError Unit)} (h : poll_inner T ps shutdown d = some (r, d')) :
    ReflTransGen (Step T) d d' := by
  unfold poll_inner at h
  obtain ⟨⟨r1, d1⟩, h1, h⟩ := Option.bind_eq_some_iff.mp h
  have run1 := poll_loop_run T 16 h1
  dsimp only at h
  split at h
  · split_ifs at h
    · split at h
      · obtain ⟨-, rfl⟩ := Prod.mk.inj (Option.some.inj h)
        exact run1
      · obtain ⟨-, rfl⟩ := Prod.mk.inj (Option.some.inj h)
        exact run1
      · -- the error the connection kept is taken
        have run2 := run1.tail (.take_error d1)
        split at h <;>
        · rename_i hte
          obtain ⟨-, rfl⟩ := Prod.mk.inj (Option.some.inj h)
          rwa [hte] at run2
    · obtain ⟨-, rfl⟩ := Prod.mk.inj (Option.some.inj h)
      exact run1
  · obtain ⟨-, rfl⟩ := Prod.mk.inj (Option.some.inj h)
    exact run1

end Dispatcher

end Hyper.H1
