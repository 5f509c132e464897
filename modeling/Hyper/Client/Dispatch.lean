import Hyper.Basic

/-!
# The request channel of a client connection (`client/dispatch.rs`)

A `SendRequest` hands each request to the task driving its connection through
`dispatch::channel()`: an unbounded `mpsc` of `Envelope`s, each a request and the `Callback` its
caller waits on, bounded by a `want` pair so that a sender is refused a request the connection
has not asked for (`Sender::can_send`).  Two kinds of task take requests off it:

* the HTTP/1 dispatcher's `Client` (`proto/h1/dispatch.rs`), which takes one request at a time
  into its `callback` slot (`poll_msg`, called only when `should_poll`), and on a connection error
  either answers that callback or closes the channel and cancels the first queued request
  (`recv_msg`);
* the HTTP/2 `ClientTask` (`proto/h2/client.rs`), which hands every request to `h2` and spawns
  `send_when` to wait for its response.

Three places give a request back to its caller inside the error (`Err((err, Some(req)))`): the
sender refusing it (`send_request_retryable`), `recv_msg` cancelling a queued one, and
`Envelope::drop` when the task goes away with requests still queued.

Requests are named by the order they were sent in; the caller's dropped promises are the list
`canceled`.  The requests handed to the connection (returned by `poll_msg`, or given to `h2`'s
`send_request`) and what each callback is sent are kept as ghost state (`written`, `outcomes`)
that no operation reads.  A connection runs one of the two tasks; the model lets both take from
the channel, which only adds runs.
-/

set_option autoImplicit false

namespace Hyper.Client.Dispatch

/-- The state the `want` crate shares between a `Giver` and its `Taker`. -/
inductive WantState where
  | Idle
  | Want
  | Closed
  deriving DecidableEq, Repr

namespace WantState

/-- `Giver::give`: whether the taker wanted, and the state after (back to idle if it did). -/
def give : WantState → Bool × WantState
  | .Want => (true, .Idle)
  | w => (false, w)

/-- `Taker::want`. -/
def want : WantState → WantState
  | .Closed => .Closed
  | _ => .Want

end WantState

/-- `Callback`: the oneshot a caller of `send_request_retryable` (`Retry`) or of `send_request`
(`NoRetry`) waits on. -/
inductive Callback where
  | Retry
  | NoRetry
  deriving DecidableEq, Repr

/-- What a caller's promise resolves to: `Ok(res)`; `Err((err, req))`, with the request handed
back (`Some(req)`) or not (`None`); or `Canceled`, the callback dropped unsent. -/
inductive Outcome where
  | Ok
  | Err (handed_back : Bool)
  | Canceled
  deriving DecidableEq, Repr

/-- `Callback::send`: a `NoRetry` callback drops a request handed back (`val.map_err(|e| e.0)`). -/
def Callback.send : Callback → Outcome → Outcome
  | .Retry, o => o
  | .NoRetry, .Err _ => .Err false
  | .NoRetry, o => o

@[simp] theorem Callback.send_Ok (cb : Callback) : cb.send .Ok = .Ok := by cases cb <;> rfl

@[simp] theorem Callback.send_Err_false (cb : Callback) : cb.send (.Err false) = .Err false := by
  cases cb <;> rfl

@[simp] theorem Callback.send_Canceled (cb : Callback) : cb.send .Canceled = .Canceled := by
  cases cb <;> rfl

/-- `Envelope`: a request, with the callback its caller waits on. -/
structure Envelope where
  req : ℕ
  cb : Callback
  deriving DecidableEq, Repr

/-- Both ends of `dispatch::channel()`: the `Sender`'s `buffered_once`, the `want` state, and the
`mpsc` with the envelopes in it, whether its receiver closed it, and whether a sender is left. -/
structure Chan where
  buffered_once : Bool
  want : WantState
  queue : List Envelope
  closed : Bool
  tx_alive : Bool
  deriving DecidableEq, Repr

namespace Chan

/-- `dispatch::channel()`. -/
def new : Chan := ⟨false, .Idle, [], false, true⟩

/-- `Sender::can_send`: one request is let through before the receiver asks for any. -/
def can_send (c : Chan) : Bool × Chan :=
  let (given, want) := c.want.give
  if given || !c.buffered_once then (true, { c with want, buffered_once := true })
  else (false, { c with want })

/-- `mpsc::UnboundedSender::send`; `none` is the `Err` that gives the envelope back. -/
def send (c : Chan) (env : Envelope) : Option Chan :=
  if c.closed then none else some { c with queue := c.queue ++ [env] }

/-- `Receiver::poll_recv`: the first envelope; `None` once the channel is closed or every sender
gone and nothing is left; else pending, with the taker wanting. -/
def poll_recv (c : Chan) : Poll (Option Envelope) × Chan :=
  match c.queue with
  | env :: rest => (.ready (some env), { c with queue := rest })
  | [] =>
    if c.closed || !c.tx_alive then (.ready none, c) else (.pending, { c with want := c.want.want })

/-- `Receiver::close`: the taker is canceled and the `mpsc` closed; what is queued stays. -/
def close (c : Chan) : Chan := { c with want := .Closed, closed := true }

/-- `Receiver::try_recv`: the first envelope, if one is there now. -/
def try_recv (c : Chan) : Option Envelope × Chan :=
  match c.queue with
  | env :: rest => (some env, { c with queue := rest })
  | [] => (none, c)

/-- A send that goes through puts the envelope last. -/
theorem queue_of_send {c c' : Chan} {env : Envelope} (h : c.send env = some c') :
    c'.queue = c.queue ++ [env] := by
  rw [send] at h
  split_ifs at h
  obtain rfl := Option.some.inj h
  rfl

@[simp] theorem queue_can_send (c : Chan) : c.can_send.2.queue = c.queue := by
  rw [can_send]
  dsimp only
  split_ifs <;> rfl

/-- A poll that returns an envelope took it off the front of the queue. -/
theorem queue_of_poll_recv {c c' : Chan} {env : Envelope}
    (h : c.poll_recv = (.ready (some env), c')) :
    c.queue = env :: c'.queue := by
  rw [poll_recv] at h
  rcases hq : c.queue with _ | ⟨e, rest⟩ <;> rw [hq] at h <;> dsimp only at h
  · split_ifs at h <;> simp at h
  · simp only [Prod.mk.injEq, Poll.ready.injEq, Option.some.injEq] at h
    obtain ⟨rfl, rfl⟩ := h
    rfl

/-- A poll that returns no envelope leaves the queue as it was. -/
theorem queue_poll_recv_of_ne {c c' : Chan} {p : Poll (Option Envelope)} (h : c.poll_recv = (p, c'))
    (hp : ∀ env, p ≠ .ready (some env)) : c'.queue = c.queue := by
  rw [poll_recv] at h
  rcases hq : c.queue with _ | ⟨e, rest⟩ <;> rw [hq] at h <;> dsimp only at h
  · split_ifs at h <;> obtain ⟨rfl, rfl⟩ := Prod.mk.inj h <;> simp [hq]
  · exact absurd (Prod.mk.inj h).1.symm (hp e)

/-- What `try_recv` can do: take the first envelope, or nothing when the queue is empty. -/
theorem try_recv_cases (c : Chan) :
    (∃ env rest, c.queue = env :: rest ∧ c.try_recv = (some env, { c with queue := rest })) ∨
      (c.queue = [] ∧ c.try_recv = (none, c)) := by
  rw [try_recv]
  rcases hq : c.queue with _ | ⟨env, rest⟩
  · exact .inr ⟨rfl, rfl⟩
  · exact .inl ⟨env, rest, rfl, rfl⟩

end Chan

/-- What becomes of a request the HTTP/2 task takes while its caller still waits. -/
inductive H2Send where
  /-- a `CONNECT` with a nonzero `content-length`, answered before `h2` sees it -/
  | connect_with_body
  /-- `h2::client::SendRequest::send_request` fails -/
  | send_error
  /-- `send_request` takes it, and `send_when` waits for the response -/
  | sent
  deriving DecidableEq, Repr

/-- The dispatch of one client connection: the channel; whether the connection's task still holds
the `Receiver`; the HTTP/1 `Client`'s `callback` (with the request it answers) and `rx_closed`; the
envelopes whose `send_when` the HTTP/2 task spawned; the requests whose caller dropped its
promise; the next request to be sent; and, as ghost state, the requests handed to the connection
and what each callback was sent. -/
structure System where
  chan : Chan
  rx_alive : Bool
  callback : Option Envelope
  rx_closed : Bool
  in_flight : List Envelope
  canceled : List ℕ
  next : ℕ
  written : List ℕ
  outcomes : List (ℕ × Outcome)
  deriving DecidableEq, Repr

namespace System

/-- A new connection: `dispatch::channel()`, its receiver held by the connection's task. -/
def init : System := ⟨Chan.new, true, none, false, [], [], 0, [], []⟩

/-- `cb.send(val)` for the request of `env`. -/
def deliver (env : Envelope) (o : Outcome) (s : System) : System :=
  { s with outcomes := s.outcomes ++ [(env.req, env.cb.send o)] }

/-- `Sender::try_send` (`Retry`) or `Sender::send` (`NoRetry`) of the next request.  Refused by
`can_send` or by a closed channel, the request is the `Err(val)` its caller is given back. -/
def try_send (cb : Callback) (s : System) : System :=
  let env : Envelope := ⟨s.next, cb⟩
  let s := { s with next := s.next + 1 }
  let (ok, chan) := s.chan.can_send
  if ok then
    match chan.send env with
    | some chan => { s with chan }
    | none => { s with chan }.deliver env (.Err true)
  else { s with chan }.deliver env (.Err true)

/-- `UnboundedSender::try_send`: no `can_send`, only a closed channel refuses. -/
def unbounded_try_send (s : System) : System :=
  let env : Envelope := ⟨s.next, .Retry⟩
  let s := { s with next := s.next + 1 }
  match s.chan.send env with
  | some chan => { s with chan }
  | none => s.deliver env (.Err true)

/-- The HTTP/1 `Client::poll_msg`: the request taken off the channel goes into `callback` and to
the connection to be written, unless its caller went away (`cb.poll_canceled`), when it is dropped
unsent. -/
def poll_msg (s : System) : Poll (Option Envelope) × System :=
  match s.chan.poll_recv with
  | (.ready (some env), chan) =>
    if env.req ∈ s.canceled then (.ready none, { s with chan })
    else
      (.ready (some env), { s with chan, callback := some env, written := s.written ++ [env.req] })
  | (.ready none, chan) => (.ready none, { s with chan, rx_closed := true })
  | (.pending, chan) => (.pending, { s with chan })

/-- The HTTP/1 `Client::recv_msg` with a response head (`ok`) or the connection's error; the flag
is whether it returned `Ok(())`.  An error with no request in flight closes the channel and
cancels the first queued request, handing it back: it was never started. -/
def recv_msg (ok : Bool) (s : System) : Bool × System :=
  if ok then
    match s.callback with
    | some env => (true, { s with callback := none }.deliver env .Ok)
    | none => (false, s)
  else
    match s.callback with
    | some env => (true, { s with callback := none }.deliver env (.Err false))
    | none =>
      if !s.rx_closed then
        match s.chan.close.try_recv with
        | (some env, chan) => (true, { s with chan }.deliver env (.Err true))
        | (none, chan) => (false, { s with chan })
      else (false, s)

/-- One turn of the HTTP/2 `ClientTask::poll` that takes a request off the channel: dropped if its
caller went away (`cb.is_canceled()`), answered with an error it does not hand back if refused
before `h2` sees it, else given to `h2`'s `send_request`, whose failure is answered the same way. -/
def poll_request (how : H2Send) (s : System) : System :=
  match s.chan.poll_recv with
  | (.ready (some env), chan) =>
    if env.req ∈ s.canceled then { s with chan }
    else match how with
      | .connect_with_body => { s with chan }.deliver env (.Err false)
      | .send_error => { s with chan, written := s.written ++ [env.req] }.deliver env (.Err false)
      | .sent =>
        { s with chan, written := s.written ++ [env.req], in_flight := s.in_flight ++ [env] }
  | (_, chan) => { s with chan }

/-- `Callback::send_when` for an in-flight request: the response future ends with a response
(`some true`) or an error it does not hand back (`some false`), or the caller goes away first
(`none`) and nothing is sent. -/
def send_when (env : Envelope) (res : Option Bool) (s : System) : System :=
  let s := { s with in_flight := s.in_flight.erase env }
  match res with
  | some ok => s.deliver env (if ok then .Ok else .Err false)
  | none => s

/-- The connection's task goes away with the `Receiver`: the HTTP/1 callback is dropped unsent,
`Receiver::drop` cancels the taker, and dropping the `mpsc` receiver drops every queued
`Envelope`, whose `Drop` hands its request back. -/
def drop_receiver (s : System) : System :=
  let s : System := match s.callback with
    | some env => { s with callback := none, outcomes := s.outcomes ++ [(env.req, .Canceled)] }
    | none => s
  { s.chan.queue.foldl (fun s env ↦ s.deliver env (.Err true)) s with
    chan := { s.chan.close with queue := [] }, rx_alive := false }

/-- Every sender is dropped. -/
def drop_senders (s : System) : System := { s with chan := { s.chan with tx_alive := false } }

/-- The caller of `req` drops its promise. -/
def cancel (req : ℕ) (s : System) : System := { s with canceled := s.canceled ++ [req] }

end System

/-- One thing that can happen to a connection's dispatch. -/
inductive Op where
  | try_send (cb : Callback)
  | unbounded_try_send
  | drop_senders
  | cancel (req : ℕ)
  | poll_msg
  | recv_msg (ok : Bool)
  | poll_request (how : H2Send)
  | send_when (env : Envelope) (res : Option Bool)
  | drop_receiver
  deriving DecidableEq, Repr

/-- An operation, when it can happen: a request is sent while a sender is held; the task polls
and receives while it holds the receiver, the HTTP/1 one polling only when `should_poll`
(no callback); a `send_when` ends only for a request in flight, and without a send only once its
caller went away. -/
def Op.apply : Op → System → Option System
  | .try_send cb, s => if s.chan.tx_alive then some (s.try_send cb) else none
  | .unbounded_try_send, s => if s.chan.tx_alive then some s.unbounded_try_send else none
  | .drop_senders, s => some s.drop_senders
  | .cancel req, s => some (s.cancel req)
  | .poll_msg, s => if s.rx_alive ∧ s.callback = none then some s.poll_msg.2 else none
  | .recv_msg ok, s => if s.rx_alive then some (s.recv_msg ok).2 else none
  | .poll_request how, s => if s.rx_alive then some (s.poll_request how) else none
  | .send_when env res, s =>
    if env ∈ s.in_flight ∧ (res = none → env.req ∈ s.canceled) then
      some (s.send_when env res)
    else none
  | .drop_receiver, s => if s.rx_alive then some s.drop_receiver else none

/-- A step of a connection's dispatch: some operation happens. -/
def Step (s s' : System) : Prop := ∃ op : Op, op.apply s = some s'

end Hyper.Client.Dispatch
