import Hyper.Body.ToBytes

/-!
# The body channel (`Body::new_channel`, `body/body.rs`, `common/watch.rs`)

A connection hands each incoming body to the service through a channel: the connection keeps
its `Sender`, the service gets a `Body` of `Kind::Chan`.  The two halves share two things:

* a `watch` of one `usize`, `want`, which the `Body` sets to `WANT_READY` each time it is polled
  and to `CLOSED` when it is dropped, and which `Sender::poll_ready` reads: a sender made as a
  `wanter` starts at `WANT_PENDING` and may not send before the body has been polled once;
* an `mpsc::channel(0)` of `Result<Bytes, Error>`.  Its capacity is its buffer, zero, plus one
  slot for its one sender, so every message sent parks the sender until the receiver takes it.

`Channel` is that shared state together with the `Body`'s `content_length`, which the body lowers
by the length of every chunk it hands out (`DecodedLength::sub_if`) and reports as its size hint.
An error on the data channel is the `Error::new_body` of the decoder's I/O error, so a `Message`
carries that I/O error.  The fields `sent`, `received` and `declared` are bookkeeping that no
operation reads: every message the sender was asked to send, whether or not the channel took it,
every message the body handed out, and the length the body was made with.  The trailers channel and the wakers are left out.

## What is here

* The two halves' operations: `Sender.poll_ready`, `Sender.try_send_data`, `Sender.send_error` and
  the sender's drop; `Channel.poll_inner` (`Body::poll_inner` on a channel), `is_end_stream`,
  `size_hint` and the body's drop.
* `Channel.WellFormed` — what a channel with its one sender keeps: `want` is one of the three
  values, so `poll_want` never reaches its `unreachable!`; the sender is parked exactly while a
  message waits; at most one message waits; and a dropped body leaves nothing queued.
* `Channel.Delivers` — a sender that sends only when `poll_ready` lets it loses nothing: what the
  body received, then what waits, is what was sent.
* `Channel.Owes` — the body's length is what waits plus what the connection still owes, so every
  `sub_if` subtracts exactly and the size hint is exact.
* `Channel.Counted` — what the body handed out and the length it still reports add up to the
  length it was made with.
-/

set_option autoImplicit false

namespace Hyper

namespace watch

/-- `watch::CLOSED`: the value a dropped `watch::Sender` leaves. -/
def CLOSED : ℕ := 0

end watch

namespace Body

/-- `WANT_PENDING`. -/
def WANT_PENDING : ℕ := 1

/-- `WANT_READY`. -/
def WANT_READY : ℕ := 2

/-- The error of a sender whose body is gone (`Error::new_closed`). -/
inductive Closed where
  | closed
  deriving DecidableEq, Repr

/-- What the data channel carries: a chunk of the body, or the I/O error that ended it. -/
abbrev Message := Except IoError (List UInt8)

/-- The bytes of the chunks among some messages. -/
def bytes : List Message → ℕ
  | [] => 0
  | .ok chunk :: ms => chunk.length + bytes ms
  | .error _ :: ms => bytes ms

@[simp] theorem bytes_nil : bytes [] = 0 := rfl

@[simp] theorem bytes_cons_ok (chunk : List UInt8) (ms : List Message) :
    bytes (.ok chunk :: ms) = chunk.length + bytes ms := rfl

@[simp] theorem bytes_cons_error (e : IoError) (ms : List Message) :
    bytes (.error e :: ms) = bytes ms := rfl

@[simp] theorem bytes_append (ms ms' : List Message) : bytes (ms ++ ms') = bytes ms + bytes ms' := by
  induction ms with
  | nil => simp
  | cons m ms ih =>
    cases m <;> simp [ih]
    omega

/-- A body channel: the `want` watch, the data channel's queue, whether its sender is parked and
whether each half is still there, the body's `content_length`, and the bookkeeping. -/
structure Channel where
  want : ℕ
  queue : List Message
  parked : Bool
  tx_open : Bool
  rx_open : Bool
  content_length : DecodedLength
  sent : List Message
  received : List Message
  declared : ℕ
  deriving DecidableEq, Repr

/-- `Body::new_channel`: the sender of a `wanter` waits for the body's first poll. -/
def new_channel (content_length : DecodedLength) (wanter : Bool) : Channel where
  want := if wanter then WANT_PENDING else WANT_READY
  queue := []
  parked := false
  tx_open := true
  rx_open := true
  content_length := content_length
  sent := []
  received := []
  declared := content_length.val

namespace Channel

/-! ## The data channel -/

/-- `mpsc::Sender::poll_ready`: refused once the receiver is gone, not yet while parked. -/
def mpsc_poll_ready (c : Channel) : Poll (Except Closed Unit) :=
  if !c.rx_open then .ready (.error .closed) else if c.parked then .pending else .ready (.ok ())

/-- `mpsc::Sender::try_send`: refused while the sender is parked (`Full`) and once the receiver is
gone (`Disconnected`); with a buffer of zero, the message sent parks the sender. -/
def mpsc_try_send (c : Channel) (m : Message) : Option Channel :=
  if c.parked then none
  else if !c.rx_open then none
  else some { c with queue := c.queue ++ [m], parked := true }

/-- `mpsc::Receiver::poll_next`: the first message, which unparks the sender; the end of the
stream once the sender is gone and nothing waits. -/
def mpsc_poll_next (c : Channel) : Poll (Option Message) × Channel :=
  match c.queue with
  | m :: rest => (.ready (some m), { c with queue := rest, parked := false })
  | [] => if c.tx_open then (.pending, c) else (.ready none, c)

end Channel

/-! ## The sender -/

namespace Sender

/-- `Sender::poll_want`; a value other than the three is the `unreachable!`, `none`. -/
def poll_want (c : Channel) : Option (Poll (Except Closed Unit)) :=
  if c.want = WANT_READY then some (.ready (.ok ()))
  else if c.want = WANT_PENDING then some .pending
  else if c.want = watch.CLOSED then some (.ready (.error .closed))
  else none

/-- `Sender::poll_ready`: the body must have asked for data, and the channel must have room. -/
def poll_ready (c : Channel) : Option (Poll (Except Closed Unit)) :=
  (poll_want c).map fun
    | .ready (.ok ()) => c.mpsc_poll_ready
    | r => r

/-- `Sender::try_send_data`: the chunk comes back (`Err`) if the channel does not take it. -/
def try_send_data (c : Channel) (chunk : List UInt8) : Except (List UInt8) Unit × Channel :=
  let c := { c with sent := c.sent ++ [Except.ok chunk] }
  match c.mpsc_try_send (.ok chunk) with
  | some c => (.ok (), c)
  | none => (.error chunk, c)

/-- `Sender::send_error`: the error is sent if the channel takes it, and lost otherwise. -/
def send_error (c : Channel) (e : IoError) : Channel :=
  let c := { c with sent := c.sent ++ [Except.error e] }
  (c.mpsc_try_send (.error e)).getD c

end Sender

namespace Channel

/-- Dropping the `Sender`: the data channel loses its last sender. -/
def drop_sender (c : Channel) : Channel := { c with tx_open := false }

/-! ## The body -/

/-- `Body::poll_inner` on a channel: tell the sender the body is wanted, then take a message; a
chunk is taken off the length. -/
def poll_inner (c : Channel) : Poll (Option Message) × Channel :=
  match mpsc_poll_next { c with want := Body.WANT_READY } with
  | (.ready (some m), c) =>
    let c := { c with received := c.received ++ [m] }
    match m with
    | .ok chunk =>
      (.ready (some (.ok chunk)), { c with content_length := c.content_length.sub_if chunk.length })
    | .error e => (.ready (some (Except.error e)), c)
  | r => r

/-- `Body::is_end_stream` on a channel. -/
def is_end_stream (c : Channel) : Bool := c.content_length = DecodedLength.ZERO

/-- `Body::size_hint` on a channel. -/
def size_hint (c : Channel) : SizeHint := Chan.opt_len c.content_length

/-- Dropping the `Body`: its `want_tx` leaves `CLOSED`, and its receiver closes the channel,
unparks the sender and drops what waits. -/
def drop_body (c : Channel) : Channel :=
  { c with want := watch.CLOSED, rx_open := false, queue := [], parked := false }

/-! ## What each operation does -/

@[simp] theorem drop_sender_rx_open (c : Channel) : c.drop_sender.rx_open = c.rx_open := rfl
@[simp] theorem drop_sender_tx_open (c : Channel) : c.drop_sender.tx_open = false := rfl
@[simp] theorem drop_sender_want (c : Channel) : c.drop_sender.want = c.want := rfl
@[simp] theorem drop_sender_queue (c : Channel) : c.drop_sender.queue = c.queue := rfl
@[simp] theorem drop_sender_parked (c : Channel) : c.drop_sender.parked = c.parked := rfl
@[simp] theorem drop_sender_content_length (c : Channel) :
    c.drop_sender.content_length = c.content_length := rfl
@[simp] theorem drop_sender_sent (c : Channel) : c.drop_sender.sent = c.sent := rfl
@[simp] theorem drop_sender_received (c : Channel) : c.drop_sender.received = c.received := rfl
@[simp] theorem drop_sender_declared (c : Channel) : c.drop_sender.declared = c.declared := rfl

@[simp] theorem drop_body_rx_open (c : Channel) : c.drop_body.rx_open = false := rfl
@[simp] theorem drop_body_tx_open (c : Channel) : c.drop_body.tx_open = c.tx_open := rfl
@[simp] theorem drop_body_want (c : Channel) : c.drop_body.want = watch.CLOSED := rfl
@[simp] theorem drop_body_content_length (c : Channel) :
    c.drop_body.content_length = c.content_length := rfl
@[simp] theorem drop_body_received (c : Channel) : c.drop_body.received = c.received := rfl
@[simp] theorem drop_body_declared (c : Channel) : c.drop_body.declared = c.declared := rfl

/-- What `poll_ready` answers, by the value of the watch. -/
theorem poll_ready_eq (c : Channel) :
    Sender.poll_ready c =
      if c.want = WANT_READY then some c.mpsc_poll_ready
      else if c.want = WANT_PENDING then some .pending
      else if c.want = watch.CLOSED then some (.ready (.error .closed))
      else none := by
  unfold Sender.poll_ready Sender.poll_want
  split_ifs <;> rfl

/-- A sender that `poll_ready` lets through is not parked, and its body is there. -/
theorem poll_ready_ok {c : Channel} (h : Sender.poll_ready c = some (.ready (.ok ()))) :
    c.want = WANT_READY ∧ c.parked = false ∧ c.rx_open = true := by
  rw [poll_ready_eq] at h
  split_ifs at h with hr
  · unfold mpsc_poll_ready at h
    cases hrx : c.rx_open <;> cases hp : c.parked <;> simp [hrx, hp] at h
    exact ⟨hr, rfl, rfl⟩
  all_goals simp at h

/-- `poll_ready` waits exactly while the body has not asked for data, or a message waits. -/
theorem poll_ready_pending {c : Channel} (h : Sender.poll_ready c = some .pending) :
    c.want = WANT_PENDING ∨ (c.want = WANT_READY ∧ c.rx_open = true ∧ c.parked = true) := by
  rw [poll_ready_eq] at h
  split_ifs at h with hr hp
  · unfold mpsc_poll_ready at h
    cases hrx : c.rx_open <;> cases hpk : c.parked <;> simp [hrx, hpk] at h
    exact .inr ⟨hr, rfl, rfl⟩
  · exact .inl hp
  · simp at h

/-- `poll_ready` refuses only once the body has been dropped: the watch says `CLOSED`, or the
data channel's receiver is gone. -/
theorem poll_ready_error {c : Channel} (h : Sender.poll_ready c = some (.ready (.error .closed))) :
    c.want = watch.CLOSED ∨ c.rx_open = false := by
  rw [poll_ready_eq] at h
  split_ifs at h with hr hp hc
  · unfold mpsc_poll_ready at h
    cases hrx : c.rx_open
    · exact .inr rfl
    · cases hpk : c.parked <;> simp [hrx, hpk] at h
  · simp at h
  · exact .inl hc

/-- What a send does to the channel: taken when the sender is not parked and the body is there,
and in either case recorded as sent. -/
theorem mpsc_try_send_eq (c : Channel) (m : Message) :
    c.mpsc_try_send m =
      if c.parked = false ∧ c.rx_open = true then some { c with queue := c.queue ++ [m], parked := true }
      else none := by
  unfold mpsc_try_send
  cases c.parked <;> cases c.rx_open <;> rfl

theorem try_send_data_eq (c : Channel) (chunk : List UInt8) :
    Sender.try_send_data c chunk =
      if c.parked = false ∧ c.rx_open = true then
        (.ok (), { c with queue := c.queue ++ [Except.ok chunk], parked := true, sent := c.sent ++ [Except.ok chunk] })
      else (.error chunk, { c with sent := c.sent ++ [Except.ok chunk] }) := by
  simp only [Sender.try_send_data, mpsc_try_send_eq]
  split_ifs <;> rfl

theorem send_error_eq (c : Channel) (e : IoError) :
    Sender.send_error c e =
      if c.parked = false ∧ c.rx_open = true then
        { c with queue := c.queue ++ [Except.error e], parked := true, sent := c.sent ++ [Except.error e] }
      else { c with sent := c.sent ++ [Except.error e] } := by
  simp only [Sender.send_error, mpsc_try_send_eq]
  split_ifs <;> rfl

/-- What a poll of the body does: `want` becomes `WANT_READY`, and a waiting message is handed
out, unparking the sender. -/
theorem poll_inner_eq (c : Channel) :
    c.poll_inner =
      match c.queue with
      | .ok chunk :: rest =>
        (.ready (some (.ok chunk)),
          { c with
            want := WANT_READY, queue := rest, parked := false,
            received := c.received ++ [Except.ok chunk],
            content_length := c.content_length.sub_if chunk.length })
      | .error e :: rest =>
        (.ready (some (Except.error e)),
          { c with
            want := WANT_READY, queue := rest, parked := false,
            received := c.received ++ [Except.error e] })
      | [] => if c.tx_open then (.pending, { c with want := WANT_READY })
        else (.ready none, { c with want := WANT_READY }) := by
  unfold poll_inner mpsc_poll_next
  rcases hq : c.queue with _ | ⟨m, rest⟩
  · simp only
    split_ifs <;> rfl
  · cases m <;> rfl

/-- A chunk the channel takes: the sender was free and the body there. -/
theorem try_send_data_ok {c : Channel} {chunk : List UInt8} (h : (Sender.try_send_data c chunk).1 = .ok ()) :
    c.parked = false ∧ c.rx_open = true ∧
      (Sender.try_send_data c chunk).2 =
        { c with queue := c.queue ++ [Except.ok chunk], parked := true, sent := c.sent ++ [Except.ok chunk] } := by
  rw [try_send_data_eq] at h ⊢
  split_ifs at h ⊢ with hc
  exact ⟨hc.1, hc.2, rfl⟩

/-- A chunk the channel refuses leaves it as it was, but for the record of what was sent. -/
theorem try_send_data_error {c : Channel} {chunk rest : List UInt8}
    (h : (Sender.try_send_data c chunk).1 = .error rest) :
    (Sender.try_send_data c chunk).2 = { c with sent := c.sent ++ [Except.ok chunk] } := by
  rw [try_send_data_eq] at h ⊢
  split_ifs at h ⊢
  rfl

/-- A chunk a poll hands out is the first message waiting. -/
theorem poll_inner_chunk {c : Channel} {chunk : List UInt8}
    (h : c.poll_inner.1 = .ready (some (.ok chunk))) : ∃ rest, c.queue = .ok chunk :: rest := by
  rw [poll_inner_eq] at h
  split at h
  · rename_i chunk' rest hq
    simp only [Poll.ready.injEq, Option.some.injEq, Except.ok.injEq] at h
    exact ⟨rest, h ▸ hq⟩
  · simp at h
  · split_ifs at h
    all_goals simp at h

section Fields

variable (c : Channel) (chunk : List UInt8) (e : IoError)

@[simp] theorem try_send_data_want : (Sender.try_send_data c chunk).2.want = c.want := by
  rw [try_send_data_eq]; split_ifs <;> rfl
@[simp] theorem try_send_data_tx_open : (Sender.try_send_data c chunk).2.tx_open = c.tx_open := by
  rw [try_send_data_eq]; split_ifs <;> rfl
@[simp] theorem try_send_data_rx_open : (Sender.try_send_data c chunk).2.rx_open = c.rx_open := by
  rw [try_send_data_eq]; split_ifs <;> rfl
@[simp] theorem try_send_data_content_length :
    (Sender.try_send_data c chunk).2.content_length = c.content_length := by
  rw [try_send_data_eq]; split_ifs <;> rfl
@[simp] theorem try_send_data_received : (Sender.try_send_data c chunk).2.received = c.received := by
  rw [try_send_data_eq]; split_ifs <;> rfl
@[simp] theorem try_send_data_declared : (Sender.try_send_data c chunk).2.declared = c.declared := by
  rw [try_send_data_eq]; split_ifs <;> rfl

@[simp] theorem send_error_want : (Sender.send_error c e).want = c.want := by
  rw [send_error_eq]; split_ifs <;> rfl
@[simp] theorem send_error_tx_open : (Sender.send_error c e).tx_open = c.tx_open := by
  rw [send_error_eq]; split_ifs <;> rfl
@[simp] theorem send_error_rx_open : (Sender.send_error c e).rx_open = c.rx_open := by
  rw [send_error_eq]; split_ifs <;> rfl
@[simp] theorem send_error_content_length : (Sender.send_error c e).content_length = c.content_length := by
  rw [send_error_eq]; split_ifs <;> rfl
@[simp] theorem send_error_received : (Sender.send_error c e).received = c.received := by
  rw [send_error_eq]; split_ifs <;> rfl
@[simp] theorem send_error_declared : (Sender.send_error c e).declared = c.declared := by
  rw [send_error_eq]; split_ifs <;> rfl

@[simp] theorem poll_inner_want : c.poll_inner.2.want = WANT_READY := by
  rw [poll_inner_eq]
  split
  · rfl
  · rfl
  · split_ifs <;> rfl
@[simp] theorem poll_inner_tx_open : c.poll_inner.2.tx_open = c.tx_open := by
  rw [poll_inner_eq]
  split
  · rfl
  · rfl
  · split_ifs <;> rfl
@[simp] theorem poll_inner_rx_open : c.poll_inner.2.rx_open = c.rx_open := by
  rw [poll_inner_eq]
  split
  · rfl
  · rfl
  · split_ifs <;> rfl
@[simp] theorem poll_inner_declared : c.poll_inner.2.declared = c.declared := by
  rw [poll_inner_eq]
  split
  · rfl
  · rfl
  · split_ifs <;> rfl

end Fields

/-- A reserved length is not counted down. -/
theorem poll_inner_content_length_reserved {c : Channel}
    (h : c.content_length = DecodedLength.CHUNKED ∨ c.content_length = DecodedLength.CLOSE_DELIMITED) :
    c.poll_inner.2.content_length = c.content_length := by
  rw [poll_inner_eq]
  split
  · simp only [DecodedLength.sub_if, if_pos h]
  · rfl
  · split_ifs <;> rfl

/-! ## A channel with one sender -/

/-- What a channel keeps while its one sender is the only one to send. -/
structure WellFormed (c : Channel) : Prop where
  want : c.want = watch.CLOSED ∨ c.want = WANT_PENDING ∨ c.want = WANT_READY
  parked_iff : c.parked = true ↔ c.queue ≠ []
  queue_length : c.queue.length ≤ 1
  closed : c.rx_open = false → c.queue = [] ∧ c.want = watch.CLOSED

theorem wellFormed_new_channel (content_length : DecodedLength) (wanter : Bool) :
    (new_channel content_length wanter).WellFormed := by
  refine ⟨?_, by simp [new_channel], by simp [new_channel], by simp [new_channel]⟩
  unfold new_channel
  split_ifs <;> simp

namespace WellFormed

variable {c : Channel}

/-- `poll_want` never reaches its `unreachable!`. -/
theorem poll_want_isSome (h : c.WellFormed) : (Sender.poll_want c).isSome := by
  unfold Sender.poll_want
  rcases h.want with hw | hw | hw <;> simp [hw, WANT_PENDING, WANT_READY, watch.CLOSED]

theorem poll_ready_isSome (h : c.WellFormed) : (Sender.poll_ready c).isSome := by
  unfold Sender.poll_ready
  rw [Option.isSome_map]
  exact h.poll_want_isSome

/-- A send the channel takes finds it empty, and leaves the one message waiting. -/
theorem mpsc_try_send {m : Message} {c' : Channel} (h : c.WellFormed) (hs : c.mpsc_try_send m = some c') :
    c.queue = [] ∧ c' = { c with queue := [m], parked := true } := by
  rw [mpsc_try_send_eq] at hs
  split_ifs at hs with hc
  obtain rfl := Option.some.inj hs
  have hq : c.queue = [] := by
    by_contra hne
    have := h.parked_iff.mpr hne
    rw [hc.1] at this
    cases this
  exact ⟨hq, by rw [hq]; rfl⟩

theorem try_send_data (h : c.WellFormed) (chunk : List UInt8) :
    (Sender.try_send_data c chunk).2.WellFormed := by
  rw [try_send_data_eq]
  split_ifs with hc
  · have hq : c.queue = [] := by
      by_contra hne
      have := h.parked_iff.mpr hne
      rw [hc.1] at this
      cases this
    exact ⟨h.want, by simp, by simp [hq], by simp [hc.2]⟩
  · exact ⟨h.want, h.parked_iff, h.queue_length, h.closed⟩

theorem send_error (h : c.WellFormed) (e : IoError) : (Sender.send_error c e).WellFormed := by
  rw [send_error_eq]
  split_ifs with hc
  · have hq : c.queue = [] := by
      by_contra hne
      have := h.parked_iff.mpr hne
      rw [hc.1] at this
      cases this
    exact ⟨h.want, by simp, by simp [hq], by simp [hc.2]⟩
  · exact ⟨h.want, h.parked_iff, h.queue_length, h.closed⟩

theorem drop_sender (h : c.WellFormed) : c.drop_sender.WellFormed :=
  ⟨h.want, h.parked_iff, h.queue_length, h.closed⟩

theorem drop_body (c : Channel) : c.drop_body.WellFormed := by
  refine ⟨.inl rfl, ?_, by simp [Channel.drop_body], fun _ ↦ ⟨rfl, rfl⟩⟩
  simp [Channel.drop_body]

/-- A poll of a body that is there: the one waiting message leaves, and the sender is free. -/
theorem poll_inner (h : c.WellFormed) (hrx : c.rx_open = true) : c.poll_inner.2.WellFormed := by
  have hready : WANT_READY = WANT_READY := rfl
  rw [poll_inner_eq]
  rcases hq : c.queue with _ | ⟨m, rest⟩
  · simp only
    have hp : c.parked = false := by
      cases hc : c.parked
      · rfl
      · exact absurd hq (h.parked_iff.mp hc)
    split_ifs <;> exact ⟨.inr (.inr rfl), by simp [hp], by simp, by simp [hrx]⟩
  · -- at most one message waits, so none is left behind it
    have hrest : rest = [] := by
      have := h.queue_length
      rw [hq] at this
      simpa using this
    subst hrest
    cases m <;> exact ⟨.inr (.inr rfl), by simp, by simp, by simp [hrx]⟩

end WellFormed

/-! ## Nothing sent is lost -/

/-- While the body is there, what it received and then what waits is what was sent. -/
def Delivers (c : Channel) : Prop := c.rx_open = true → c.received ++ c.queue = c.sent

theorem delivers_new_channel (content_length : DecodedLength) (wanter : Bool) :
    (new_channel content_length wanter).Delivers := fun _ ↦ rfl

namespace Delivers

variable {c : Channel}

/-- A chunk sent when the sender is free reaches the queue. -/
theorem try_send_data (h : c.Delivers) (hfree : c.parked = false ∨ c.rx_open = false)
    (chunk : List UInt8) : (Sender.try_send_data c chunk).2.Delivers := by
  rw [try_send_data_eq]
  by_cases hc : c.parked = false ∧ c.rx_open = true
  · rw [if_pos hc]
    intro _
    simp only [← List.append_assoc, h hc.2]
  · -- refused, so the body is gone: the sender was free
    rw [if_neg hc]
    intro hrx
    rcases hfree with hp | hp
    · exact absurd ⟨hp, hrx⟩ hc
    · rw [hp] at hrx
      cases hrx

theorem send_error (h : c.Delivers) (hfree : c.parked = false ∨ c.rx_open = false) (e : IoError) :
    (Sender.send_error c e).Delivers := by
  rw [send_error_eq]
  by_cases hc : c.parked = false ∧ c.rx_open = true
  · rw [if_pos hc]
    intro _
    simp only [← List.append_assoc, h hc.2]
  · rw [if_neg hc]
    intro hrx
    rcases hfree with hp | hp
    · exact absurd ⟨hp, hrx⟩ hc
    · rw [hp] at hrx
      cases hrx

theorem drop_sender (h : c.Delivers) : c.drop_sender.Delivers := h

theorem drop_body (c : Channel) : c.drop_body.Delivers := fun h ↦ by cases h

theorem poll_inner (h : c.Delivers) : c.poll_inner.2.Delivers := by
  intro hrx
  rw [poll_inner_eq] at hrx ⊢
  rcases hq : c.queue with _ | ⟨m, rest⟩
  · simp only [hq] at hrx ⊢
    split_ifs at hrx ⊢ <;> simpa [hq] using h hrx
  · cases m <;> simp only [hq] at hrx ⊢ <;> simpa [hq] using h hrx

end Delivers

/-! ## The length the body reports -/

/-- The body's length is a real length, and is what waits in the channel plus `rest` bytes more. -/
def Owes (c : Channel) (rest : ℕ) : Prop :=
  c.content_length.val ≤ DecodedLength.MAX_LEN ∧ c.content_length.val = bytes c.queue + rest

/-- `sub_if` of a real length subtracts, as long as it does not go below zero. -/
theorem sub_if_of_le {d : DecodedLength} {amt : ℕ} (hd : d.val ≤ DecodedLength.MAX_LEN)
    (ha : amt ≤ d.val) : d.sub_if amt = ⟨d.val - amt⟩ := by
  have ⟨hc, hcd⟩ := DecodedLength.ne_reserved hd
  unfold DecodedLength.sub_if
  rw [if_neg (by rintro (h | h) <;> simp_all)]
  unfold DecodedLength.MAX_LEN at hd
  congr 1
  have hwrap : d.val + 2 ^ 64 - amt = (d.val - amt) + 2 ^ 64 := by omega
  rw [Nat.mod_eq_of_lt (by omega : amt < 2 ^ 64), hwrap, Nat.add_mod_right, Nat.mod_eq_of_lt (by omega)]

namespace Owes

variable {c : Channel} {rest : ℕ}

/-- The size hint of a body that owes its bytes is exact. -/
theorem size_hint (h : c.Owes rest) :
    c.size_hint = SizeHint.with_exact (bytes c.queue + rest).toUInt64 := by
  have ⟨hc, hcd⟩ := DecodedLength.ne_reserved h.1
  unfold Channel.size_hint Chan.opt_len DecodedLength.into_opt
  rw [if_neg (by rintro (hr | hr) <;> simp_all)]
  simp only [← h.2]

/-- The body is at its end exactly when nothing waits and nothing more is owed. -/
theorem is_end_stream_iff (h : c.Owes rest) : c.is_end_stream = true ↔ bytes c.queue = 0 ∧ rest = 0 := by
  unfold Channel.is_end_stream
  rw [decide_eq_true_iff]
  have hval := h.2
  constructor
  · intro hz
    rw [hz] at hval
    simp only [DecodedLength.ZERO] at hval
    omega
  · rintro ⟨hq, hr⟩
    rw [hq, hr] at hval
    cases hcl : c.content_length with
    | mk v =>
      rw [hcl] at hval
      simp only at hval
      rw [hval]
      rfl

/-- A chunk that the connection owed and the channel takes is no longer owed. -/
theorem send {chunk : List UInt8} (h : c.Owes (chunk.length + rest)) :
    Owes { c with queue := c.queue ++ [Except.ok chunk], parked := true, sent := c.sent ++ [Except.ok chunk] } rest := by
  refine ⟨h.1, ?_⟩
  simp only [bytes_append, bytes_cons_ok, bytes_nil]
  have := h.2
  omega

/-- A poll hands out the first waiting chunk and takes its length off. -/
theorem poll_inner (h : c.Owes rest) : c.poll_inner.2.Owes rest := by
  rw [poll_inner_eq]
  rcases hq : c.queue with _ | ⟨m, ms⟩
  · simp only
    split_ifs <;> exact ⟨h.1, by simpa [hq] using h.2⟩
  · have hlen := h.2
    have hmax := h.1
    rw [hq] at hlen
    cases m with
    | error e => exact ⟨h.1, by simpa using hlen⟩
    | ok chunk =>
      simp only [bytes_cons_ok] at hlen
      have hsub := sub_if_of_le h.1 (show chunk.length ≤ c.content_length.val by omega)
      refine ⟨?_, ?_⟩ <;> simp only [hsub] <;> omega

/-- Owing reads only the length and the queue. -/
theorem congr {c' : Channel} (h : c.Owes rest) (hl : c'.content_length = c.content_length)
    (hq : c'.queue = c.queue) : c'.Owes rest := by
  unfold Owes
  rw [hl, hq]
  exact h

/-- An error sent into the channel is no chunk: the body owes what it owed. -/
theorem send_error (h : c.Owes rest) (e : IoError) : (Sender.send_error c e).Owes rest := by
  rw [send_error_eq]
  split_ifs
  · exact ⟨h.1, by simpa using h.2⟩
  · exact h

end Owes

/-- A body's length is one of the two reserved values, or a real length that owes its bytes. -/
def Sized (c : Channel) : Prop :=
  c.content_length = DecodedLength.CHUNKED ∨ c.content_length = DecodedLength.CLOSE_DELIMITED ∨
    ∃ rest, c.Owes rest

theorem Sized.poll_inner {c : Channel} (h : c.Sized) : c.poll_inner.2.Sized := by
  rcases h with h | h | ⟨rest, h⟩
  · exact .inl ((poll_inner_content_length_reserved (.inl h)).trans h)
  · exact .inr (.inl ((poll_inner_content_length_reserved (.inr h)).trans h))
  · exact .inr (.inr ⟨rest, h.poll_inner⟩)

/-! ## What the body has handed out -/

/-- While the body's length is a real one, what the body handed out and the length it still
reports add up to the length it was made with. -/
def Counted (c : Channel) : Prop :=
  c.content_length ≠ DecodedLength.CHUNKED → c.content_length ≠ DecodedLength.CLOSE_DELIMITED →
    bytes c.received + c.content_length.val = c.declared

theorem counted_new_channel (content_length : DecodedLength) (wanter : Bool) :
    (new_channel content_length wanter).Counted := fun _ _ ↦ by simp [new_channel]

namespace Counted

variable {c : Channel}

/-- Counting reads only the bytes handed out, the length and the length the body was made with. -/
theorem congr {c' : Channel} (h : c.Counted) (hr : bytes c'.received = bytes c.received)
    (hl : c'.content_length = c.content_length) (hd : c'.declared = c.declared) : c'.Counted := by
  unfold Counted
  rw [hr, hl, hd]
  exact h

/-- A poll hands out the first waiting message; a chunk that a real length owes is taken off it
exactly. -/
theorem poll_inner (h : c.Counted) (hs : c.Sized) : c.poll_inner.2.Counted := by
  rw [poll_inner_eq]
  rcases hq : c.queue with _ | ⟨_ | chunk, rest⟩
  · dsimp only
    split_ifs <;> exact h.congr rfl rfl rfl
  · exact h.congr (by simp) rfl rfl
  intro hc hd
  dsimp only at hc hd ⊢
  by_cases hres : c.content_length = DecodedLength.CHUNKED ∨
      c.content_length = DecodedLength.CLOSE_DELIMITED
  · -- a reserved length stays as it is: nothing to count
    rw [DecodedLength.sub_if, if_pos hres] at hc hd
    rcases hres with hr | hr
    · exact absurd hr hc
    · exact absurd hr hd
  obtain ⟨owed, ho⟩ : ∃ owed, c.Owes owed := by
    rcases hs with hl | hl | ho
    · exact absurd (.inl hl) hres
    · exact absurd (.inr hl) hres
    · exact ho
  have hle : chunk.length ≤ c.content_length.val := by
    have := ho.2
    rw [hq, bytes_cons_ok] at this
    omega
  have hcount := h (fun h' ↦ hres (.inl h')) (fun h' ↦ hres (.inr h'))
  rw [sub_if_of_le ho.1 hle]
  simp only [bytes_append, bytes_cons_ok, bytes_nil]
  omega

end Counted

/-! ## What the dispatcher keeps of every body -/

/-- A channel as its two halves leave it: well-formed, losing nothing, with nothing sent before
the body first asked, and with a length it can count down while the body is there. -/
structure Sound (c : Channel) : Prop where
  wf : c.WellFormed
  delivers : c.Delivers
  unsent : c.want = WANT_PENDING → c.sent = []
  sized : c.rx_open = true → c.Sized
  counted : c.Counted

theorem sound_new_channel {content_length : DecodedLength} {wanter : Bool}
    (h : (new_channel content_length wanter).Sized) : (new_channel content_length wanter).Sound :=
  ⟨wellFormed_new_channel _ _, delivers_new_channel _ _, fun _ ↦ rfl, fun _ ↦ h, counted_new_channel _ _⟩

namespace Sound

variable {c : Channel}

theorem drop_sender (h : c.Sound) : c.drop_sender.Sound :=
  ⟨h.wf.drop_sender, h.delivers.drop_sender, h.unsent, h.sized, h.counted.congr rfl rfl rfl⟩

/-- A dropped body keeps only its count. -/
theorem drop_body (h : c.Sound) : c.drop_body.Sound := by
  refine ⟨WellFormed.drop_body c, Delivers.drop_body c, fun hw ↦ ?_, fun hrx ↦ (by cases hrx),
    h.counted.congr rfl rfl rfl⟩
  simp [WANT_PENDING, watch.CLOSED] at hw

/-- A poll of a body that is there. -/
theorem poll_inner (h : c.Sound) (hrx : c.rx_open = true) : c.poll_inner.2.Sound := by
  refine ⟨h.wf.poll_inner hrx, h.delivers.poll_inner, fun hw ↦ ?_, fun _ ↦ (h.sized hrx).poll_inner,
    h.counted.poll_inner (h.sized hrx)⟩
  simp [WANT_PENDING, WANT_READY] at hw

/-- A chunk sent once the body has asked, by a free sender or into a body that is gone; a real
length must owe the chunk. -/
theorem try_send_data (h : c.Sound) {chunk : List UInt8} (hfree : c.parked = false ∨ c.rx_open = false)
    (hwant : c.want ≠ WANT_PENDING)
    (hsize : c.rx_open = true → c.content_length = DecodedLength.CHUNKED ∨
      c.content_length = DecodedLength.CLOSE_DELIMITED ∨ ∃ rest, c.Owes (chunk.length + rest)) :
    (Sender.try_send_data c chunk).2.Sound := by
  refine ⟨h.wf.try_send_data chunk, h.delivers.try_send_data hfree chunk,
    fun hw ↦ absurd (by simpa using hw) hwant, fun hrx ↦ ?_, h.counted.congr (by simp) (by simp) (by simp)⟩
  rw [try_send_data_rx_open] at hrx
  rcases hres : (Sender.try_send_data c chunk).1 with rest | ⟨⟩
  · -- refused: the length and the queue are as they were
    rw [try_send_data_error hres]
    rcases h.sized hrx with hl | hl | ⟨rest', ho⟩
    · exact .inl hl
    · exact .inr (.inl hl)
    · exact .inr (.inr ⟨rest', ho.congr rfl rfl⟩)
  · obtain ⟨-, -, heq⟩ := try_send_data_ok hres
    rw [heq]
    rcases hsize hrx with hl | hl | ⟨rest', ho⟩
    · exact .inl hl
    · exact .inr (.inl hl)
    · exact .inr (.inr ⟨rest', ho.send⟩)

theorem send_error (h : c.Sound) (hfree : c.parked = false ∨ c.rx_open = false)
    (hwant : c.want ≠ WANT_PENDING) (e : IoError) : (Sender.send_error c e).Sound := by
  refine ⟨h.wf.send_error e, h.delivers.send_error hfree e,
    fun hw ↦ absurd (by simpa using hw) hwant, fun hrx ↦ ?_, h.counted.congr (by simp) (by simp) (by simp)⟩
  rw [send_error_rx_open] at hrx
  unfold Sized
  rw [send_error_content_length]
  rcases h.sized hrx with hl | hl | ⟨rest, ho⟩
  · exact .inl hl
  · exact .inr (.inl hl)
  · exact .inr (.inr ⟨rest, ho.send_error e⟩)

end Sound

end Channel

end Body

end Hyper
