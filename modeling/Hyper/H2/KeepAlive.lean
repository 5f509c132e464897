import Hyper.H2.Ping
import Hyper.Lib.Runs

/-!
# The keep-alive of an HTTP/2 connection (`proto/h2/ping.rs`, the `runtime` feature)

With `http2_keep_alive_interval` set, the ping task of an HTTP/2 connection watches the peer:
`Ponger::poll` sets a timer for `interval` after the last frame read, sends a PING when it fires,
and reports `KeepAliveTimedOut`, on which the connection closes, when no pong has come `timeout`
after that.  The keep-alive and the BDP estimator of `Hyper.H2.Ping` share the ping: `Shared`
keeps one `ping_sent_at` for both.

* **The model.**  `runtime.Ponger` is the `Ponger` of `Hyper.H2.Ping` with the keep-alive, and
  `runtime.Shared` its `Shared` with the time of the last read and the timed-out flag.  A timer is
  the deadline it is set to, and it is ready when polled at or after it.  What the world answers
  to a poll is a `PollWorld`: the time, whether the connection is idle (no stream holds a
  `Recorder`), whether `PingPong::send_ping` succeeds, what `poll_pong` gives, and the bandwidth
  comparison of the BDP part.  `Ponger.poll` runs the keep-alive's turn (`keep_alive_turn`), then
  hands a pong to the BDP part, `Hyper.H2.Ponger.poll`, before the keep-alive takes it as a read.
* **Runs.**  A `Step` is a frame the connection reads, recorded by its `Recorder`, or a poll of
  the `Ponger`, at a time no earlier than the step before (`Instant` is monotonic).  `Inv` holds
  of every reachable state: the last read is in the past, a scheduled timer was set from a read,
  and a ping's timer from a time in the past.
* **A dead peer is found** (`keep_alive_detects_silent_peer`): three polls that see neither a
  frame nor a pong, the first `interval` after the last read and the third `timeout` after the
  second, report the timeout, from any reachable state of a busy connection.
* **A live one is not** (`keep_alive_timeout_after_unanswered_ping`): a timeout is reported only
  for a ping attempted at least `timeout` before, `interval` after the last frame read
  (`SendsPing`), that the keep-alive has waited on at every step since (`WaitsOn`); a pong ends
  the wait (`on_pong_ends_wait`).  The proof takes the last step of the run into the wait
  (`Runs.exists_last_entry`) and shows that only a poll that pings makes one
  (`Step.waitsOn_entry`).
* **An idle client is left alone** (`keep_alive_idle_never_pings`): with
  `keep_alive_while_idle` off, the client's default, the keep-alive stays as `channel` made it
  while every poll finds the connection idle, and no such poll pings or times out.

A `Recorder` whose `Shared` is gone (`ping::disabled`, `for_stream` of an ended stream) records
nothing and is left out, and so is the waker the keep-alive wakes to be polled again.
-/

set_option autoImplicit false

namespace Hyper.H2

namespace Ponger

/-- A pong answers the ping that was out. -/
theorem poll_ok_answered {p q : Ponger} {now : Instant} {slower : Bool} {r : Poll Ponged}
    (hp : p.shared.is_ping_sent = true) (h : p.poll now .ok slower = some (r, q)) :
    q.shared.ping_sent_at = none := by
  unfold poll at h
  rw [hp, Bool.not_true, if_neg Bool.false_ne_true] at h
  dsimp only at h
  rcases hb : p.bdp with _ | bdp <;> rw [hb] at h <;> dsimp only at h
  · obtain ⟨-, rfl⟩ := Prod.mk.inj (Option.some.inj h)
    rfl
  rcases hbytes : p.shared.bytes with _ | bytes <;> rw [hbytes] at h <;> dsimp only at h
  · cases h
  obtain ⟨⟨bdp', update⟩, -, hf⟩ := Option.map_eq_some_iff.mp h
  cases update <;> obtain ⟨-, rfl⟩ := Prod.mk.inj hf <;> rfl

end Ponger

namespace runtime

open Client (Duration)

/-- The keep-alive settings of `ping::Config`. -/
structure KeepAliveConfig where
  keep_alive_interval : Option Duration
  keep_alive_timeout : Duration
  keep_alive_while_idle : Bool
  deriving DecidableEq, Repr

/-- `KeepAliveState`. -/
inductive KeepAliveState where
  | Init
  | Scheduled
  | PingSent
  deriving DecidableEq, Repr

/-- `KeepAlive`, its timer as the deadline the timer is set to. -/
structure KeepAlive where
  interval : Duration
  timeout : Duration
  while_idle : Bool
  state : KeepAliveState
  timer : Instant
  deriving DecidableEq, Repr

/-- `Shared` with the `runtime` feature: the BDP part, when the last frame was read, and whether
the keep-alive timed out. -/
structure Shared extends H2.Shared where
  last_read_at : Option Instant
  is_keep_alive_timed_out : Bool
  deriving DecidableEq, Repr

/-- `Ponger` with the `runtime` feature. -/
structure Ponger where
  bdp : Option Bdp
  keep_alive : Option KeepAlive
  shared : Shared
  deriving DecidableEq, Repr

/-- `KeepAliveTimedOut`. -/
structure KeepAliveTimedOut where
  deriving DecidableEq, Repr

/-- `Ponged`. -/
inductive Ponged where
  | SizeUpdate (w : ℕ)
  | KeepAliveTimedOut
  deriving DecidableEq, Repr

/-- What the BDP part of a poll returns, as the `runtime` feature's `Ponged`. -/
def Ponged.fromBdp : Poll H2.Ponged → Poll Ponged
  | .ready (.SizeUpdate wnd) => .ready (.SizeUpdate wnd)
  | .pending => .pending

/-- `ping::channel` at time `now`: the BDP part as `Hyper.H2.channel` makes it, and a keep-alive
whose timer is set `interval` from now. -/
def channel (config : ping.Config) (ka : KeepAliveConfig) (now : Instant) : Ponger :=
  let p := H2.channel config now
  let keep_alive := ka.keep_alive_interval.map fun interval ↦
    ({ interval, timeout := ka.keep_alive_timeout, while_idle := ka.keep_alive_while_idle,
       state := .Init, timer := now + interval } : KeepAlive)
  ⟨p.bdp, keep_alive,
    { toShared := p.shared, last_read_at := keep_alive.map fun _ ↦ now, is_keep_alive_timed_out := false }⟩

namespace Shared

/-- `Shared::update_last_read_at`. -/
def update_last_read_at (s : Shared) (now : Instant) : Shared :=
  if s.last_read_at.isSome then { s with last_read_at := some now } else s

/-- `Recorder::record_data` at time `now`, for a DATA frame of `len` bytes: the read is recorded,
then the BDP part counts the bytes. -/
def record_data (s : Shared) (now : Instant) (len : ℕ) (sent : Bool) : Option Shared :=
  let s := s.update_last_read_at now
  (s.toShared.record_data now len sent).map fun b ↦ { s with toShared := b }

/-- `Recorder::record_non_data` at time `now`. -/
def record_non_data (s : Shared) (now : Instant) : Shared := s.update_last_read_at now

/-- `Recorder::ensure_not_timed_out`. -/
def ensure_not_timed_out (s : Shared) : Except KeepAliveTimedOut Unit :=
  if s.is_keep_alive_timed_out then .error ⟨⟩ else .ok ()

end Shared

namespace KeepAlive

/-- `KeepAlive::schedule`: set the timer `interval` after the last read, unless the connection
is idle and is not pinged while idle, or the ping sent is still out; `none` is the panic of
`last_read_at()` with no time in it. -/
def schedule (ka : KeepAlive) (is_idle : Bool) (shared : Shared) : Option KeepAlive :=
  match ka.state with
  | .Init =>
    if !ka.while_idle && is_idle then some ka
    else shared.last_read_at.map fun last_read_at ↦
      { ka with state := .Scheduled, timer := last_read_at + ka.interval }
  | .PingSent =>
    if shared.is_ping_sent then some ka
    else shared.last_read_at.map fun last_read_at ↦
      { ka with state := .Scheduled, timer := last_read_at + ka.interval }
  | .Scheduled => some ka

/-- `KeepAlive::maybe_ping` at time `now`: once the timer has fired, start over if a frame was
read while it ran, and send a ping otherwise, setting the timer `timeout` from now. -/
def maybe_ping (ka : KeepAlive) (now : Instant) (shared : Shared) (sent : Bool) :
    Option (KeepAlive × Shared) :=
  match ka.state with
  | .Scheduled =>
    if now < ka.timer then some (ka, shared)
    else
      match shared.last_read_at with
      | none => none
      | some last_read_at =>
        if last_read_at + ka.interval > ka.timer then some ({ ka with state := .Init }, shared)
        else
          some ({ ka with state := .PingSent, timer := now + ka.timeout },
            { shared with toShared := shared.toShared.send_ping now sent })
  | .Init | .PingSent => some (ka, shared)

/-- `KeepAlive::maybe_timeout` at time `now`. -/
def maybe_timeout (ka : KeepAlive) (now : Instant) : Except KeepAliveTimedOut Unit :=
  match ka.state with
  | .PingSent => if now < ka.timer then .ok () else .error ⟨⟩
  | .Init | .Scheduled => .ok ()

end KeepAlive

/-- What the world answers to one poll of the ping task: the time, whether the connection is
idle, whether a ping sent goes out, what `poll_pong` gives, and whether the bandwidth of a BDP
sample is below the best one. -/
structure PollWorld where
  now : Instant
  is_idle : Bool
  sent : Bool
  pong : Pong
  slower : Bool
  deriving DecidableEq, Repr

namespace Ponger

/-- The keep-alive's turn at the start of `Ponger::poll`: schedule the timer, and ping if it
fired. -/
def keep_alive_turn (p : Ponger) (w : PollWorld) : Option Ponger :=
  match p.keep_alive with
  | some ka =>
    (ka.schedule w.is_idle p.shared).bind fun ka ↦
      (ka.maybe_ping w.now p.shared w.sent).map fun (ka, shared) ↦ { p with keep_alive := some ka, shared }
  | none => some p

/-- A pong in `Ponger::poll`: the BDP part takes the sample, and the keep-alive takes the pong as
a read and schedules its next ping.  The two touch different fields, so the BDP part runs first
here, where the source runs it after the keep-alive. -/
def on_pong (p : Ponger) (w : PollWorld) : Option (Poll Ponged × Ponger) :=
  (H2.Ponger.poll ⟨p.bdp, p.shared.toShared⟩ w.now .ok w.slower).bind fun (r, q) ↦
    let r := Ponged.fromBdp r
    let shared : Shared := { p.shared with toShared := q.shared }
    match p.keep_alive with
    | some ka =>
      let shared := shared.update_last_read_at w.now
      (ka.schedule w.is_idle shared).map fun ka ↦ (r, ⟨q.bdp, some ka, shared⟩)
    | none => some (r, ⟨q.bdp, none, shared⟩)

/-- `Ponger::poll` with the `runtime` feature: the keep-alive's turn; then, with a ping out, the
pong, or the keep-alive's timeout while it has not come. -/
def poll (p : Ponger) (w : PollWorld) : Option (Poll Ponged × Ponger) :=
  (p.keep_alive_turn w).bind fun p ↦
    if !p.shared.is_ping_sent then some (.pending, p)
    else
      match w.pong with
      | .ok => p.on_pong w
      | .error => some (.pending, p)
      | .pending =>
        match p.keep_alive with
        | some ka =>
          match ka.maybe_timeout w.now with
          | .error _ =>
            some (.ready .KeepAliveTimedOut,
              { p with keep_alive := none, shared := { p.shared with is_keep_alive_timed_out := true } })
          | .ok () => some (.pending, p)
        | none => some (.pending, p)

end Ponger

/-! ## What each part of a poll can do -/

namespace Shared

@[simp] theorem update_last_read_at_toShared (s : Shared) (now : Instant) :
    (s.update_last_read_at now).toShared = s.toShared := by
  unfold update_last_read_at
  split <;> rfl

@[simp] theorem update_last_read_at_timed_out (s : Shared) (now : Instant) :
    (s.update_last_read_at now).is_keep_alive_timed_out = s.is_keep_alive_timed_out := by
  unfold update_last_read_at
  split <;> rfl

@[simp] theorem update_last_read_at_last_read_at (s : Shared) (now : Instant) :
    (s.update_last_read_at now).last_read_at = s.last_read_at.map fun _ ↦ now := by
  unfold update_last_read_at
  rcases h : s.last_read_at with _ | t <;> simp [h]

theorem record_data_last_read_at {s s' : Shared} {now len : ℕ} {sent : Bool}
    (h : s.record_data now len sent = some s') :
    s'.last_read_at = s.last_read_at.map (fun _ ↦ now) ∧
      s'.is_keep_alive_timed_out = s.is_keep_alive_timed_out := by
  unfold record_data at h
  obtain ⟨b, -, rfl⟩ := Option.map_eq_some_iff.mp h
  simp

end Shared

namespace KeepAlive

/-- What `schedule` can do. -/
inductive Schedules (ka : KeepAlive) (is_idle : Bool) (shared : Shared) : KeepAlive → Prop
  /-- an idle connection that is not pinged while idle is left as it is -/
  | idle : ka.state = .Init → (!ka.while_idle && is_idle) = true → Schedules ka is_idle shared ka
  /-- the timer is set `interval` after the last read -/
  | start {lr : Instant} : ka.state = .Init → (!ka.while_idle && is_idle) = false →
      shared.last_read_at = some lr →
      Schedules ka is_idle shared { ka with state := .Scheduled, timer := lr + ka.interval }
  /-- the ping sent is still out -/
  | waiting : ka.state = .PingSent → shared.is_ping_sent = true → Schedules ka is_idle shared ka
  /-- the ping was answered: the timer is set `interval` after the last read -/
  | answered {lr : Instant} : ka.state = .PingSent → shared.is_ping_sent = false →
      shared.last_read_at = some lr →
      Schedules ka is_idle shared { ka with state := .Scheduled, timer := lr + ka.interval }
  /-- the timer runs -/
  | running : ka.state = .Scheduled → Schedules ka is_idle shared ka

theorem schedule_cases {ka ka' : KeepAlive} {is_idle : Bool} {shared : Shared}
    (h : ka.schedule is_idle shared = some ka') : Schedules ka is_idle shared ka' := by
  unfold schedule at h
  rcases hs : ka.state <;> rw [hs] at h <;> dsimp only at h
  · by_cases hi : (!ka.while_idle && is_idle) = true
    · rw [if_pos hi] at h
      cases h
      exact .idle hs hi
    · rw [if_neg hi] at h
      obtain ⟨lr, hlr, rfl⟩ := Option.map_eq_some_iff.mp h
      exact .start hs (eq_false_of_ne_true hi) hlr
  · cases h
    exact .running hs
  · by_cases hp : shared.is_ping_sent = true
    · rw [if_pos hp] at h
      cases h
      exact .waiting hs hp
    · rw [if_neg hp] at h
      obtain ⟨lr, hlr, rfl⟩ := Option.map_eq_some_iff.mp h
      exact .answered hs (eq_false_of_ne_true hp) hlr

/-- What `maybe_ping` can do. -/
inductive Pings (ka : KeepAlive) (now : Instant) (shared : Shared) (sent : Bool) :
    KeepAlive → Shared → Prop
  /-- nothing runs -/
  | idle : ka.state ≠ .Scheduled → Pings ka now shared sent ka shared
  /-- the timer has not fired -/
  | running : ka.state = .Scheduled → now < ka.timer → Pings ka now shared sent ka shared
  /-- a frame was read while the timer ran: start over -/
  | reset {lr : Instant} : ka.state = .Scheduled → ka.timer ≤ now → shared.last_read_at = some lr →
      ka.timer < lr + ka.interval → Pings ka now shared sent { ka with state := .Init } shared
  /-- no frame for `interval`: a ping, and the timer set `timeout` from now -/
  | ping {lr : Instant} : ka.state = .Scheduled → ka.timer ≤ now → shared.last_read_at = some lr →
      lr + ka.interval ≤ ka.timer →
      Pings ka now shared sent { ka with state := .PingSent, timer := now + ka.timeout }
        { shared with toShared := shared.toShared.send_ping now sent }

theorem maybe_ping_cases {ka ka' : KeepAlive} {now : Instant} {shared shared' : Shared} {sent : Bool}
    (h : ka.maybe_ping now shared sent = some (ka', shared')) : Pings ka now shared sent ka' shared' := by
  unfold maybe_ping at h
  rcases hs : ka.state <;> rw [hs] at h <;> dsimp only at h
  · obtain ⟨rfl, rfl⟩ := Prod.mk.inj (Option.some.inj h)
    exact .idle (by rw [hs]; decide)
  · by_cases hn : now < ka.timer
    · rw [if_pos hn] at h
      obtain ⟨rfl, rfl⟩ := Prod.mk.inj (Option.some.inj h)
      exact .running hs hn
    rw [if_neg hn] at h
    split at h
    · cases h
    rename_i lr hlr
    by_cases hr : lr + ka.interval > ka.timer
    · rw [if_pos hr] at h
      obtain ⟨rfl, rfl⟩ := Prod.mk.inj (Option.some.inj h)
      exact .reset hs (Nat.le_of_not_lt hn) hlr hr
    · rw [if_neg hr] at h
      obtain ⟨rfl, rfl⟩ := Prod.mk.inj (Option.some.inj h)
      exact .ping hs (Nat.le_of_not_lt hn) hlr (Nat.le_of_not_lt hr)
  · obtain ⟨rfl, rfl⟩ := Prod.mk.inj (Option.some.inj h)
    exact .idle (by rw [hs]; decide)

/-- `maybe_ping` touches `Shared` only to send a ping. -/
theorem Pings.shared_eq {ka ka' : KeepAlive} {now : Instant} {shared shared' : Shared} {sent : Bool}
    (h : Pings ka now shared sent ka' shared') :
    shared'.last_read_at = shared.last_read_at ∧
      shared'.is_keep_alive_timed_out = shared.is_keep_alive_timed_out := by
  cases h <;> exact ⟨rfl, rfl⟩

/-- Only a timer that is not running is left alone by `maybe_ping`. -/
theorem Pings.eq_of_ne_scheduled {ka ka' : KeepAlive} {now : Instant} {shared shared' : Shared}
    {sent : Bool} (h : Pings ka now shared sent ka' shared') (hs : ka.state ≠ .Scheduled) :
    ka' = ka ∧ shared' = shared := by
  cases h with
  | idle _ => exact ⟨rfl, rfl⟩
  | running hs' _ | reset hs' _ _ _ | ping hs' _ _ _ => exact absurd hs' hs

/-- An idle connection that is not pinged while idle does not start the timer. -/
theorem Schedules.eq_of_idle {ka ka' : KeepAlive} {is_idle : Bool} {shared : Shared}
    (h : Schedules ka is_idle shared ka') (hs : ka.state = .Init)
    (hi : (!ka.while_idle && is_idle) = true) : ka' = ka := by
  cases h with
  | idle _ _ | waiting _ _ | running _ => rfl
  | start _ hi' _ => rw [hi] at hi'; cases hi'
  | answered hs' _ _ => rw [hs] at hs'; cases hs'

/-- With no ping out, `schedule` never waits on one. -/
theorem Schedules.state_ne_pingSent {ka ka' : KeepAlive} {is_idle : Bool} {shared : Shared}
    (h : Schedules ka is_idle shared ka') (hp : shared.is_ping_sent = false) :
    ka'.state ≠ .PingSent := by
  cases h with
  | idle hs _ => rw [hs]; decide
  | start _ _ _ | answered _ _ _ => simp
  | waiting _ hp' => rw [hp] at hp'; cases hp'
  | running hs => rw [hs]; decide

/-- The timeout is that of a ping whose timer has fired. -/
theorem maybe_timeout_error {ka : KeepAlive} {now : Instant} {e : KeepAliveTimedOut}
    (h : ka.maybe_timeout now = .error e) : ka.state = .PingSent ∧ ka.timer ≤ now := by
  unfold maybe_timeout at h
  rcases hs : ka.state <;> rw [hs] at h <;> dsimp only at h
  · cases h
  · cases h
  · by_cases hlt : now < ka.timer
    · rw [if_pos hlt] at h
      cases h
    · exact ⟨rfl, Nat.le_of_not_lt hlt⟩

end KeepAlive

namespace Ponger

/-- What the keep-alive's turn can do. -/
theorem keep_alive_turn_cases {p q : Ponger} {w : PollWorld} (h : p.keep_alive_turn w = some q) :
    (p.keep_alive = none ∧ q = p) ∨
      ∃ ka ka₁ ka₂ shared, p.keep_alive = some ka ∧ KeepAlive.Schedules ka w.is_idle p.shared ka₁ ∧
        KeepAlive.Pings ka₁ w.now p.shared w.sent ka₂ shared ∧ q = { p with keep_alive := some ka₂, shared } := by
  unfold keep_alive_turn at h
  rcases hka : p.keep_alive with _ | ka <;> rw [hka] at h <;> dsimp only at h
  · exact .inl ⟨rfl, (Option.some.inj h).symm⟩
  · obtain ⟨ka₁, h₁, h₂⟩ := Option.bind_eq_some_iff.mp h
    obtain ⟨⟨ka₂, shared⟩, h₃, rfl⟩ := Option.map_eq_some_iff.mp h₂
    exact .inr ⟨ka, ka₁, ka₂, shared, rfl, KeepAlive.schedule_cases h₁, KeepAlive.maybe_ping_cases h₃, rfl⟩

/-- What a pong can do to the keep-alive and to the keep-alive part of `Shared`: it is a read, and
the keep-alive schedules its next ping with the ping answered. -/
theorem on_pong_cases {p p' : Ponger} {w : PollWorld} {r : Poll Ponged} (hp : p.shared.is_ping_sent = true)
    (h : p.on_pong w = some (r, p')) :
    (p.keep_alive = none ∧ p'.keep_alive = none ∧ p'.shared.last_read_at = p.shared.last_read_at) ∨
      ∃ ka ka', p.keep_alive = some ka ∧ p'.keep_alive = some ka' ∧
        p'.shared.last_read_at = p.shared.last_read_at.map (fun _ ↦ w.now) ∧
        p'.shared.is_ping_sent = false ∧ KeepAlive.Schedules ka w.is_idle p'.shared ka' := by
  unfold on_pong at h
  obtain ⟨⟨r₀, q⟩, hq, h⟩ := Option.bind_eq_some_iff.mp h
  rcases hka : p.keep_alive with _ | ka <;> rw [hka] at h <;> dsimp only at h
  · obtain ⟨-, rfl⟩ := Prod.mk.inj (Option.some.inj h)
    exact .inl ⟨rfl, rfl, rfl⟩
  · obtain ⟨ka', hs, hf⟩ := Option.map_eq_some_iff.mp h
    obtain ⟨-, rfl⟩ := Prod.mk.inj hf
    have hq' : q.shared.ping_sent_at = none := H2.Ponger.poll_ok_answered hp hq
    refine .inr ⟨ka, ka', rfl, rfl, by simp, ?_, KeepAlive.schedule_cases hs⟩
    simp [H2.Shared.is_ping_sent, hq']


/-- A pong never reports a timeout. -/
theorem on_pong_ne_timed_out {p p' : Ponger} {w : PollWorld} {r : Poll Ponged}
    (h : p.on_pong w = some (r, p')) : r ≠ .ready .KeepAliveTimedOut := by
  unfold on_pong at h
  obtain ⟨⟨r₀, q⟩, -, h⟩ := Option.bind_eq_some_iff.mp h
  dsimp only at h
  -- the answer is the BDP part's, which knows no timeout
  have hr : r = Ponged.fromBdp r₀ := by
    rcases hka : p.keep_alive with _ | ka <;> rw [hka] at h <;> dsimp only at h
    · exact (Prod.mk.inj (Option.some.inj h)).1.symm
    · obtain ⟨_, -, hf⟩ := Option.map_eq_some_iff.mp h
      exact (Prod.mk.inj hf).1.symm
  rw [hr]
  rcases r₀ with ⟨⟨wnd⟩⟩ | _ <;> simp [Ponged.fromBdp]

/-- What a poll can do once the keep-alive's turn has left the task at `q`. -/
inductive Polls (q : Ponger) (w : PollWorld) : Poll Ponged → Ponger → Prop
  /-- no ping is out: nothing to wait for -/
  | no_ping : q.shared.is_ping_sent = false → Polls q w .pending q
  /-- the pong -/
  | pong {r : Poll Ponged} {p' : Ponger} : q.shared.is_ping_sent = true → w.pong = .ok →
      q.on_pong w = some (r, p') → Polls q w r p'
  /-- `poll_pong` failed -/
  | pong_error : q.shared.is_ping_sent = true → w.pong = .error → Polls q w .pending q
  /-- no pong yet, and no timeout -/
  | waiting : q.shared.is_ping_sent = true → w.pong = .pending →
      (∀ ka, q.keep_alive = some ka → ka.maybe_timeout w.now = .ok ()) → Polls q w .pending q
  /-- no pong `timeout` after the keep-alive's ping: the keep-alive is dropped -/
  | timed_out {ka : KeepAlive} : q.shared.is_ping_sent = true → w.pong = .pending →
      q.keep_alive = some ka → ka.maybe_timeout w.now = .error ⟨⟩ →
      Polls q w (.ready .KeepAliveTimedOut)
        { q with keep_alive := none, shared := { q.shared with is_keep_alive_timed_out := true } }

theorem poll_cases {p p' : Ponger} {w : PollWorld} {r : Poll Ponged} (h : p.poll w = some (r, p')) :
    ∃ q, p.keep_alive_turn w = some q ∧ Polls q w r p' := by
  unfold poll at h
  obtain ⟨q, hq, h⟩ := Option.bind_eq_some_iff.mp h
  refine ⟨q, hq, ?_⟩
  by_cases hp : q.shared.is_ping_sent = true
  · rw [hp, Bool.not_true, if_neg Bool.false_ne_true] at h
    rcases hpong : w.pong <;> rw [hpong] at h <;> dsimp only at h
    · exact .pong hp hpong h
    · obtain ⟨rfl, rfl⟩ := Prod.mk.inj (Option.some.inj h)
      exact .pong_error hp hpong
    · rcases hka : q.keep_alive with _ | ka <;> rw [hka] at h <;> dsimp only at h
      · obtain ⟨rfl, rfl⟩ := Prod.mk.inj (Option.some.inj h)
        exact .waiting hp hpong (fun _ h' ↦ by rw [hka] at h'; cases h')
      · rcases ht : ka.maybe_timeout w.now with ⟨⟨⟩⟩ | ⟨⟨⟩⟩ <;> rw [ht] at h <;> dsimp only at h <;>
          obtain ⟨rfl, rfl⟩ := Prod.mk.inj (Option.some.inj h)
        · exact .timed_out hp hpong hka ht
        · exact .waiting hp hpong (fun ka' h' ↦ by rw [hka] at h'; cases h'; exact ht)
  · have hn : q.shared.is_ping_sent = false := eq_false_of_ne_true hp
    rw [hn, Bool.not_false, if_pos rfl] at h
    obtain ⟨rfl, rfl⟩ := Prod.mk.inj (Option.some.inj h)
    exact .no_ping hn

end Ponger

/-! ## Runs of the ping task -/

/-- What happens to the ping task: a frame the connection reads, recorded by its `Recorder`
(`record_data` for DATA, with whether the BDP ping it may send goes out, `record_non_data` for
the others), or a poll of the `Ponger`. -/
inductive Event where
  | data (now : Instant) (len : ℕ) (sent : Bool)
  | non_data (now : Instant)
  | poll (w : PollWorld)
  deriving DecidableEq, Repr

/-- When an event happens. -/
def Event.now : Event → Instant
  | .data now _ _ => now
  | .non_data now => now
  | .poll w => w.now

/-- What an event does to the ping task; `none` is a panic. -/
def Ponger.apply (p : Ponger) : Event → Option Ponger
  | .data now len sent => (p.shared.record_data now len sent).map fun shared ↦ { p with shared }
  | .non_data now => some { p with shared := p.shared.record_non_data now }
  | .poll w => (p.poll w).map Prod.snd

/-- A step of the ping task, with the time of the last step: an event no earlier than it. -/
inductive Step : Event → Ponger × Instant → Ponger × Instant → Prop
  | mk {e : Event} {p p' : Ponger} {t : Instant} : t ≤ e.now → p.apply e = some p' →
      Step e (p, t) (p', e.now)

/-- The states of a ping task that `channel` made at some time, each with the time of its last
step. -/
def Reachable (config : ping.Config) (kc : KeepAliveConfig) (s : Ponger × Instant) : Prop :=
  ∃ now, Relation.ReflTransGen (fun a b ↦ ∃ e, Step e a b) (channel config kc now, now) s

/-- A frame read leaves the keep-alive alone and records the read. -/
theorem read_step {e : Event} {p p' : Ponger} (he : ∀ w, e ≠ .poll w) (h : p.apply e = some p') :
    p'.keep_alive = p.keep_alive ∧ p'.shared.last_read_at = p.shared.last_read_at.map (fun _ ↦ e.now) ∧
      p'.shared.is_keep_alive_timed_out = p.shared.is_keep_alive_timed_out := by
  cases e with
  | data now len sent =>
    obtain ⟨shared, hs, rfl⟩ := Option.map_eq_some_iff.mp h
    exact ⟨rfl, Shared.record_data_last_read_at hs⟩
  | non_data now =>
    cases h
    exact ⟨rfl, by simp [Shared.record_non_data, Event.now], by simp [Shared.record_non_data]⟩
  | poll w => exact absurd rfl (he w)

/-- What a step can do: a poll, or a frame read that leaves the keep-alive alone and records the
read. -/
theorem Step.cases {e : Event} {s s' : Ponger × Instant} (h : Step e s s') :
    s.2 ≤ e.now ∧ s'.2 = e.now ∧
      ((∃ w r, e = .poll w ∧ s.1.poll w = some (r, s'.1)) ∨
        (s'.1.keep_alive = s.1.keep_alive ∧
          s'.1.shared.last_read_at = s.1.shared.last_read_at.map (fun _ ↦ e.now))) := by
  cases h with
  | mk ht ha =>
  refine ⟨ht, rfl, ?_⟩
  cases e with
  | poll w =>
    obtain ⟨⟨r, p'⟩, hp, rfl⟩ := Option.map_eq_some_iff.mp ha
    exact .inl ⟨w, r, rfl, hp⟩
  | data _ _ _ | non_data _ =>
    obtain ⟨hka, hlr, -⟩ := read_step (fun _ h ↦ by cases h) ha
    exact .inr ⟨hka, hlr⟩

/-! ## The invariant -/

/-- What holds of every reachable state of a ping task. -/
structure Inv (s : Ponger × Instant) : Prop where
  /-- with the keep-alive on, the last frame was read no later than now -/
  read : ∀ ka, s.1.keep_alive = some ka → ∃ lr, s.1.shared.last_read_at = some lr ∧ lr ≤ s.2
  /-- a running timer was set `interval` after a read no later than the last one -/
  scheduled : ∀ ka, s.1.keep_alive = some ka → ka.state = .Scheduled →
    ∃ lr, s.1.shared.last_read_at = some lr ∧ ka.timer ≤ lr + ka.interval
  /-- the timer of a ping was set `timeout` after a time no later than now -/
  ping_sent : ∀ ka, s.1.keep_alive = some ka → ka.state = .PingSent → ka.timer ≤ s.2 + ka.timeout

theorem inv_channel (config : ping.Config) (kc : KeepAliveConfig) (now : Instant) :
    Inv (channel config kc now, now) where
  read ka h := by
    obtain ⟨interval, hi, rfl⟩ := Option.map_eq_some_iff.mp h
    exact ⟨now, by simp [channel, hi], le_rfl⟩
  scheduled ka h hs := by
    obtain ⟨interval, -, rfl⟩ := Option.map_eq_some_iff.mp h
    cases hs
  ping_sent ka h hs := by
    obtain ⟨interval, -, rfl⟩ := Option.map_eq_some_iff.mp h
    cases hs

namespace Inv

variable {p q : Ponger} {t : Instant}

/-- Without a keep-alive there is nothing to keep. -/
theorem of_off {s : Ponger × Instant} (h : s.1.keep_alive = none) : Inv s where
  read _ hk := by rw [h] at hk; cases hk
  scheduled _ hk := by rw [h] at hk; cases hk
  ping_sent _ hk := by rw [h] at hk; cases hk

/-- Time passing keeps the invariant. -/
theorem later (h : Inv (p, t)) {t' : Instant} (ht : t ≤ t') : Inv (p, t') where
  read ka hka := by
    obtain ⟨lr, hlr, hle⟩ := h.read ka hka
    exact ⟨lr, hlr, hle.trans ht⟩
  scheduled := h.scheduled
  ping_sent ka hka hs := by
    have := h.ping_sent ka hka hs
    dsimp only at this ⊢
    unfold Instant Duration at *
    omega

/-- A read at `now` keeps the invariant. -/
theorem read_at (h : Inv (p, t)) {now : Instant} (ht : t ≤ now) (hka : q.keep_alive = p.keep_alive)
    (hlr : q.shared.last_read_at = p.shared.last_read_at.map (fun _ ↦ now)) : Inv (q, now) where
  read ka hk := by
    obtain ⟨lr, hlr', -⟩ := h.read ka (hka ▸ hk)
    exact ⟨now, by rw [hlr, hlr']; rfl, le_rfl⟩
  scheduled ka hk hs := by
    obtain ⟨lr, hlr', hle⟩ := h.read ka (hka ▸ hk)
    obtain ⟨lr', hlr'', htimer⟩ := h.scheduled ka (hka ▸ hk) hs
    rw [hlr''] at hlr'
    cases hlr'
    -- the new read is later than the one the timer was set from
    dsimp only at hle
    unfold Instant Duration at *
    exact ⟨now, by rw [hlr, hlr'']; rfl, by omega⟩
  ping_sent ka hk hs := (h.later ht).ping_sent ka (hka ▸ hk) hs

/-- The keep-alive's turn keeps the invariant. -/
theorem turn (h : Inv (p, t)) {w : PollWorld} (ht : t ≤ w.now) (hq : p.keep_alive_turn w = some q) :
    Inv (q, w.now) := by
  rcases Ponger.keep_alive_turn_cases hq with ⟨-, rfl⟩ | ⟨ka, ka₁, ka₂, shared, hka, hs, hp, rfl⟩
  · exact h.later ht
  obtain ⟨hlr, -⟩ := hp.shared_eq
  obtain ⟨lr, hlr₀, hle⟩ := h.read ka hka
  refine ⟨fun ka' hk ↦ ?_, fun ka' hk hst ↦ ?_, fun ka' hk hst ↦ ?_⟩ <;> cases hk
  · exact ⟨lr, by rw [hlr, hlr₀], hle.trans ht⟩
  · -- a running timer is the one `schedule` set, or was already running
    cases hp with
    | idle hne => exact absurd hst hne
    | running _ _ =>
      rw [hlr]
      cases hs with
      | idle hi _ | waiting hi _ => rw [hi] at hst; cases hst
      | start _ _ hlr' | answered _ _ hlr' => exact ⟨_, hlr', le_rfl⟩
      | running _ => exact h.scheduled ka hka hst
    | reset _ _ _ _ => cases hst
    | ping _ _ _ _ => cases hst
  · -- a ping's timer is the one `maybe_ping` set, or one that was already running
    cases hp with
    | idle _ =>
      cases hs with
      | idle hi _ | running hi => rw [hi] at hst; cases hst
      | start _ _ _ | answered _ _ _ => cases hst
      | waiting _ _ =>
        have := h.ping_sent ka hka hst
        dsimp only at this ⊢
        unfold Instant Duration at *
        omega
    | running hi _ => rw [hi] at hst; cases hst
    | reset _ _ _ _ => cases hst
    | ping _ _ _ _ => exact le_rfl

/-- A pong keeps the invariant. -/
theorem on_pong (h : Inv (q, t)) {w : PollWorld} (ht : t = w.now) (hp : q.shared.is_ping_sent = true)
    {r : Poll Ponged} {p' : Ponger} (ho : q.on_pong w = some (r, p')) : Inv (p', t) := by
  rcases Ponger.on_pong_cases hp ho with ⟨-, hk, -⟩ | ⟨ka, ka', hka, hk, hlr, hn, hs⟩
  · exact of_off hk
  obtain ⟨lr, hlr₀, hle⟩ := h.read ka hka
  have hlr' : p'.shared.last_read_at = some w.now := by rw [hlr, hlr₀]; rfl
  refine ⟨fun ka'' hk' ↦ ?_, fun ka'' hk' hst ↦ ?_, fun ka'' hk' hst ↦ ?_⟩ <;> rw [hk] at hk' <;>
    cases hk'
  · exact ⟨w.now, hlr', ht.ge⟩
  · -- the pong is the last read: the timer runs from it, or from an earlier one
    cases hs with
    | idle hi _ | waiting hi _ => rw [hi] at hst; cases hst
    | start _ _ hl | answered _ _ hl => exact ⟨_, hl, le_rfl⟩
    | running hst' =>
      obtain ⟨lr', hlr'', htimer⟩ := h.scheduled ka hka hst'
      rw [hlr₀] at hlr''
      cases hlr''
      unfold Instant Duration at *
      exact ⟨w.now, hlr', by omega⟩
  · -- an answered ping is not waited on
    cases hs with
    | waiting _ hp' => rw [hn] at hp'; cases hp'
    | idle hi _ | running hi => rw [hi] at hst; cases hst
    | start _ _ _ | answered _ _ _ => cases hst

/-- A poll keeps the invariant. -/
theorem poll (h : Inv (p, t)) {w : PollWorld} (ht : t ≤ w.now) {r : Poll Ponged} {p' : Ponger}
    (hp : p.poll w = some (r, p')) : Inv (p', w.now) := by
  obtain ⟨q, hq, hcases⟩ := Ponger.poll_cases hp
  have hi := h.turn ht hq
  cases hcases with
  | no_ping _ | pong_error _ _ | waiting _ _ _ => exact hi
  | pong hp' _ ho => exact hi.on_pong rfl hp' ho
  | timed_out _ _ _ _ => exact of_off rfl

end Inv

/-- Every step keeps the invariant. -/
theorem Inv.step {e : Event} {s s' : Ponger × Instant} (h : Inv s) (hs : Step e s s') : Inv s' := by
  obtain ⟨ht, ht', hcases⟩ := hs.cases
  obtain ⟨p', t'⟩ := s'
  dsimp only at ht'
  subst ht'
  rcases hcases with ⟨w, r, rfl, hp⟩ | ⟨hka, hlr⟩
  · exact h.poll ht hp
  · exact h.read_at ht hka hlr

theorem Reachable.inv {config : ping.Config} {kc : KeepAliveConfig} {s : Ponger × Instant}
    (h : Reachable config kc s) : Inv s := by
  obtain ⟨now, hrun⟩ := h
  exact Runs.stable Inv (fun _ _ ⟨_, hs⟩ hi ↦ hi.step hs) hrun (inv_channel config kc now)

/-! ## A dead peer is found -/

namespace Ponger

/-- Polls one after another, with no frame read between them: what each returns, and the task
after the last. -/
def polls (p : Ponger) : List PollWorld → Option (List (Poll Ponged) × Ponger)
  | [] => some ([], p)
  | w :: ws => (p.poll w).bind fun (r, q) ↦ (q.polls ws).map fun (rs, q) ↦ (r :: rs, q)

theorem polls_cons {p q : Ponger} {w : PollWorld} {r : Poll Ponged} (ws : List PollWorld)
    (h : p.poll w = some (r, q)) : p.polls (w :: ws) = (q.polls ws).map fun x ↦ (r :: x.1, x.2) := by
  rw [polls, h, Option.bind_some]

/-- A timeout is reported with the keep-alive dropped. -/
theorem poll_timed_out_off {p p' : Ponger} {w : PollWorld}
    (h : p.poll w = some (.ready .KeepAliveTimedOut, p')) : p'.keep_alive = none := by
  obtain ⟨q, -, hcases⟩ := poll_cases h
  cases hcases with
  | pong _ _ ho => exact absurd rfl (on_pong_ne_timed_out ho)
  | timed_out _ _ _ _ => rfl

/-- Without the keep-alive, a poll with no pong changes nothing. -/
theorem poll_off {p : Ponger} {w : PollWorld} (hka : p.keep_alive = none) (hw : w.pong = .pending) :
    p.poll w = some (.pending, p) := by
  have hturn : p.keep_alive_turn w = some p := by rw [keep_alive_turn, hka]
  unfold poll
  rw [hturn, Option.bind_some]
  cases hp : p.shared.is_ping_sent
  · rfl
  · simp only [Bool.not_true, Bool.false_eq_true, if_false, hw, hka]

theorem polls_off {p : Ponger} (hka : p.keep_alive = none) :
    ∀ ws : List PollWorld, (∀ w ∈ ws, w.pong = .pending) → ∃ rs, p.polls ws = some (rs, p)
  | [], _ => ⟨[], rfl⟩
  | w :: ws, hw => by
    obtain ⟨rs, hrs⟩ := polls_off hka ws fun w' hw' ↦ hw w' (List.mem_cons_of_mem _ hw')
    exact ⟨.pending :: rs, by rw [polls_cons ws (poll_off hka (hw w List.mem_cons_self)), hrs]; rfl⟩

/-- The polls after one that reports the timeout come back too. -/
theorem polls_of_timed_out {p p' : Ponger} {w : PollWorld} (ws : List PollWorld)
    (h : p.poll w = some (.ready .KeepAliveTimedOut, p')) (hws : ∀ w ∈ ws, w.pong = .pending) :
    ∃ rs q, p.polls (w :: ws) = some (rs, q) ∧ .ready .KeepAliveTimedOut ∈ rs := by
  obtain ⟨rs, hrs⟩ := polls_off (poll_timed_out_off h) ws hws
  exact ⟨_, p', by rw [polls_cons ws h, hrs]; rfl, List.mem_cons_self⟩

theorem polls_cons_of_mem {p q : Ponger} {w : PollWorld} {r : Poll Ponged} {ws : List PollWorld}
    (h : p.poll w = some (r, q))
    (hrest : ∃ rs q', q.polls ws = some (rs, q') ∧ .ready .KeepAliveTimedOut ∈ rs) :
    ∃ rs q', p.polls (w :: ws) = some (rs, q') ∧ .ready .KeepAliveTimedOut ∈ rs := by
  obtain ⟨rs, q', hrs, hmem⟩ := hrest
  exact ⟨r :: rs, q', by rw [polls_cons ws h, hrs]; rfl, List.mem_cons_of_mem _ hmem⟩

/-- The keep-alive's turn leaves a keep-alive that waits on its ping, with the ping out, as it
is. -/
theorem keep_alive_turn_waiting {p : Ponger} {ka : KeepAlive} {w : PollWorld} (hka : p.keep_alive = some ka)
    (hs : ka.state = .PingSent) (hp : p.shared.is_ping_sent = true) : p.keep_alive_turn w = some p := by
  have h₁ : ka.schedule w.is_idle p.shared = some ka := by simp [KeepAlive.schedule, hs, hp]
  have h₂ : ka.maybe_ping w.now p.shared w.sent = some (ka, p.shared) := by
    simp [KeepAlive.maybe_ping, hs]
  rw [keep_alive_turn, hka]
  dsimp only
  rw [h₁, Option.bind_some, h₂, Option.map_some, ← hka]

/-- A keep-alive that waits on its ping, with the ping out and no pong, times out once its timer
has fired, and nothing changes before. -/
theorem poll_waiting {p : Ponger} {ka : KeepAlive} {w : PollWorld} (hka : p.keep_alive = some ka)
    (hs : ka.state = .PingSent) (hp : p.shared.is_ping_sent = true) (hw : w.pong = .pending) :
    (w.now < ka.timer ∧ p.poll w = some (.pending, p)) ∨
      (ka.timer ≤ w.now ∧ ∃ p', p.poll w = some (.ready .KeepAliveTimedOut, p')) := by
  unfold poll
  rw [keep_alive_turn_waiting hka hs hp, Option.bind_some, hp, Bool.not_true, if_neg Bool.false_ne_true, hw]
  dsimp only
  rw [hka]
  dsimp only
  unfold KeepAlive.maybe_timeout
  rw [hs]
  dsimp only
  by_cases hlt : w.now < ka.timer
  · exact .inl ⟨hlt, by rw [if_pos hlt]⟩
  · exact .inr ⟨Nat.le_of_not_lt hlt, _, by rw [if_neg hlt]⟩

/-- Polls with no pong, while the keep-alive waits on its ping with the ping out, report the
timeout by the first one at or after its timer. -/
theorem polls_waiting {ka : KeepAlive} (hs : ka.state = .PingSent) :
    ∀ {p : Ponger} (ws : List PollWorld), p.keep_alive = some ka → p.shared.is_ping_sent = true →
      (∀ w ∈ ws, w.pong = .pending) → (∃ w ∈ ws, ka.timer ≤ w.now) →
      ∃ rs p', p.polls ws = some (rs, p') ∧ .ready .KeepAliveTimedOut ∈ rs
  | _, [], _, _, _, ⟨_, hw, _⟩ => absurd hw List.not_mem_nil
  | p, w :: ws, hka, hp, hws, ⟨w', hw', hle⟩ => by
    have hrest : ∀ w ∈ ws, w.pong = .pending := fun w hw ↦ hws w (List.mem_cons_of_mem _ hw)
    rcases poll_waiting hka hs hp (hws w List.mem_cons_self) with ⟨hlt, hpoll⟩ | ⟨-, p', hpoll⟩
    · -- the timer has not fired: the one that is at or after it is still to come
      have hin : w' ∈ ws := by
        rcases List.mem_cons.mp hw' with rfl | hin
        · exact absurd hle (Nat.not_le_of_lt hlt)
        · exact hin
      exact polls_cons_of_mem hpoll (polls_waiting hs ws hka hp hrest ⟨w', hin, hle⟩)
    · exact polls_of_timed_out ws hpoll hrest

/-- A poll that finds the timer to be set `interval` after the last read, and fired: a ping goes
out, and the keep-alive waits on it from now on, unless it times out at once. -/
theorem poll_pings {p : Ponger} {ka ka₁ : KeepAlive} {w : PollWorld} {lr : Instant}
    (hka : p.keep_alive = some ka) (h₁ : ka.schedule w.is_idle p.shared = some ka₁)
    (hs₁ : ka₁.state = .Scheduled) (hlr : p.shared.last_read_at = some lr) (ht₁ : ka₁.timer = lr + ka₁.interval)
    (hnow : ka₁.timer ≤ w.now) (hsent : w.sent = true) (hw : w.pong = .pending) :
    ∃ p', p.poll w = some (.ready .KeepAliveTimedOut, p') ∨
      (p.poll w = some (.pending, p') ∧
        p'.keep_alive = some { ka₁ with state := .PingSent, timer := w.now + ka₁.timeout } ∧
        p'.shared.is_ping_sent = true) := by
  have h₂ : ka₁.maybe_ping w.now p.shared w.sent = some ({ ka₁ with state := .PingSent, timer := w.now + ka₁.timeout },
      { p.shared with toShared := p.shared.toShared.send_ping w.now w.sent }) := by
    unfold KeepAlive.maybe_ping
    rw [hs₁]
    dsimp only
    rw [if_neg (Nat.not_lt_of_le hnow), hlr]
    dsimp only
    rw [if_neg (by rw [ht₁]; exact lt_irrefl _)]
  have hturn : p.keep_alive_turn w = some { p with
      keep_alive := some { ka₁ with state := .PingSent, timer := w.now + ka₁.timeout },
      shared := { p.shared with toShared := p.shared.toShared.send_ping w.now w.sent } } := by
    rw [keep_alive_turn, hka]
    dsimp only
    rw [h₁, Option.bind_some, h₂, Option.map_some]
  -- the ping is out
  have hp : (p.shared.toShared.send_ping w.now w.sent).is_ping_sent = true := by
    simp [hsent, H2.Shared.send_ping, H2.Shared.is_ping_sent]
  unfold poll
  rw [hturn, Option.bind_some]
  dsimp only
  rw [hp, Bool.not_true, if_neg Bool.false_ne_true, hw]
  dsimp only
  unfold KeepAlive.maybe_timeout
  dsimp only
  by_cases hlt : w.now < w.now + ka₁.timeout
  · rw [if_pos hlt]
    exact ⟨_, .inr ⟨rfl, rfl, hp⟩⟩
  · rw [if_neg hlt]
    exact ⟨_, .inl rfl⟩

/-- A poll that sends the keep-alive's ping, followed by polls with no pong, one of them
`timeout` after it: the timeout is reported. -/
theorem polls_of_ping {p : Ponger} {ka : KeepAlive} (ka₁ : KeepAlive) {w : PollWorld} {lr : Instant}
    (ws : List PollWorld) (hka : p.keep_alive = some ka) (h₁ : ka.schedule w.is_idle p.shared = some ka₁)
    (hs₁ : ka₁.state = .Scheduled) (hlr : p.shared.last_read_at = some lr) (ht₁ : ka₁.timer = lr + ka₁.interval)
    (hnow : ka₁.timer ≤ w.now) (hsent : w.sent = true) (hw : w.pong = .pending)
    (hws : ∀ w' ∈ ws, w'.pong = .pending) (hlate : ∃ w' ∈ ws, w.now + ka₁.timeout ≤ w'.now) :
    ∃ rs p', p.polls (w :: ws) = some (rs, p') ∧ .ready .KeepAliveTimedOut ∈ rs := by
  obtain ⟨p', hto | ⟨hpoll, hka', hp'⟩⟩ := poll_pings hka h₁ hs₁ hlr ht₁ hnow hsent hw
  · exact polls_of_timed_out ws hto hws
  · exact polls_cons_of_mem hpoll (polls_waiting rfl ws hka' hp' hws hlate)

/-- A poll that finds the timer fired after a frame was read while it ran: the keep-alive starts
over, and the poll reports nothing. -/
theorem poll_reset {p : Ponger} {ka : KeepAlive} {w : PollWorld} {lr : Instant}
    (hka : p.keep_alive = some ka) (hs : ka.state = .Scheduled) (hnow : ka.timer ≤ w.now)
    (hlr : p.shared.last_read_at = some lr) (hlt : ka.timer < lr + ka.interval) (hw : w.pong = .pending) :
    p.poll w = some (.pending, { p with keep_alive := some { ka with state := .Init } }) := by
  have h₁ : ka.schedule w.is_idle p.shared = some ka := by simp [KeepAlive.schedule, hs]
  have h₂ : ka.maybe_ping w.now p.shared w.sent = some ({ ka with state := .Init }, p.shared) := by
    unfold KeepAlive.maybe_ping
    rw [hs]
    dsimp only
    rw [if_neg (Nat.not_lt_of_le hnow), hlr]
    dsimp only
    rw [if_pos hlt]
  have hturn : p.keep_alive_turn w = some { p with keep_alive := some { ka with state := .Init } } := by
    rw [keep_alive_turn, hka]
    dsimp only
    rw [h₁, Option.bind_some, h₂, Option.map_some]
  unfold poll
  rw [hturn, Option.bind_some]
  dsimp only
  -- with a ping out and no pong, a keep-alive that is not waiting does not time out
  cases hp : p.shared.is_ping_sent
  · rfl
  · simp [hw, KeepAlive.maybe_timeout]

end Ponger

/-- **A dead peer is found.**  From any reachable state of the ping task with the keep-alive on,
three polls that see neither a frame nor a pong on a busy connection report the timeout: the
first `interval` after the last read, the third `timeout` after the second.  A timer running from
an earlier read starts over at the first poll and pings at the second; a timer that is due pings
at the first; a ping already out times out by the third. -/
theorem keep_alive_detects_silent_peer {config : ping.Config} {kc : KeepAliveConfig}
    {s : Ponger × Instant} (hs : Reachable config kc s) {ka : KeepAlive} {lr : Instant}
    (hka : s.1.keep_alive = some ka) (hlr : s.1.shared.last_read_at = some lr)
    {w₁ w₂ w₃ : PollWorld} (hw : ∀ w ∈ [w₁, w₂, w₃], w.is_idle = false ∧ w.sent = true ∧ w.pong = .pending)
    (h₁ : s.2 ≤ w₁.now) (hi : lr + ka.interval ≤ w₁.now) (h₂ : w₁.now ≤ w₂.now)
    (h₃ : w₂.now + ka.timeout ≤ w₃.now) :
    ∃ rs p', s.1.polls [w₁, w₂, w₃] = some (rs, p') ∧ .ready .KeepAliveTimedOut ∈ rs := by
  have hinv := hs.inv
  obtain ⟨hi₁, hs₁, hp₁⟩ := hw w₁ (by simp)
  obtain ⟨hi₂, hs₂, hp₂⟩ := hw w₂ (by simp)
  have hpend : ∀ w ∈ [w₂, w₃], w.pong = .pending := fun w hw' ↦ (hw w (List.mem_cons_of_mem _ hw')).2.2
  have hlate₁ : ∃ w ∈ [w₂, w₃], w₁.now + ka.timeout ≤ w.now :=
    ⟨w₃, by simp, (Nat.add_le_add_right h₂ _).trans h₃⟩
  -- a timer that the first poll starts from the last read has fired: the ping goes out there
  have hfresh : ka.schedule w₁.is_idle s.1.shared =
      some { ka with state := .Scheduled, timer := lr + ka.interval } →
      ∃ rs p', s.1.polls [w₁, w₂, w₃] = some (rs, p') ∧ .ready .KeepAliveTimedOut ∈ rs :=
    fun h₀ ↦ Ponger.polls_of_ping _ _ hka h₀ rfl hlr rfl hi hs₁ hp₁ hpend hlate₁
  rcases hst : ka.state
  · exact hfresh (by simp [KeepAlive.schedule, hst, hi₁, hlr])
  · obtain ⟨lr', hlr', htimer⟩ := hinv.scheduled ka hka hst
    rw [hlr] at hlr'
    cases hlr'
    rcases Nat.lt_or_eq_of_le htimer with hlt | heq
    · -- a frame was read while the timer ran: it starts over at the first poll, pings at the second
      have hreset := Ponger.poll_reset hka hst (htimer.trans hi) hlr hlt hp₁
      obtain ⟨rs, p', hrs, hmem⟩ := Ponger.polls_of_ping
        (p := { s.1 with keep_alive := some { ka with state := .Init } })
        { ka with state := .Scheduled, timer := lr + ka.interval } [w₃] rfl
        (by simp [KeepAlive.schedule, hi₂, hlr]) rfl hlr rfl (hi.trans h₂) hs₂ hp₂
        (fun w hw' ↦ hpend w (List.mem_cons_of_mem _ hw')) ⟨w₃, by simp, h₃⟩
      exact ⟨_, p', by rw [Ponger.polls_cons _ hreset, hrs]; rfl, List.mem_cons_of_mem _ hmem⟩
    · -- the timer runs from the last read, and has fired
      exact Ponger.polls_of_ping ka _ hka (by simp [KeepAlive.schedule, hst]) hst hlr heq (htimer.trans hi)
        hs₁ hp₁ hpend hlate₁
  · by_cases hp : s.1.shared.is_ping_sent = true
    · -- the ping out was sent no later than the last step, and is due by the third poll
      have hdue : ka.timer ≤ w₃.now := calc
        ka.timer ≤ s.2 + ka.timeout := hinv.ping_sent ka hka hst
        _ ≤ w₂.now + ka.timeout := Nat.add_le_add_right (h₁.trans h₂) _
        _ ≤ w₃.now := h₃
      exact Ponger.polls_waiting hst _ hka hp (fun w hw' ↦ (hw w hw').2.2) ⟨w₃, by simp, hdue⟩
    · -- the ping was not sent: the timer starts over from the last read
      exact hfresh (by simp [KeepAlive.schedule, hst, hp, hlr])

/-- A busy poll whose ping goes out and that sees no pong. -/
def silentWorld (now : Instant) : PollWorld := ⟨now, false, true, .pending, false⟩

/-- Keep-alive pings every 10 after the last read, with 20 to answer, not while idle. -/
def silentConfig : KeepAliveConfig := ⟨some 10, 20, false⟩

theorem keep_alive_detects_silent_peer_from_channel :
    ∃ rs p', (channel ⟨none⟩ silentConfig 0).polls [silentWorld 10, silentWorld 10, silentWorld 30] =
      some (rs, p') ∧ .ready .KeepAliveTimedOut ∈ rs :=
  keep_alive_detects_silent_peer (s := (channel ⟨none⟩ silentConfig 0, 0)) ⟨0, .refl⟩ rfl rfl
    (by decide) (by decide) (by decide) (by decide) (by decide)

/-! ## A live peer is not -/

/-- The keep-alive waits on a ping, with its timer set to `t`. -/
def WaitsOn (t : Instant) (p : Ponger) : Prop :=
  ∃ ka, p.keep_alive = some ka ∧ ka.state = .PingSent ∧ ka.timer = t

/-- The keep-alive's turn of the poll `w` sends its ping and leaves the keep-alive as `ka`: the
timer that `schedule` left running has fired with no frame read for `interval`, and the ping's
timer is set `timeout` from now (the ping arm of `KeepAlive::maybe_ping`). -/
def Ponger.SendsPing (p : Ponger) (w : PollWorld) (ka : KeepAlive) : Prop :=
  ∃ ka₀ ka₁ lr, p.keep_alive = some ka₀ ∧ KeepAlive.Schedules ka₀ w.is_idle p.shared ka₁ ∧
    ka₁.state = .Scheduled ∧ ka₁.timer ≤ w.now ∧ p.shared.last_read_at = some lr ∧
    lr + ka₁.interval ≤ ka₁.timer ∧ ka = { ka₁ with state := .PingSent, timer := w.now + ka₁.timeout }

theorem not_waitsOn_channel (config : ping.Config) (kc : KeepAliveConfig) (now t : Instant) :
    ¬WaitsOn t (channel config kc now) := by
  rintro ⟨ka, hka, hst, -⟩
  obtain ⟨interval, -, rfl⟩ := Option.map_eq_some_iff.mp hka
  cases hst

namespace Ponger

/-- After the keep-alive's turn, it waits on a ping that it waited on before, or that the turn
sent. -/
theorem turn_waitsOn {p q : Ponger} {w : PollWorld} {t : Instant} (h : p.keep_alive_turn w = some q)
    (hq : WaitsOn t q) : WaitsOn t p ∨ ∃ ka, p.SendsPing w ka ∧ ka.timer = t := by
  rcases keep_alive_turn_cases h with ⟨-, rfl⟩ | ⟨ka, ka₁, ka₂, shared, hka, hs, hp, rfl⟩
  · exact .inl hq
  obtain ⟨k, hk, hst, ht⟩ := hq
  obtain rfl : k = ka₂ := (Option.some.inj hk).symm
  cases hp with
  | idle hne =>
    -- `maybe_ping` left it alone, so `schedule` left it waiting
    cases hs with
    | waiting _ _ => exact .inl ⟨_, hka, hst, ht⟩
    | idle hs' _ | running hs' => rw [hs'] at hst; cases hst
    | start _ _ _ | answered _ _ _ => exact absurd rfl hne
  | running hs' _ => rw [hs'] at hst; cases hst
  | reset _ _ _ _ => cases hst
  | ping hs' hle hlr hint => exact .inr ⟨_, ⟨ka, ka₁, _, hka, hs, hs', hle, hlr, hint, rfl⟩, ht⟩

/-- A pong ends the wait: the keep-alive takes it as a read and schedules its next ping. -/
theorem on_pong_ends_wait {p p' : Ponger} {w : PollWorld} {r : Poll Ponged}
    (hp : p.shared.is_ping_sent = true) (h : p.on_pong w = some (r, p')) (t : Instant) :
    ¬WaitsOn t p' := by
  rintro ⟨ka', hka', hst, -⟩
  rcases on_pong_cases hp h with ⟨-, hk, -⟩ | ⟨ka, ka'', -, hk, -, hn, hs⟩ <;> rw [hk] at hka'
  · cases hka'
  · cases hka'
    exact hs.state_ne_pingSent hn hst

end Ponger

/-- A step after which the keep-alive waits on a ping it did not wait on before is a poll that
sent it. -/
theorem Step.waitsOn_entry {e : Event} {u v : Ponger × Instant} {t : Instant} (h : Step e u v)
    (hu : ¬WaitsOn t u.1) (hv : WaitsOn t v.1) : ∃ w ka, e = .poll w ∧ u.1.SendsPing w ka ∧ ka.timer = t := by
  obtain ⟨p', t'⟩ := v
  rcases h.cases.2.2 with ⟨w, r, rfl, hp⟩ | ⟨hka, -⟩
  · obtain ⟨q, hq, hcases⟩ := Ponger.poll_cases hp
    -- after the keep-alive's turn, only a pong or a timeout changes the keep-alive, and neither
    -- leaves it waiting
    have hq' : WaitsOn t q := by
      cases hcases with
      | no_ping _ | pong_error _ _ | waiting _ _ _ => exact hv
      | pong hp' _ ho => exact absurd hv (Ponger.on_pong_ends_wait hp' ho t)
      | timed_out _ _ _ _ => obtain ⟨_, hk, -⟩ := hv; cases hk
    rcases Ponger.turn_waitsOn hq hq' with hu' | ⟨ka, hsend, ht⟩
    · exact absurd hu' hu
    · exact ⟨w, ka, rfl, hsend, ht⟩
  · -- a frame read leaves the keep-alive alone
    obtain ⟨ka, hk, hst, ht⟩ := hv
    exact absurd ⟨ka, hka ▸ hk, hst, ht⟩ hu

/-- **A live peer is not timed out.**  A poll of a reachable ping task reports the timeout only
for a ping whose timer, `timeout` after it was sent, has fired: a ping sent by the same poll, or
by an earlier poll after which the keep-alive has waited on it at every step, so that no pong
came (`on_pong_ends_wait`).  The keep-alive sends a ping only once no frame has been read for
`interval` (`SendsPing`). -/
theorem keep_alive_timeout_after_unanswered_ping {config : ping.Config} {kc : KeepAliveConfig}
    {s : Ponger × Instant} {w : PollWorld} {p' : Ponger} (hs : Reachable config kc s)
    (h : s.1.poll w = some (.ready .KeepAliveTimedOut, p')) :
    ∃ ka, ka.timer ≤ w.now ∧ (s.1.SendsPing w ka ∨
      ∃ u v wp, Reachable config kc u ∧ Step (.poll wp) u v ∧ u.1.SendsPing wp ka ∧
        WaitsOn ka.timer v.1 ∧ Relation.ReflTransGen (fun a b ↦ (∃ e, Step e a b) ∧ WaitsOn ka.timer b.1) v s) := by
  obtain ⟨q, hq, hcases⟩ := Ponger.poll_cases h
  -- the timeout is that of the ping the keep-alive waits on after its turn
  obtain ⟨ka, hka, hst, hle⟩ : ∃ ka, q.keep_alive = some ka ∧ ka.state = .PingSent ∧ ka.timer ≤ w.now := by
    cases hcases with
    | pong _ _ ho => exact absurd rfl (Ponger.on_pong_ne_timed_out ho)
    | timed_out _ _ hka hto => exact ⟨_, hka, KeepAlive.maybe_timeout_error hto⟩
  rcases Ponger.turn_waitsOn hq ⟨ka, hka, hst, rfl⟩ with hwait | ⟨ka', hsend, ht⟩
  · -- sent by an earlier poll: the last step of the run into waiting on it
    obtain ⟨now, hrun⟩ := hs
    obtain ⟨u, v, hu, ⟨e, huv⟩, hnu, hv, hvs⟩ :=
      Runs.exists_last_entry (fun a ↦ WaitsOn ka.timer a.1) hrun (not_waitsOn_channel config kc now _) hwait
    obtain ⟨wp, ka', rfl, hsend, ht⟩ := huv.waitsOn_entry hnu hv
    rw [← ht] at hv hvs
    exact ⟨ka', ht ▸ hle, .inr ⟨u, v, wp, ⟨now, hu⟩, huv, hsend, hv, hvs⟩⟩
  · exact ⟨ka', ht ▸ hle, .inl hsend⟩

/-- The ping task of `silentConfig` after its first poll, which sends the keep-alive's ping. -/
def pinged : Ponger := ⟨none, some ⟨10, 20, false, .PingSent, 30⟩, ⟨⟨some 10, none, none⟩, some 0, false⟩⟩

theorem keep_alive_timeout_after_unanswered_ping_at_thirty :
    ∃ ka, ka.timer ≤ 30 ∧ (pinged.SendsPing (silentWorld 30) ka ∨
      ∃ u v wp, Reachable ⟨none⟩ silentConfig u ∧ Step (.poll wp) u v ∧ u.1.SendsPing wp ka ∧
        WaitsOn ka.timer v.1 ∧
        Relation.ReflTransGen (fun a b ↦ (∃ e, Step e a b) ∧ WaitsOn ka.timer b.1) v (pinged, 10)) :=
  keep_alive_timeout_after_unanswered_ping (s := (pinged, 10)) (w := silentWorld 30)
    (⟨0, .single ⟨.poll (silentWorld 10), .mk (by decide) rfl⟩⟩ : Reachable ⟨none⟩ silentConfig (pinged, 10)) rfl

/-! ## An idle client is left alone -/

/-- Whether a poll finds the connection idle; a frame read is not a poll. -/
def Event.idle : Event → Bool
  | .poll w => w.is_idle
  | .data _ _ _ | .non_data _ => true

/-- A keep-alive that waits for the connection to be busy: its timer not started, and no pings
while idle. -/
def Dormant (k : Option KeepAlive) : Prop :=
  ∀ ka, k = some ka → ka.state = .Init ∧ ka.while_idle = false

theorem dormant_channel {kc : KeepAliveConfig} (hkc : kc.keep_alive_while_idle = false)
    (config : ping.Config) (now : Instant) : Dormant (channel config kc now).keep_alive := by
  intro ka hka
  obtain ⟨interval, -, rfl⟩ := Option.map_eq_some_iff.mp hka
  exact ⟨rfl, hkc⟩

/-- On an idle connection, `schedule` leaves a dormant keep-alive's timer unstarted. -/
theorem Dormant.schedules_eq {k : Option KeepAlive} {ka ka₁ : KeepAlive} {is_idle : Bool}
    {shared : Shared} (hk : Dormant k) (hw : is_idle = true) (hka : k = some ka)
    (hs : KeepAlive.Schedules ka is_idle shared ka₁) : ka₁ = ka := by
  obtain ⟨hinit, hidle⟩ := hk ka hka
  exact hs.eq_of_idle hinit (by rw [hidle, hw]; rfl)

namespace Ponger

variable {p q : Ponger} {w : PollWorld}

theorem turn_dormant (hk : Dormant p.keep_alive) (hw : w.is_idle = true) (h : p.keep_alive_turn w = some q) :
    q.keep_alive = p.keep_alive := by
  rcases keep_alive_turn_cases h with ⟨-, rfl⟩ | ⟨ka, ka₁, ka₂, shared, hka, hs, hp, rfl⟩
  · rfl
  obtain rfl := hk.schedules_eq hw hka hs
  obtain ⟨rfl, -⟩ := hp.eq_of_ne_scheduled (by rw [(hk ka₁ hka).1]; decide)
  exact hka.symm

/-- An idle poll leaves a dormant keep-alive as it is, and reports no timeout. -/
theorem poll_dormant {r : Poll Ponged} {p' : Ponger} (hk : Dormant p.keep_alive) (hw : w.is_idle = true)
    (h : p.poll w = some (r, p')) : p'.keep_alive = p.keep_alive ∧ r ≠ .ready .KeepAliveTimedOut := by
  obtain ⟨q, hq, hcases⟩ := poll_cases h
  have hturn := turn_dormant hk hw hq
  cases hcases with
  | no_ping _ | pong_error _ _ | waiting _ _ _ => exact ⟨hturn, by simp⟩
  | pong hp _ ho =>
    -- the pong is the BDP part's; the keep-alive schedules nothing while idle
    refine ⟨?_, on_pong_ne_timed_out ho⟩
    rcases on_pong_cases hp ho with ⟨hq', hk', -⟩ | ⟨ka, ka', hka, hk', -, -, hs⟩
    · rw [hk', ← hturn, hq']
    · rw [hk', ← hturn, hka, (hturn ▸ hk : Dormant q.keep_alive).schedules_eq hw hka hs]
  | timed_out _ _ hka hto =>
    have := (hk _ (hturn ▸ hka)).1
    rw [(KeepAlive.maybe_timeout_error hto).1] at this
    cases this

/-- An idle poll does not ping for a dormant keep-alive. -/
theorem not_sendsPing_of_dormant {ka : KeepAlive} (hk : Dormant p.keep_alive) (hw : w.is_idle = true) :
    ¬p.SendsPing w ka := by
  rintro ⟨ka₀, ka₁, -, hka, hs, hst, -⟩
  rw [hk.schedules_eq hw hka hs, (hk ka₀ hka).1] at hst
  cases hst

end Ponger

/-- A step that finds the connection idle leaves a dormant keep-alive as it is. -/
theorem Step.keep_alive_dormant {e : Event} {s s' : Ponger × Instant} (hk : Dormant s.1.keep_alive)
    (he : e.idle = true) (h : Step e s s') : s'.1.keep_alive = s.1.keep_alive := by
  rcases h.cases.2.2 with ⟨w, r, rfl, hp⟩ | ⟨hka, -⟩
  · exact (Ponger.poll_dormant hk he hp).1
  · exact hka

/-- **An idle client is left alone.**  With `keep_alive_while_idle` off, along every run in which
each poll finds the connection idle, the keep-alive stays as `channel` made it, and no idle poll
sends its ping or reports a timeout. -/
theorem keep_alive_idle_never_pings {config : ping.Config} {kc : KeepAliveConfig} {now : Instant}
    {s : Ponger × Instant} (hkc : kc.keep_alive_while_idle = false)
    (h : Relation.ReflTransGen (fun a b ↦ ∃ e, e.idle = true ∧ Step e a b) (channel config kc now, now) s) :
    s.1.keep_alive = (channel config kc now).keep_alive ∧ ∀ w, w.is_idle = true →
      (∀ ka, ¬s.1.SendsPing w ka) ∧
        ∀ r p', s.1.poll w = some (r, p') → r ≠ .ready .KeepAliveTimedOut := by
  have h₀ := dormant_channel hkc config now
  -- the keep-alive of the run is the one `channel` made, step by step
  have hka : s.1.keep_alive = (channel config kc now).keep_alive :=
    Runs.stable (fun a ↦ a.1.keep_alive = (channel config kc now).keep_alive)
      (fun _ _ ⟨_, he, hab⟩ ha ↦ (hab.keep_alive_dormant (ha ▸ h₀) he).trans ha) h rfl
  have hk : Dormant s.1.keep_alive := hka ▸ h₀
  exact ⟨hka, fun w hw ↦ ⟨fun _ ↦ Ponger.not_sendsPing_of_dormant hk hw,
    fun _ _ hp ↦ (Ponger.poll_dormant hk hw hp).2⟩⟩

/-- An idle poll at 50, when the timer would have fired on a busy connection. -/
theorem keep_alive_idle_never_pings_idle_poll :
    (channel ⟨none⟩ silentConfig 0).keep_alive = (channel ⟨none⟩ silentConfig 0).keep_alive ∧
      ∀ w, w.is_idle = true → (∀ ka, ¬(channel ⟨none⟩ silentConfig 0).SendsPing w ka) ∧
        ∀ r p', (channel ⟨none⟩ silentConfig 0).poll w = some (r, p') → r ≠ .ready .KeepAliveTimedOut :=
  keep_alive_idle_never_pings (s := (channel ⟨none⟩ silentConfig 0, 50)) rfl
    (.single ⟨.poll ⟨50, true, true, .pending, false⟩, rfl, .mk (by decide) rfl⟩)

end runtime

end Hyper.H2
