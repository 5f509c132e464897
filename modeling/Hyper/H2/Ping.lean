import Hyper.Client.Connect

/-!
# Adaptive HTTP/2 flow control (`proto/h2/ping.rs`, the `http2_*_window` builders)

With `http2_adaptive_window(true)` hyper estimates the bandwidth-delay product (BDP) of an HTTP/2
connection from pings, and widens the flow-control windows as the estimate grows.

* **The settings.**  The builders (`client::conn::Builder` and `server::conn::Http`, whose window
  setters are the same code) keep `adaptive_window` and the two initial windows.  Enabling the
  adaptive window sets both windows to `SPEC_WINDOW_SIZE`; setting either window turns it off.
  The connection hands the stream window to the ping task as the initial BDP only when the
  adaptive window is on (`new_ping_config`), so an estimate always starts at 65535
  (`bdp_initial_window_build`).
* **The estimator.**  `Bdp::calculate` takes a sample, the bytes received during one ping round
  trip.  It either widens the window to twice the sample, up to `BDP_LIMIT`, and halves the delay
  before the next ping, or counts the sample as stable (`stabilize_delay`): every second stable
  sample quadruples the delay while it is under 10 s.  The round-trip time and the bandwidth are
  `f64`s that feed one comparison only, `bw < max_bandwidth`, whose outcome is the argument
  `slower`; they are left out.
* **The invariant.**  `Bdp.Inv`: the window between 65535 and `BDP_LIMIT`, the delay under 40 s,
  and a number `n` of halvings the delay can still take (it is at least `2 ^ n` nanoseconds) that
  covers the widenings the window still has room for, each of which multiplies it by at least
  5/4.  `Bdp.Inv.calculate` shows that one sample keeps it, never panics, and returns an update
  only above the window it replaces; `Bdp.Inv.calculateAll` carries it over any samples.

`Ponger` and the `Shared` state it keeps with the `Recorder`s are modelled without keep-alive:
`Shared.record_data` counts the bytes of a sample and sends the BDP ping, and `Ponger.poll` takes
the pong and runs `calculate`.  A `Duration` and an `Instant` are numbers of nanoseconds.  An
overflow of `bytes * 2` or of `bytes += len` is a panic (`none`), as in a debug build.
-/

set_option autoImplicit false

namespace Hyper

namespace H2

open Client (Duration)

/-- `SPEC_WINDOW_SIZE`. -/
def SPEC_WINDOW_SIZE : ℕ := 65535

/-! ## The window settings of the builders -/

/-- The flow-control settings of `proto::h2::client::Config` and `proto::h2::server::Config`. -/
structure Config where
  adaptive_window : Bool
  initial_conn_window_size : ℕ
  initial_stream_window_size : ℕ
  deriving DecidableEq, Repr

namespace client

/-- The client's `DEFAULT_CONN_WINDOW`. -/
def DEFAULT_CONN_WINDOW : ℕ := 1024 * 1024 * 5

/-- The client's `DEFAULT_STREAM_WINDOW`. -/
def DEFAULT_STREAM_WINDOW : ℕ := 1024 * 1024 * 2

/-- The client's `Config::default`. -/
def default_config : Config := ⟨false, DEFAULT_CONN_WINDOW, DEFAULT_STREAM_WINDOW⟩

end client

namespace server

/-- The server's `DEFAULT_CONN_WINDOW`. -/
def DEFAULT_CONN_WINDOW : ℕ := 1024 * 1024

/-- The server's `DEFAULT_STREAM_WINDOW`. -/
def DEFAULT_STREAM_WINDOW : ℕ := 1024 * 1024

/-- The server's `Config::default`. -/
def default_config : Config := ⟨false, DEFAULT_CONN_WINDOW, DEFAULT_STREAM_WINDOW⟩

end server

namespace ping

/-- The BDP part of `ping::Config`. -/
structure Config where
  bdp_initial_window : Option ℕ
  deriving DecidableEq, Repr

end ping

namespace Config

/-- `http2_initial_stream_window_size`. -/
def http2_initial_stream_window_size (c : Config) (sz : Option ℕ) : Config :=
  match sz with
  | some sz => { c with adaptive_window := false, initial_stream_window_size := sz }
  | none => c

/-- `http2_initial_connection_window_size`. -/
def http2_initial_connection_window_size (c : Config) (sz : Option ℕ) : Config :=
  match sz with
  | some sz => { c with adaptive_window := false, initial_conn_window_size := sz }
  | none => c

/-- `http2_adaptive_window`. -/
def http2_adaptive_window (c : Config) (enabled : Bool) : Config :=
  let c := { c with adaptive_window := enabled }
  if enabled then
    { c with
      initial_conn_window_size := SPEC_WINDOW_SIZE
      initial_stream_window_size := SPEC_WINDOW_SIZE }
  else c

/-- A call of one of the window setters of a builder. -/
inductive Setter where
  | initial_stream_window_size (sz : Option ℕ)
  | initial_connection_window_size (sz : Option ℕ)
  | adaptive_window (enabled : Bool)
  deriving DecidableEq, Repr

/-- What one setter does to the settings. -/
def Setter.apply : Setter → Config → Config
  | .initial_stream_window_size sz, c => c.http2_initial_stream_window_size sz
  | .initial_connection_window_size sz, c => c.http2_initial_connection_window_size sz
  | .adaptive_window enabled, c => c.http2_adaptive_window enabled

/-- The settings after the calls `setters`, in order. -/
def build (c : Config) (setters : List Setter) : Config := setters.foldl (fun c s ↦ s.apply c) c

/-- `new_ping_config` of the client; the server builds the same field inline. -/
def new_ping_config (c : Config) : ping.Config :=
  ⟨if c.adaptive_window then some c.initial_stream_window_size else none⟩

/-- The adaptive window is only ever on with both windows at `SPEC_WINDOW_SIZE`. -/
def AdaptiveSpec (c : Config) : Prop :=
  c.adaptive_window = true →
    c.initial_conn_window_size = SPEC_WINDOW_SIZE ∧ c.initial_stream_window_size = SPEC_WINDOW_SIZE

theorem adaptiveSpec_of_eq_false {c : Config} (h : c.adaptive_window = false) : c.AdaptiveSpec :=
  fun h' ↦ absurd (h.symm.trans h') Bool.false_ne_true

/-- Every setter keeps `AdaptiveSpec`: the window setters turn the adaptive window off, and
turning it on sets both windows. -/
theorem Setter.adaptiveSpec_apply (s : Setter) {c : Config} (h : c.AdaptiveSpec) :
    (s.apply c).AdaptiveSpec := by
  cases s with
  | initial_stream_window_size sz =>
    cases sz with
    | none => exact h
    | some sz => exact adaptiveSpec_of_eq_false rfl
  | initial_connection_window_size sz =>
    cases sz with
    | none => exact h
    | some sz => exact adaptiveSpec_of_eq_false rfl
  | adaptive_window enabled =>
    cases enabled with
    | false => exact adaptiveSpec_of_eq_false rfl
    | true => exact fun _ ↦ ⟨rfl, rfl⟩

theorem adaptiveSpec_build {c : Config} (h : c.AdaptiveSpec) (setters : List Setter) :
    (c.build setters).AdaptiveSpec := by
  induction setters generalizing c with
  | nil => exact h
  | cons s setters ih => exact ih (s.adaptiveSpec_apply h)

/-- **The initial BDP is 65535**, after any calls of the setters from a configuration with the
adaptive window off, as both defaults are. -/
theorem bdp_initial_window_build {c : Config} (hc : c.adaptive_window = false)
    (setters : List Setter) :
    (c.build setters).new_ping_config.bdp_initial_window = none ∨
      (c.build setters).new_ping_config.bdp_initial_window = some SPEC_WINDOW_SIZE := by
  have hspec := adaptiveSpec_build (adaptiveSpec_of_eq_false hc) setters
  rw [new_ping_config]
  cases hadaptive : (c.build setters).adaptive_window with
  | false => exact .inl rfl
  | true => exact .inr (by rw [if_pos rfl, (hspec hadaptive).2])

end Config

/-! ## The estimator -/

/-- `BDP_LIMIT`. -/
def BDP_LIMIT : ℕ := 1024 * 1024 * 16

/-- `Bdp`, without `max_bandwidth` and `rtt`. -/
structure Bdp where
  bdp : ℕ
  ping_delay : Duration
  stable_count : ℕ
  deriving DecidableEq, Repr

namespace Bdp

/-- `Bdp::stabilize_delay`. -/
def stabilize_delay (b : Bdp) : Option Bdp :=
  if b.ping_delay < Duration.from_secs 10 then
    let b := { b with stable_count := b.stable_count + 1 }
    if b.stable_count ≥ 2 then
      (b.ping_delay.mul 4).map fun ping_delay ↦ { b with ping_delay, stable_count := 0 }
    else some b
  else some b

/-- `Bdp::calculate`, with the outcome of `bw < self.max_bandwidth` as `slower`. -/
def calculate (b : Bdp) (bytes : ℕ) (slower : Bool) : Option (Bdp × Option ℕ) :=
  if b.bdp = BDP_LIMIT then b.stabilize_delay.map fun b ↦ (b, none)
  else if slower then b.stabilize_delay.map fun b ↦ (b, none)
  else if bytes ≥ b.bdp * 2 / 3 then
    if bytes * 2 ≤ usize_max 64 then
      let bdp := min (bytes * 2) BDP_LIMIT
      (b.ping_delay.div 2).map fun ping_delay ↦ ({ b with bdp, stable_count := 0, ping_delay }, some bdp)
    else none
  else b.stabilize_delay.map fun b ↦ (b, none)

/-- `calculate` over a sequence of samples, each a byte count and the outcome of the
comparison. -/
def calculateAll (b : Bdp) : List (ℕ × Bool) → Option Bdp
  | [] => some b
  | (bytes, slower) :: samples => (b.calculate bytes slower).bind fun r ↦ r.1.calculateAll samples

/-- `stabilize_delay` never panics: it quadruples the delay only below 10 s. -/
theorem stabilize_delay_spec (b : Bdp) :
    ∃ b', b.stabilize_delay = some b' ∧ b'.bdp = b.bdp ∧ b.ping_delay ≤ b'.ping_delay ∧
      (b.ping_delay < Duration.from_secs 40 → b'.ping_delay < Duration.from_secs 40) := by
  simp only [stabilize_delay]
  split_ifs with hlt hcount
  · -- the second stable sample in a row: the delay is quadrupled, still far from overflowing
    simp only [Duration, Duration.from_secs, Duration.NANOS_PER_SEC] at hlt ⊢
    have hmul : b.ping_delay.mul 4 = some (b.ping_delay * 4) :=
      if_pos (by simp only [Duration, Duration.NANOS_PER_SEC]; omega)
    rw [hmul, Option.map_some]
    refine ⟨_, rfl, rfl, ?_, fun _ ↦ ?_⟩ <;> dsimp only <;> omega
  · exact ⟨_, rfl, rfl, le_rfl, id⟩
  · exact ⟨_, rfl, rfl, le_rfl, id⟩

/-- Widening from below the limit with a sample of at least two thirds of the window gives a
larger window. -/
theorem lt_widen {bdp bytes : ℕ} (h4 : 4 < bdp) (hlt : bdp < BDP_LIMIT)
    (hbytes : bdp * 2 / 3 ≤ bytes) : bdp < min (bytes * 2) BDP_LIMIT := by
  omega

/-- A widening takes one from the room left: it multiplies the window by at least 5/4, or
reaches the limit. -/
theorem room_widen {bdp bytes n : ℕ} (h16 : 16 ≤ bdp) (hbytes : bdp * 2 / 3 ≤ bytes)
    (hroom : BDP_LIMIT * 4 ^ (n + 1) ≤ bdp * 5 ^ (n + 1)) :
    BDP_LIMIT * 4 ^ n ≤ min (bytes * 2) BDP_LIMIT * 5 ^ n := by
  rcases le_total (bytes * 2) BDP_LIMIT with hle | hle
  · rw [min_eq_left hle]
    have h5 : 5 * bdp ≤ 4 * (bytes * 2) := by omega
    refine Nat.le_of_mul_le_mul_left ?_ (by norm_num : 0 < 4)
    calc 4 * (BDP_LIMIT * 4 ^ n) = BDP_LIMIT * 4 ^ (n + 1) := by ring
      _ ≤ bdp * 5 ^ (n + 1) := hroom
      _ = 5 * bdp * 5 ^ n := by ring
      _ ≤ 4 * (bytes * 2) * 5 ^ n := Nat.mul_le_mul_right _ h5
      _ = 4 * (bytes * 2 * 5 ^ n) := by ring
  · rw [min_eq_right hle]
    exact Nat.mul_le_mul_left _ (Nat.pow_le_pow_left (by norm_num) n)

/-! ## The invariant -/

/-- The invariant of the estimator: the window between 65535 and the limit, the delay under
40 s, and room in the delay for `n` more halvings, at least as many as the widenings left. -/
structure Inv (b : Bdp) : Prop where
  spec_le : SPEC_WINDOW_SIZE ≤ b.bdp
  le_limit : b.bdp ≤ BDP_LIMIT
  delay_lt : b.ping_delay < Duration.from_secs 40
  room : ∃ n, BDP_LIMIT * 4 ^ n ≤ b.bdp * 5 ^ n ∧ 2 ^ n ≤ b.ping_delay

theorem Inv.delay_pos {b : Bdp} (h : b.Inv) : 0 < b.ping_delay := by
  obtain ⟨n, -, hn⟩ := h.room
  exact lt_of_lt_of_le (Nat.two_pow_pos n) hn

/-- The estimator `ping::channel` starts with, at 65535, satisfies the invariant: the delay of
100 ms is `2 ^ 25` nanoseconds and more, and 25 widenings by 5/4 take 65535 past the limit. -/
theorem inv_initial : (⟨SPEC_WINDOW_SIZE, Duration.from_millis 100, 0⟩ : Bdp).Inv where
  spec_le := le_rfl
  le_limit := by decide
  delay_lt := by decide
  room := ⟨25, by norm_num [BDP_LIMIT, SPEC_WINDOW_SIZE],
    by norm_num [Duration.from_millis]⟩

theorem Inv.stabilize_delay {b b' : Bdp} (h : b.Inv) (hs : b.stabilize_delay = some b') :
    b'.Inv := by
  obtain ⟨b'', hb'', hbdp, hle, hlt⟩ := stabilize_delay_spec b
  rw [hs, Option.some.injEq] at hb''
  subst hb''
  obtain ⟨n, hn, hpow⟩ := h.room
  exact ⟨hbdp ▸ h.spec_le, hbdp ▸ h.le_limit, hlt h.delay_lt, n, hbdp ▸ hn, hpow.trans hle⟩

/-- **One sample keeps the invariant**: `calculate` does not panic on a sample of at most
`usize::MAX / 2` bytes, and an update it returns is the new window, above the old one. -/
theorem Inv.calculate {b : Bdp} (h : b.Inv) {bytes : ℕ} (hbytes : bytes ≤ usize_max 64 / 2)
    (slower : Bool) :
    ∃ b' update, b.calculate bytes slower = some (b', update) ∧ b'.Inv ∧
      ∀ w, update = some w → w = b'.bdp ∧ b.bdp < w := by
  -- the branches that only count a stable sample
  have hstable : ∃ b' update, b.stabilize_delay.map (fun b ↦ (b, none)) = some (b', update) ∧
      b'.Inv ∧ ∀ w, update = some w → w = b'.bdp ∧ b.bdp < w := by
    obtain ⟨b', hb', -⟩ := stabilize_delay_spec b
    exact ⟨b', none, by rw [hb', Option.map_some], h.stabilize_delay hb', fun _ h ↦ by cases h⟩
  have hspec := h.spec_le
  have hlimit := h.le_limit
  simp only [SPEC_WINDOW_SIZE] at hspec
  rw [Bdp.calculate]
  split_ifs with hat hslow hwiden hfit
  · exact hstable
  · exact hstable
  · -- the window widens and the delay is halved
    have hlt : b.bdp < BDP_LIMIT := lt_of_le_of_ne hlimit hat
    have hgrow := lt_widen (by omega) hlt hwiden
    have hdiv : b.ping_delay.div 2 = some (b.ping_delay / 2) := if_neg (by norm_num)
    obtain ⟨n, hn, hpow⟩ := h.room
    -- below the limit the room is not used up
    obtain ⟨m, rfl⟩ : ∃ m, n = m + 1 := by
      cases n with
      | zero => simp only [pow_zero, Nat.mul_one] at hn; omega
      | succ m => exact ⟨m, rfl⟩
    refine ⟨_, _, by rw [hdiv, Option.map_some], ⟨by simp only [SPEC_WINDOW_SIZE]; omega,
      min_le_right _ _, lt_of_le_of_lt (Nat.div_le_self _ _) h.delay_lt, m,
      room_widen (by omega) hwiden hn, ?_⟩, fun w hw ↦ ⟨(Option.some.inj hw).symm, ?_⟩⟩
    · rw [Nat.le_div_iff_mul_le (by norm_num), ← pow_succ]
      exact hpow
    · rw [← Option.some.inj hw]
      exact hgrow
  · -- `bytes * 2` does not overflow
    omega
  · exact hstable

/-- A sample as large as the window doubles it and halves the 100 ms delay. -/
example : (⟨SPEC_WINDOW_SIZE, Duration.from_millis 100, 0⟩ : Bdp).calculate 65535 false =
    some (⟨131070, 50000000, 0⟩, some 131070) := by decide

/-- Every sequence of samples of at most `usize::MAX / 2` bytes runs without a panic and keeps
the invariant. -/
theorem Inv.calculateAll {b : Bdp} (h : b.Inv) (samples : List (ℕ × Bool))
    (hs : ∀ x ∈ samples, x.1 ≤ usize_max 64 / 2) : ∃ b', b.calculateAll samples = some b' ∧ b'.Inv := by
  induction samples generalizing b with
  | nil => exact ⟨b, rfl, h⟩
  | cons x samples ih =>
    obtain ⟨bytes, slower⟩ := x
    obtain ⟨b', update, hcalc, hinv, -⟩ := h.calculate (hs _ List.mem_cons_self) slower
    obtain ⟨b'', hrest, hinv''⟩ := ih hinv fun y hy ↦ hs y (List.mem_cons_of_mem _ hy)
    exact ⟨b'', by rw [Bdp.calculateAll, hcalc, Option.bind_some, hrest], hinv''⟩

end Bdp

/-! ## The ping task -/

/-- An `Instant`, in nanoseconds. -/
abbrev Instant := ℕ

/-- The BDP part of `Shared`: when the ping that is out was sent, the bytes of the current
sample, and when the next BDP ping may go. -/
structure Shared where
  ping_sent_at : Option Instant
  bytes : Option ℕ
  next_bdp_at : Option Instant
  deriving DecidableEq, Repr

/-- `Ponger`, without its keep-alive, with the `Shared` state of the `Recorder`s. -/
structure Ponger where
  bdp : Option Bdp
  shared : Shared
  deriving DecidableEq, Repr

/-- `ping::channel` at time `now`, for the BDP part of the configuration. -/
def channel (config : ping.Config) (now : Instant) : Ponger :=
  let bdp := config.bdp_initial_window.map fun wnd ↦
    ({ bdp := wnd, ping_delay := Duration.from_millis 100, stable_count := 0 } : Bdp)
  let (bytes, next_bdp_at) := if bdp.isSome then (some 0, some now) else (none, none)
  ⟨bdp, ⟨none, bytes, next_bdp_at⟩⟩

namespace Shared

/-- `Shared::is_ping_sent`. -/
def is_ping_sent (s : Shared) : Bool := s.ping_sent_at.isSome

/-- `Shared::send_ping` at time `now`; whether `PingPong::send_ping` succeeded is `sent`. -/
def send_ping (s : Shared) (now : Instant) (sent : Bool) : Shared :=
  if sent then { s with ping_sent_at := some now } else s

/-- The end of `Recorder::record_data`, once a BDP ping may go: count the bytes, and send a ping
if none is out. -/
def record_bytes (s : Shared) (now : Instant) (len : ℕ) (sent : Bool) : Option Shared :=
  match s.bytes with
  | some bytes =>
    if bytes + len ≤ usize_max 64 then
      let s := { s with bytes := some (bytes + len) }
      some (if s.is_ping_sent then s else s.send_ping now sent)
    else none
  | none => some s

/-- `Recorder::record_data` at time `now`, for a DATA frame of `len` bytes. -/
def record_data (s : Shared) (now : Instant) (len : ℕ) (sent : Bool) : Option Shared :=
  match s.next_bdp_at with
  | some next_bdp_at =>
    if now < next_bdp_at then some s
    else { s with next_bdp_at := none }.record_bytes now len sent
  | none => s.record_bytes now len sent

end Shared

/-- `Ponged`, without the keep-alive timeout. -/
inductive Ponged where
  | SizeUpdate (w : ℕ)
  deriving DecidableEq, Repr

/-- What `PingPong::poll_pong` answers. -/
inductive Pong where
  | ok
  | error
  | pending
  deriving DecidableEq, Repr

/-- `Ponger::poll` at time `now`, without keep-alive; `slower` is the bandwidth comparison of
`calculate`. -/
def Ponger.poll (p : Ponger) (now : Instant) (pong : Pong) (slower : Bool) :
    Option (Poll Ponged × Ponger) :=
  if !p.shared.is_ping_sent then some (.pending, p)
  else
    match pong with
    | .ok =>
      let shared := { p.shared with ping_sent_at := none }
      match p.bdp with
      | some bdp =>
        match shared.bytes with
        | some bytes =>
          let shared := { shared with bytes := some 0 }
          (bdp.calculate bytes slower).map fun (bdp, update) ↦
            let p : Ponger := ⟨some bdp, { shared with next_bdp_at := some (now + bdp.ping_delay) }⟩
            match update with
            | some w => (.ready (.SizeUpdate w), p)
            | none => (.pending, p)
        -- `expect("bdp enabled implies bytes")`
        | none => none
      | none => some (.pending, { p with shared })
    | .error => some (.pending, p)
    | .pending => some (.pending, p)

/-- **BDP window arithmetic**: with the settings of any calls of the builders' setters from a
configuration with the adaptive window off, `ping::channel` either has no estimator or one that
starts at 65535; and after any samples of at most `usize::MAX / 2` bytes, with any outcomes of the
bandwidth comparison, its window is between 65535 and `BDP_LIMIT`, its delay is positive and
under 40 s, and the next sample returns an update only as the new window, above the old one. -/
theorem bdp_window_bounds {c : Config} (hc : c.adaptive_window = false)
    (setters : List Config.Setter) (now : Instant) (samples : List (ℕ × Bool))
    (hs : ∀ x ∈ samples, x.1 ≤ usize_max 64 / 2) :
    (channel (c.build setters).new_ping_config now).bdp = none ∨
      ∃ b₀ b, (channel (c.build setters).new_ping_config now).bdp = some b₀ ∧
        b₀.bdp = SPEC_WINDOW_SIZE ∧ b₀.calculateAll samples = some b ∧
        SPEC_WINDOW_SIZE ≤ b.bdp ∧ b.bdp ≤ BDP_LIMIT ∧
        0 < b.ping_delay ∧ b.ping_delay < Duration.from_secs 40 ∧
        ∀ bytes slower, bytes ≤ usize_max 64 / 2 →
          ∃ b' update, b.calculate bytes slower = some (b', update) ∧
            ∀ w, update = some w → w = b'.bdp ∧ b.bdp < w := by
  rcases Config.bdp_initial_window_build hc setters with hnone | hspec
  · left
    rw [channel, hnone]
    rfl
  · right
    obtain ⟨b, hrun, hinv⟩ := Bdp.inv_initial.calculateAll samples hs
    refine ⟨_, b, by rw [channel, hspec]; rfl, rfl, hrun, hinv.spec_le, hinv.le_limit,
      hinv.delay_pos, hinv.delay_lt, fun bytes slower hbytes ↦ ?_⟩
    obtain ⟨b', update, hcalc, -, hup⟩ := hinv.calculate hbytes slower
    exact ⟨b', update, hcalc, hup⟩

/-- A client with the adaptive window on, after one sample of 65535 bytes. -/
theorem adaptive_client_first_sample :
    (channel (client.default_config.build [.adaptive_window true]).new_ping_config 0).bdp = none ∨
      ∃ b₀ b, (channel (client.default_config.build [.adaptive_window true]).new_ping_config 0).bdp
          = some b₀ ∧
        b₀.bdp = SPEC_WINDOW_SIZE ∧ b₀.calculateAll [(65535, false)] = some b ∧
        SPEC_WINDOW_SIZE ≤ b.bdp ∧ b.bdp ≤ BDP_LIMIT ∧
        0 < b.ping_delay ∧ b.ping_delay < Duration.from_secs 40 ∧
        ∀ bytes slower, bytes ≤ usize_max 64 / 2 →
          ∃ b' update, b.calculate bytes slower = some (b', update) ∧
            ∀ w, update = some w → w = b'.bdp ∧ b.bdp < w :=
  bdp_window_bounds rfl [.adaptive_window true] 0 [(65535, false)] (by simp [usize_max])

end H2

end Hyper
