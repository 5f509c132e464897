import Hyper.H1.Io

/-!
# The header read timeout of a server connection (`parse_headers`, `Buffered::parse`)

A server built with `http1_header_read_timeout(T)` keeps a timer in its `State`: the timeout, a
sleep with a deadline, and a `running` flag.  Three places touch it:

* `parse_headers`, on every call that finds bytes buffered, sets the sleep's deadline to
  `now + T` *if the timer is not running* (`armHeaderTimer`);
* `Buffered::parse`, when a head is still incomplete, polls the sleep *if the timer is running*,
  and fails with `HeaderTimeout` once the deadline has passed;
* `Buffered::parse`, when a head is complete, clears the flag and pushes the deadline thirty days
  out.

Nothing sets the flag.  `Conn::new` starts it `false`, and the only assignments store `false`.  So
the sleep is never polled and the timeout never fires, and every attempt that finds bytes
buffered moves the deadline to its own time plus `T`.

## What is here

* `parseTimed` — `Buffered::parse` with the timer, at the time `now` of the attempt, over the
  model of `Buffered::parse` without it.
* `parseTimedLoop_untimed` — with the flag down, the timed parse returns what `Buffered.parse`
  returns, leaves the buffer as it does, and keeps the flag down.
* `parseTimedLoop_deadline` — an attempt that finds bytes and does not complete a head leaves
  the deadline at `now + T`.
* `attempts_never_time_out` — so, over any sequence of attempts from the timer `Conn::new`
  builds, no attempt fails with `HeaderTimeout` (`header_timeout_never_fires`).

Times are in nanoseconds, and one attempt happens at one instant.
-/

set_option autoImplicit false

namespace Hyper

namespace Poll

/-- `Poll::map`. -/
def map {α β : Type} (f : α → β) : Poll α → Poll β
  | .ready a => .ready (f a)
  | .pending => .pending

/-- `Poll::is_pending`. -/
def is_pending {α : Type} : Poll α → Bool
  | .ready _ => false
  | .pending => true

end Poll

namespace H1

/-- What a parse with the timer fails with: an error of the untimed parse, or
`Kind::HeaderTimeout`. -/
inductive TimedError where
  | Error (e : Error)
  | HeaderTimeout
  deriving DecidableEq, Repr

/-- The timer fields of a connection's `State`; the sleep is its deadline. -/
structure HeaderTimer where
  h1_header_read_timeout : Option ℕ
  h1_header_read_timeout_fut : Option ℕ
  h1_header_read_timeout_running : Bool
  deriving DecidableEq, Repr

/-- The timer of `Conn::new` after `set_http1_header_read_timeout`. -/
def HeaderTimer.new (h1_header_read_timeout : Option ℕ) : HeaderTimer :=
  ⟨h1_header_read_timeout, none, false⟩

/-- Thirty days, the deadline a completed head pushes the sleep to. -/
def thirtyDays : ℕ := 30 * 24 * 60 * 60 * 10 ^ 9

/-- The timer part of `parse_headers` at time `now`: with bytes buffered and the timer not
running, the sleep is set (or reset) to `now` plus the timeout. -/
def armHeaderTimer (now : ℕ) (bytes : List UInt8) (t : HeaderTimer) : HeaderTimer :=
  if bytes = [] then t
  else if !t.h1_header_read_timeout_running then
    match t.h1_header_read_timeout with
    | some h1_header_read_timeout => { t with h1_header_read_timeout_fut := some (now + h1_header_read_timeout) }
    | none => t
  else t

namespace Buffered

variable {B : Type}

/-- The `loop` of `Buffered::parse` with the timer, at time `now`, with `fuel` rounds. -/
def parseTimedLoop {T : Type} (parse : List UInt8 → Except Parse (Option (ParsedMessage T)) × List UInt8)
    (now : ℕ) : ℕ → Buffered B → HeaderTimer → Poll (Except TimedError (ParsedMessage T)) × Buffered B × HeaderTimer
  | 0, b, t => (.pending, b, t)
  | fuel + 1, b, t =>
    let t := armHeaderTimer now b.read_buf t
    match parse_headers parse b.read_buf with
    | (.error e, buf) => (.ready (.error (.Error (.Parse e))), { b with read_buf := buf }, t)
    | (.ok (some msg), buf) =>
      (.ready (.ok msg), { b with read_buf := buf },
        { t with
          h1_header_read_timeout_running := false
          h1_header_read_timeout_fut := t.h1_header_read_timeout_fut.map fun _ ↦ now + thirtyDays })
    | (.ok none, buf) =>
      let b := { b with read_buf := buf }
      if b.read_buf.length ≥ b.read_buf_strategy.max then (.ready (.error (.Error (.Parse .TooLarge))), b, t)
      -- the sleep is polled only while the timer runs
      else if t.h1_header_read_timeout_running ∧ t.h1_header_read_timeout_fut.any (· ≤ now) then
        (.ready (.error .HeaderTimeout), b, { t with h1_header_read_timeout_running := false })
      else
        match b.poll_read_from_io with
        | (.pending, b) => (.pending, b, t)
        | (.ready (.error e), b) => (.ready (.error (.Error (.Io e))), b, t)
        | (.ready (.ok n), b) =>
          if n = 0 then (.ready (.error (.Error .IncompleteMessage)), b, t) else parseTimedLoop parse now fuel b t

/-- `Buffered::parse` with the timer, with as many rounds as `Buffered.parse`. -/
def parseTimed {T : Type} (parse : List UInt8 → Except Parse (Option (ParsedMessage T)) × List UInt8)
    (now : ℕ) (b : Buffered B) (t : HeaderTimer) : Poll (Except TimedError (ParsedMessage T)) × Buffered B × HeaderTimer :=
  parseTimedLoop parse now (b.io.incoming.length + 1) b t

/-- Parse attempts at the times `ts`, one after another on the same buffer and timer. -/
def attempts {T : Type} (parse : List UInt8 → Except Parse (Option (ParsedMessage T)) × List UInt8) :
    List ℕ → Buffered B → HeaderTimer → List (Poll (Except TimedError (ParsedMessage T))) × Buffered B × HeaderTimer
  | [], b, t => ([], b, t)
  | now :: ts, b, t =>
    let (r, b, t) := parseTimed parse now b t
    let (rs, b, t) := attempts parse ts b t
    (r :: rs, b, t)

/-! ## The flag stays down -/

/-- A result of the untimed parse, as the timed one reports it. -/
def untimed {T : Type} (r : Poll (Except Error (ParsedMessage T))) : Poll (Except TimedError (ParsedMessage T)) :=
  r.map (·.mapError .Error)

/-- Arming leaves the flag as it is. -/
@[simp] theorem armHeaderTimer_running (now : ℕ) (bytes : List UInt8) (t : HeaderTimer) :
    (armHeaderTimer now bytes t).h1_header_read_timeout_running = t.h1_header_read_timeout_running := by
  unfold armHeaderTimer
  split_ifs
  · rfl
  · split <;> rfl
  · rfl

@[simp] theorem armHeaderTimer_timeout (now : ℕ) (bytes : List UInt8) (t : HeaderTimer) :
    (armHeaderTimer now bytes t).h1_header_read_timeout = t.h1_header_read_timeout := by
  unfold armHeaderTimer
  split_ifs
  · rfl
  · split <;> rfl
  · rfl

/-- **The timed parse is the untimed one** while the flag is down: the same result and buffer,
and the flag still down. -/
theorem parseTimedLoop_untimed {T : Type} (parse : List UInt8 → Except Parse (Option (ParsedMessage T)) × List UInt8)
    (now : ℕ) : ∀ (fuel : ℕ) (b : Buffered B) (t : HeaderTimer), t.h1_header_read_timeout_running = false →
      (parseTimedLoop parse now fuel b t).1 = untimed (parseLoop parse fuel b).1 ∧
      (parseTimedLoop parse now fuel b t).2.1 = (parseLoop parse fuel b).2 ∧
      (parseTimedLoop parse now fuel b t).2.2.h1_header_read_timeout_running = false
  | 0, b, t, ht => ⟨rfl, rfl, ht⟩
  | fuel + 1, b, t, ht => by
    have ht' : (armHeaderTimer now b.read_buf t).h1_header_read_timeout_running = false := by
      rw [armHeaderTimer_running, ht]
    unfold parseTimedLoop parseLoop
    rcases hp : parse_headers parse b.read_buf with ⟨e | (_ | msg), buf⟩
    · exact ⟨rfl, rfl, ht'⟩
    · dsimp only
      split_ifs with hmax hrun
      · exact ⟨rfl, rfl, ht'⟩
      · -- with the flag down the sleep is not polled
        simp [ht] at hrun
      · rcases hr : poll_read_from_io { b with read_buf := buf } with ⟨(_ | n) | _, b'⟩
        · exact ⟨rfl, rfl, ht'⟩
        · dsimp only
          split_ifs
          · exact ⟨rfl, rfl, ht'⟩
          · exact parseTimedLoop_untimed parse now fuel b' _ ht'
        · exact ⟨rfl, rfl, ht'⟩
    · exact ⟨rfl, rfl, rfl⟩

/-- With the flag down, no attempt fails with `HeaderTimeout`. -/
theorem parseTimed_ne_headerTimeout {T : Type}
    (parse : List UInt8 → Except Parse (Option (ParsedMessage T)) × List UInt8) (now : ℕ) (b : Buffered B)
    {t : HeaderTimer} (ht : t.h1_header_read_timeout_running = false) :
    (parseTimed parse now b t).1 ≠ .ready (.error .HeaderTimeout) := by
  rw [parseTimed, (parseTimedLoop_untimed parse now _ b t ht).1]
  unfold untimed
  rcases (parseLoop parse (b.io.incoming.length + 1) b).1 with (_ | _) | _ <;>
    simp [Poll.map, Except.mapError]

/-- **No attempt ever times out**: over any sequence of attempts from a timer whose flag is down,
no result is `HeaderTimeout`, and the flag is still down at the end. -/
theorem attempts_never_time_out {T : Type}
    (parse : List UInt8 → Except Parse (Option (ParsedMessage T)) × List UInt8) :
    ∀ (ts : List ℕ) (b : Buffered B) (t : HeaderTimer), t.h1_header_read_timeout_running = false →
      .ready (.error .HeaderTimeout) ∉ (attempts parse ts b t).1 ∧
        (attempts parse ts b t).2.2.h1_header_read_timeout_running = false
  | [], _, _, ht => ⟨List.not_mem_nil, ht⟩
  | now :: ts, b, t, ht => by
    have hstep := parseTimedLoop_untimed parse now (b.io.incoming.length + 1) b t ht
    obtain ⟨hrest, hrun⟩ :=
      attempts_never_time_out parse ts (parseTimed parse now b t).2.1 (parseTimed parse now b t).2.2 hstep.2.2
    refine ⟨?_, hrun⟩
    simp only [attempts, List.mem_cons, not_or]
    exact ⟨fun h ↦ parseTimed_ne_headerTimeout parse now b ht h.symm, hrest⟩

/-! ## The deadline moves with every attempt -/

/-- With the flag down and the timeout set, arming bytes puts the deadline at `now` plus it. -/
theorem armHeaderTimer_fut {now T : ℕ} {bytes : List UInt8} {t : HeaderTimer}
    (ht : t.h1_header_read_timeout_running = false) (hT : t.h1_header_read_timeout = some T) (hb : bytes ≠ []) :
    (armHeaderTimer now bytes t).h1_header_read_timeout_fut = some (now + T) := by
  simp [armHeaderTimer, hb, ht, hT]

/-- Once an attempt has set the deadline to `now + T`, the rest of it keeps it there, unless it
completes a head. -/
theorem parseTimedLoop_keeps_deadline {T : Type}
    (parse : List UInt8 → Except Parse (Option (ParsedMessage T)) × List UInt8) {now d : ℕ} :
    ∀ (fuel : ℕ) (b : Buffered B) (t : HeaderTimer), t.h1_header_read_timeout_running = false →
      t.h1_header_read_timeout = some d → t.h1_header_read_timeout_fut = some (now + d) →
      (∃ msg, (parseTimedLoop parse now fuel b t).1 = .ready (.ok msg)) ∨
        (parseTimedLoop parse now fuel b t).2.2.h1_header_read_timeout_fut = some (now + d)
  | 0, _, _, _, _, hfut => .inr hfut
  | fuel + 1, b, t, ht, hd, hfut => by
    -- arming again, or not at all, leaves the deadline where it is
    have hfut' : (armHeaderTimer now b.read_buf t).h1_header_read_timeout_fut = some (now + d) := by
      by_cases hb : b.read_buf = []
      · simpa [armHeaderTimer, hb] using hfut
      · exact armHeaderTimer_fut ht hd hb
    have ht' : (armHeaderTimer now b.read_buf t).h1_header_read_timeout_running = false := by
      rw [armHeaderTimer_running, ht]
    have hd' : (armHeaderTimer now b.read_buf t).h1_header_read_timeout = some d := by
      rw [armHeaderTimer_timeout, hd]
    unfold parseTimedLoop
    rcases hp : parse_headers parse b.read_buf with ⟨e | (_ | msg), buf⟩
    · exact .inr hfut'
    · dsimp only
      split_ifs with hmax hrun
      · exact .inr hfut'
      · simp [ht] at hrun
      · rcases hr : poll_read_from_io { b with read_buf := buf } with ⟨(_ | n) | _, b'⟩
        · exact .inr hfut'
        · dsimp only
          split_ifs
          · exact .inr hfut'
          · exact parseTimedLoop_keeps_deadline parse fuel b' _ ht' hd' hfut'
        · exact .inr hfut'
    · exact .inl ⟨msg, rfl⟩

/-- **The deadline is postponed**: an attempt at `now` that finds bytes buffered and does not
complete a head leaves the deadline at `now + T`, however early an earlier attempt set it. -/
theorem parseTimedLoop_deadline {T : Type}
    (parse : List UInt8 → Except Parse (Option (ParsedMessage T)) × List UInt8) {now d : ℕ} {fuel : ℕ}
    {b : Buffered B} {t : HeaderTimer} (ht : t.h1_header_read_timeout_running = false)
    (hd : t.h1_header_read_timeout = some d) (hb : b.read_buf ≠ []) (hfuel : 0 < fuel) :
    (∃ msg, (parseTimedLoop parse now fuel b t).1 = .ready (.ok msg)) ∨
      (parseTimedLoop parse now fuel b t).2.2.h1_header_read_timeout_fut = some (now + d) := by
  obtain ⟨fuel, rfl⟩ : ∃ k, fuel = k + 1 := ⟨fuel - 1, by omega⟩
  -- the first round arms the timer, and the rest of the attempt keeps what it set
  have harm : (armHeaderTimer now b.read_buf t).h1_header_read_timeout_fut = some (now + d) :=
    armHeaderTimer_fut ht hd hb
  have hloop := parseTimedLoop_keeps_deadline parse (fuel + 1) b
    (armHeaderTimer now b.read_buf t) (by rw [armHeaderTimer_running, ht]) (by rw [armHeaderTimer_timeout, hd]) harm
  have hidem : armHeaderTimer now b.read_buf (armHeaderTimer now b.read_buf t) = armHeaderTimer now b.read_buf t := by
    simp [armHeaderTimer, hb, ht, hd]
  unfold parseTimedLoop at hloop ⊢
  rw [hidem] at hloop
  exact hloop

/-! ## A head that stays incomplete -/

/-- A parser for which the head is never complete. -/
def incompleteHead : List UInt8 → Except Parse (Option (ParsedMessage Unit)) × List UInt8 :=
  fun buf ↦ (.ok none, buf)

/-- A connection with a partial head buffered and a peer that sends nothing more. -/
def partialHead : Buffered (List UInt8) :=
  { Buffered.new ⟨[], [.pending, .pending], [], []⟩ .Flatten with read_buf := ascii "GET / HTTP/1.1\r\n" }

theorem header_timeout_never_fires :
    (∀ {B T : Type} (parse : List UInt8 → Except Parse (Option (ParsedMessage T)) × List UInt8)
      (h1_header_read_timeout : Option ℕ) (ts : List ℕ) (b : Buffered B),
      .ready (.error .HeaderTimeout) ∉ (attempts parse ts b (HeaderTimer.new h1_header_read_timeout)).1) ∧
    (attempts incompleteHead [0, 10 * 10 ^ 9] partialHead (HeaderTimer.new (some (5 * 10 ^ 9)))).1.map
        Poll.is_pending = [true, true] ∧
    (attempts incompleteHead [0, 10 * 10 ^ 9] partialHead
        (HeaderTimer.new (some (5 * 10 ^ 9)))).2.2.h1_header_read_timeout_fut = some (15 * 10 ^ 9) := by
  refine ⟨fun parse _ ts b ↦ (attempts_never_time_out parse ts b _ rfl).1, ?_, ?_⟩ <;> decide +kernel

end Buffered

end H1

end Hyper
