import Hyper.H1.ServerRuns

/-!
# `poll_read` comes back

`Dispatcher::poll_read` is a `loop` with no bound of its own.  It goes round again after reading
a head, after handing a chunk of the request body to the body's sender, and after letting go of
the sender; every other round returns.  What stops it is the invariant of `Hyper.H1.DispatcherRuns`
together with the body channel's capacity: the service takes one future at a time, a head is read
only while none is in flight, and the channel of `Body::new_channel` is an `mpsc::channel(0)`, which
parks its sender after one chunk, so the next `poll_ready` waits.

`read_rank` counts what is left: a head while no future is in flight and the read side is open,
then what the held sender can still take.  Each round that goes on lowers it (`read_rank_lt`), and
it is at most five.  The reader of a body runs in a task of its own, and each time it polls the
body between two rounds it may take the chunk waiting there and let the parked sender take one
more: an act of a reader raises the rank by one at most (`read_rank_reader_act`).  So `poll_read`
runs at most six rounds more than the acts of the readers the answers hold, from every state the
invariant holds in, whatever the service, the transport and the readers answer
(`poll_read_take`).  For the server role no round panics either
(`Conn.server_poll_read_head_isSome` and `Inv.read_round_isSome`), and `server_poll_read_returns`
puts the two together.
-/

set_option autoImplicit false

namespace Hyper.H1

open Body

/-! ## What is left for the loop -/

namespace Dispatcher

variable {B : Type} [Buf B] (T : Transaction RequestLine StatusCode) {d d' : Dispatcher B}

/-- What the held sender can still take in one call of `poll_read`: a sender with room takes one
chunk and is parked by it, and a parked one only waits or lets go. -/
def body_rank (d : Dispatcher B) : ℕ :=
  match d.body_tx with
  | none => 0
  | some i =>
    match d.chans[i]? with
    | some ch => if ch.parked then 1 else 2
    | none => 0

/-- A head can still be read while no future is in flight and the read side is open. -/
def head_rank (d : Dispatcher B) : ℕ := if !d.in_flight && !d.conn.state.is_read_closed then 3 else 0

/-- What is left for `poll_read`'s loop: nothing once the dispatcher is closing. -/
def read_rank (d : Dispatcher B) : ℕ := if d.is_closing then 0 else head_rank d + body_rank d

omit [Buf B] in
theorem body_rank_le (d : Dispatcher B) : body_rank d ≤ 2 := by
  unfold body_rank
  split
  · omega
  · split
    · split_ifs <;> omega
    · omega

omit [Buf B] in
theorem read_rank_le (d : Dispatcher B) : read_rank d ≤ 5 := by
  have hb := body_rank_le d
  unfold read_rank head_rank
  split_ifs <;> omega

omit [Buf B] in
theorem read_rank_of_not_closing (hc : d.is_closing = false) : read_rank d = head_rank d + body_rank d := by
  rw [read_rank, hc, if_neg Bool.false_ne_true]

omit [Buf B] in
@[simp] theorem body_rank_drop_body_tx (d : Dispatcher B) : body_rank (drop_body_tx d) = 0 := by
  simp [body_rank]

omit [Buf B] in
/-- The held sender's channel is there, so it can still take something or let go. -/
theorem Arena.body_rank_pos (h : Arena d) {i : ℕ} (hi : d.body_tx = some i) : 0 < body_rank d := by
  obtain ⟨ch, hch, -⟩ := h.held i hi
  unfold body_rank
  rw [hi]
  dsimp only
  rw [hch]
  dsimp only
  split_ifs <;> omega

omit [Buf B] in
/-- Without a future in flight on an open read side, nothing a round leaves is worth a head. -/
theorem read_rank_lt_of_head (hd : head_rank d = 3) (hc : d.is_closing = false)
    (h' : head_rank d' = 0 ∨ d'.is_closing = true) : read_rank d' < read_rank d := by
  have hb := body_rank_le d'
  rw [read_rank_of_not_closing hc, hd]
  rcases h' with h' | h'
  · unfold read_rank
    split_ifs <;> omega
  · rw [read_rank, if_pos h']
    omega

omit [Buf B] in
/-- A round that keeps the future in flight and a closed read side closed has no more heads to
read than before. -/
theorem head_rank_le (hf : d'.in_flight = d.in_flight)
    (hr : d.conn.state.reading = .Closed → d'.conn.state.reading = .Closed) : head_rank d' ≤ head_rank d := by
  unfold head_rank State.is_read_closed
  rw [hf]
  by_cases hcl : d.conn.state.reading = .Closed
  · simp [hcl, hr hcl]
  · split_ifs <;> simp_all

/-! ## What the readers do between rounds -/

/-- How many acts of the body readers the answers hold. -/
def reader_acts (ws : List ReadWorld) : ℕ := (ws.map fun w ↦ w.readers.length).sum

@[simp] theorem reader_acts_cons (w : ReadWorld) (ws : List ReadWorld) :
    reader_acts (w :: ws) = w.readers.length + reader_acts ws := by
  simp [reader_acts]

omit [Buf B] in
/-- A channel that changes under the held sender lets it take one chunk more at most. -/
theorem body_rank_set (i : ℕ) (x : Channel) :
    body_rank { d with chans := d.chans.set i x } ≤ body_rank d + 1 := by
  unfold body_rank
  rcases d.body_tx with _ | j
  · exact Nat.zero_le _
  dsimp only
  rcases hj : d.chans[j]? with _ | ch
  · -- no channel there before, and none after
    have hnone : (d.chans.set i x)[j]? = none :=
      List.getElem?_eq_none_iff.mpr (by rw [List.length_set]; exact List.getElem?_eq_none_iff.mp hj)
    rw [hnone]
    exact Nat.le_succ _
  · dsimp only
    rcases (d.chans.set i x)[j]? with _ | ch' <;> dsimp only <;> split_ifs <;> omega

omit [Buf B] in
/-- A reader's act changes nothing but its channel, so the rank goes up by one at most. -/
theorem read_rank_on_reader (i : ℕ) (f : Channel → Channel) :
    read_rank (d.on_reader i f) ≤ read_rank d + 1 := by
  unfold on_reader
  split
  · rename_i ch _
    split_ifs
    · have hb := body_rank_set (d := d) i (f ch)
      unfold read_rank head_rank
      dsimp only
      split_ifs <;> omega
    · omega
  · omega

omit [Buf B] in
theorem read_rank_reader_act : ∀ a : ReaderAct, read_rank (d.reader_act a) ≤ read_rank d + 1
  | .poll i => read_rank_on_reader i _
  | .drop i => read_rank_on_reader i _

omit [Buf B] in
theorem read_rank_readers (as : List ReaderAct) :
    ∀ {d : Dispatcher B}, read_rank (as.foldl reader_act d) ≤ read_rank d + as.length := by
  induction as with
  | nil => exact fun {_} ↦ le_rfl
  | cons a as ih =>
    intro d
    have h1 := read_rank_reader_act (d := d) a
    have h2 := ih (d := d.reader_act a)
    simp only [List.foldl_cons, List.length_cons]
    omega

/-! ## Each round that goes on lowers the rank -/

omit [Buf B] in
/-- A head round that goes on has read a head, closed, or seen the read side end. -/
theorem poll_read_head_rank (hT : T.Serves) {ready : Poll (Except Unit Unit)}
    (hg : d.conn.can_read_head T = true) (hc : d.is_closing = false)
    (h : poll_read_head T d ready = some (.ready (.ok ()), d')) : read_rank d' < read_rank d := by
  have hinit := Conn.reading_of_can_read_head T hg
  have hd : ∀ {x}, server_poll_ready d.in_flight ready = .ready x → head_rank d = 3 := fun hr ↦ by
    simp [head_rank, server_poll_ready_in_flight hr, State.is_read_closed, hinit]
  cases poll_read_head_cases T h with
  | service_gone hr => exact read_rank_lt_of_head (hd hr) hc (.inr rfl)
  | head hr _ =>
    -- a new request: its future is in flight
    exact read_rank_lt_of_head (hd hr) hc (.inl (by simp [head_rank]))
  | @eof c' hr hc' =>
    -- the read side ended: it is closed
    have hcl : c'.state.reading = .Closed := by
      rcases Conn.poll_read_head_cases T hT.reads_first hc' with ⟨h0, -⟩ | ⟨h0, -⟩ | ⟨_, _, _, h0, -⟩
      · cases h0
      · exact h0
      · cases h0
    refine read_rank_lt_of_head (hd hr) hc ?_
    split_ifs
    · exact .inr rfl
    · exact .inl (by simp [head_rank, State.is_read_closed, hcl])

omit [Buf B] in
/-- A body round that goes on has sent a chunk into a channel with room, which parks its sender,
or let the sender go. -/
theorem read_body_rank {i : ℕ} {ch : Channel} {gone : Bool} (hi : d.body_tx = some i)
    (hch : d.chans[i]? = some ch) (h : read_body T d i ch gone = some (none, d')) :
    d'.in_flight = d.in_flight ∧ d'.is_closing = d.is_closing ∧ body_rank d' < body_rank d := by
  have hrank : body_rank d = if ch.parked then 1 else 2 := by
    simp only [body_rank, hi, hch]
  have hdrop : ∀ e : Dispatcher B, e.in_flight = d.in_flight → e.is_closing = d.is_closing →
      (drop_body_tx e).in_flight = d.in_flight ∧ (drop_body_tx e).is_closing = d.is_closing ∧
        body_rank (drop_body_tx e) < body_rank d := by
    intro e hf hc
    refine ⟨by simpa using hf, by simpa using hc, ?_⟩
    rw [body_rank_drop_body_tx, hrank]
    split_ifs <;> omega
  cases read_body_cases T h with
  | abandoned _ _ | eof _ _ | error _ _ => exact hdrop _ rfl rfl
  | @sent c' chunk ch' hpr _ hsend =>
    -- the channel took the chunk: its sender is parked now
    obtain ⟨-, hpk, -⟩ := Channel.poll_ready_ok hpr
    have hok : (Sender.try_send_data (if gone = true then ch.drop_body else ch) chunk).1 = .ok () := by
      rw [hsend]
    obtain ⟨-, -, heq⟩ := Channel.try_send_data_ok hok
    rw [hsend] at heq
    have hlt : i < d.chans.length := (List.getElem?_eq_some_iff.mp hch).1
    refine ⟨rfl, rfl, ?_⟩
    have hnew : body_rank { d with conn := c', chans := d.chans.set i ch' } = 1 := by
      simp only [body_rank, hi, List.getElem?_set_self hlt]
      dsimp only at heq
      rw [heq]
      rfl
    rw [hnew, hrank, hpk]
    decide
  | @refused c' _ _ chE _ _ _ =>
    -- the reader went just before the send: the sender is let go
    have hd := hdrop { d with conn := c', chans := d.chans.set i chE } rfl rfl
    split_ifs <;> exact hd

/-- **Each round of `poll_read` that goes on lowers `read_rank`.** -/
theorem read_rank_lt (hT : T.Serves) (h : Inv d) {w : ReadWorld}
    (hr : poll_read_round T d w = some (none, d')) : read_rank d' < read_rank d := by
  cases poll_read_round_cases T hr with
  | head_again hc hg h0 => exact poll_read_head_rank T hT hg hc h0
  | body hc _ hbt _ hch hr =>
    have hpos := h.arena.body_rank_pos hbt
    obtain ⟨hf, hcl, hlt⟩ := read_body_rank T hbt hch hr
    have hle := head_rank_le hf (moves_read_body T hr).reading_closed
    rw [read_rank_of_not_closing hc, read_rank_of_not_closing (hcl.trans hc)]
    omega
  | ended hc _ hbt _ =>
    -- the body ended: the sender is let go
    have hpos := h.arena.body_rank_pos hbt
    have hh : head_rank (drop_body_tx d) = head_rank d := by simp [head_rank]
    rw [read_rank_of_not_closing hc, read_rank_of_not_closing (by rw [drop_body_tx_is_closing, hc]), hh,
      body_rank_drop_body_tx]
    omega

/-! ## The loop -/

/-- **`poll_read` runs at most `read_rank + 1` rounds more than the acts of the readers**: the
answers after those are never asked for. -/
theorem poll_read_take (hT : T.Serves) :
    ∀ (ws : List ReadWorld) (n : ℕ) {d : Dispatcher B}, Inv d → read_rank d + reader_acts ws < n →
      poll_read T ws d = poll_read T (ws.take n) d
  | [], _, _, _, _ => by simp
  | _ :: _, 0, _, _, hn => absurd hn (Nat.not_lt_zero _)
  | w :: ws, n + 1, d, h, hn => by
    rw [List.take_succ_cons]
    unfold poll_read
    -- the readers act first, each letting the held sender go on once at most
    have h0 := h.readers w.readers
    have hle := read_rank_readers w.readers (d := d)
    rw [reader_acts_cons] at hn
    rcases hr : poll_read_round T (w.readers.foldl reader_act d) w with _ | ⟨_ | r, d'⟩
    · rfl
    · -- the round goes on, from a lower rank
      have hlt := read_rank_lt T hT h0 hr
      exact poll_read_take hT ws n (h0.read_round T hT hr) (by omega)
    · rfl

/-- With enough answers and rounds that do not panic, `poll_read` returns. -/
theorem poll_read_isSome (hT : T.Serves)
    (hround : ∀ d : Dispatcher B, Inv d → ∀ w, (poll_read_round T d w).isSome) :
    ∀ (ws : List ReadWorld) {d : Dispatcher B}, Inv d → read_rank d + reader_acts ws < ws.length →
      (poll_read T ws d).isSome
  | [], _, _, hn => absurd hn (Nat.not_lt_zero _)
  | w :: ws, d, h, hn => by
    unfold poll_read
    have h0 := h.readers w.readers
    have hle := read_rank_readers w.readers (d := d)
    rw [reader_acts_cons, List.length_cons] at hn
    have hs := hround _ h0 w
    rcases hr : poll_read_round T (w.readers.foldl reader_act d) w with _ | ⟨_ | r, d'⟩
    · rw [hr] at hs
      cases hs
    · have hlt := read_rank_lt T hT h0 hr
      exact poll_read_isSome hT hround ws (h0.read_round T hT hr) (by omega)
    · rfl

/-! ## The server's `poll_read` -/

section Server

variable (parser : RequestParser) (uri_parse : UriParser)
  (canonical_reason : StatusCode → Option (List UInt8)) (date : List UInt8)

omit [Buf B] in
/-- No round of the server's `poll_read` panics from a state the invariant holds in. -/
theorem read_round_isSome_server (h : Inv d) (w : ReadWorld) :
    (poll_read_round (Transaction.server parser uri_parse canonical_reason date) d w).isSome := by
  by_cases hg : d.conn.can_read_head (Transaction.server parser uri_parse canonical_reason date) = true
  · unfold poll_read_round
    by_cases hclose : d.is_closing = true
    · rw [if_pos hclose]
      rfl
    rw [if_neg hclose, if_pos hg, Option.isSome_map]
    unfold Dispatcher.poll_read_head
    split
    · rfl
    · rfl
    · rw [Option.isSome_map]
      exact Conn.server_poll_read_head_isSome parser uri_parse canonical_reason date d.conn
  · exact h.read_round_isSome _ w (eq_false_of_ne_true hg)

variable [LawfulBuf B]

/-- **The server's `poll_read` comes back within six rounds and one more for each act of a body
reader.** From every reachable state, and whatever the service, the transport and the readers of
the request bodies answer, the loop of `poll_read` never asks for more answers than six and one
for each time a reader polls or drops its body between rounds, and with that many it returns
without a panic. -/
theorem server_poll_read_returns
    (h : Reachable (Transaction.server parser uri_parse canonical_reason date) d)
    (ws : List ReadWorld) (hws : 6 + reader_acts ws ≤ ws.length) :
    (poll_read (Transaction.server parser uri_parse canonical_reason date) ws d).isSome ∧
      poll_read (Transaction.server parser uri_parse canonical_reason date) ws d =
        poll_read (Transaction.server parser uri_parse canonical_reason date)
          (ws.take (6 + reader_acts ws)) d := by
  have hT := server_serves parser uri_parse canonical_reason date
  have hinv := h.inv hT
  have hrank : read_rank d + reader_acts ws < 6 + reader_acts ws := by
    have := read_rank_le d
    omega
  have hround : ∀ d' : Dispatcher B, Inv d' → ∀ w,
      (poll_read_round (Transaction.server parser uri_parse canonical_reason date) d' w).isSome :=
    fun _ h' w ↦ read_round_isSome_server parser uri_parse canonical_reason date h' w
  exact ⟨poll_read_isSome _ hT hround ws hinv (by omega), poll_read_take _ hT ws _ hinv hrank⟩

/-- A ready service, and the reader of the first body polling it before the round. -/
def pollingWorld : ReadWorld := ⟨[.poll 0], .ready (.ok ()), false⟩

theorem server_poll_read_returns_after_head :
    ∃ d : Dispatcher (List UInt8), Reachable (fiveServer false) d ∧
      6 + reader_acts (pollingWorld :: List.replicate 6 readyWorld) ≤
        (pollingWorld :: List.replicate 6 readyWorld).length ∧
      (poll_read (fiveServer false) (pollingWorld :: List.replicate 6 readyWorld) d).isSome ∧
      poll_read (fiveServer false) (pollingWorld :: List.replicate 6 readyWorld) d =
        poll_read (fiveServer false) ((pollingWorld :: List.replicate 6 readyWorld).take
          (6 + reader_acts (pollingWorld :: List.replicate 6 readyWorld))) d := by
  obtain ⟨d, hreach, -⟩ := fiveServer_reads_head false
  have hlen : 6 + reader_acts (pollingWorld :: List.replicate 6 readyWorld) ≤
      (pollingWorld :: List.replicate 6 readyWorld).length := by
    simp [reader_acts, pollingWorld, readyWorld]
  exact ⟨d, hreach, hlen, server_poll_read_returns _ _ _ _ hreach _ hlen⟩

end Server

end Dispatcher

end Hyper.H1
