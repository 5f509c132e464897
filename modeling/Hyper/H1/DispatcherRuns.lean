import Hyper.H1.ConnSteps
import Hyper.Lib.Cells

/-!
# The invariant of a server dispatcher

`Dispatcher.Inv` is what holds of a server dispatcher between any two of its steps (`Step`): of
its connection, `Pipelined`; of its channels, `Arena` (every channel it made is `Channel.Sound`,
and the sender it holds is the one still open); of the body being read, that its channel is
`Framed` with the connection's decoder; and of a body whose reader asked for `100-continue`, that
the connection still waits for it.  `Inv.step` proves that each step keeps it, one lemma for each
round and each branch of the rounds, for any role that `Serves`; `inv_reachable` carries it over
every run from a new connection.
-/

set_option autoImplicit false

namespace Hyper.H1

open Body Relation

/-! ## The channels a dispatcher made -/

namespace Dispatcher

variable {B : Type} [Buf B] (T : Transaction RequestLine StatusCode)

/-- The channels' side of the invariant: every channel the dispatcher made is sound, and the
sender it holds is the one sender still open. -/
structure Arena (d : Dispatcher B) : Prop where
  sound : ∀ (i : ℕ) (ch : Channel), d.chans[i]? = some ch → ch.Sound
  held : ∀ i, d.body_tx = some i → ∃ ch : Channel, d.chans[i]? = some ch ∧ ch.tx_open = true
  senders : ∀ (i : ℕ) (ch : Channel), d.chans[i]? = some ch → ch.tx_open = true → d.body_tx = some i

namespace Arena

variable {d d' : Dispatcher B}

omit [Buf B] in
theorem frame (h : Arena d) (hc : d'.chans = d.chans) (ht : d'.body_tx = d.body_tx) : Arena d' := by
  obtain ⟨hs, hh, hsd⟩ := h
  refine ⟨?_, ?_, ?_⟩
  · rw [hc]
    exact hs
  · rw [hc, ht]
    exact hh
  · rw [hc, ht]
    exact hsd

omit [Buf B] in
/-- Dropping the sender held leaves no sender open. -/
theorem drop_body_tx (h : Arena d) : Arena (drop_body_tx d) := by
  unfold Dispatcher.drop_body_tx
  split
  · rename_i i hi
    refine ⟨fun j ch hj ↦ ?_, fun _ hn ↦ (by cases hn), fun j ch hj htx ↦ ?_⟩
    · obtain ⟨y, hy, rfl⟩ := List.getElem?_modify_eq_some hj
      have hsy := h.sound j y hy
      split_ifs
      · exact hsy.drop_sender
      · exact hsy
    · -- the sender at `i` is dropped, and every other one was closed before
      obtain ⟨y, hy, rfl⟩ := List.getElem?_modify_eq_some hj
      split_ifs at htx with hij
      · simp at htx
      · have := h.senders j y hy htx
        rw [hi, Option.some.injEq] at this
        exact absurd this hij
  · exact h

omit [Buf B] in
/-- A channel changed in place, to one that is sound and whose sender is as it was. -/
theorem set {i : ℕ} {ch ch' : Channel} (h : Arena d) (hc : d'.chans = d.chans.set i ch')
    (ht : d'.body_tx = d.body_tx) (hi : d.chans[i]? = some ch) (hs : ch'.Sound)
    (htx : ch'.tx_open = ch.tx_open) : Arena d' := by
  have hlt : i < d.chans.length := (List.getElem?_eq_some_iff.mp hi).1
  refine ⟨fun j x hj ↦ ?_, fun j hj ↦ ?_, fun j x hj hx ↦ ?_⟩
  · rw [hc] at hj
    rcases List.getElem?_set_eq_some hj with ⟨-, rfl⟩ | ⟨-, hj⟩
    · exact hs
    · exact h.sound j x hj
  · rw [ht] at hj
    obtain ⟨y, hy, hty⟩ := h.held j hj
    rw [hc]
    by_cases hij : i = j
    · subst hij
      rw [hi, Option.some.injEq] at hy
      subst hy
      exact ⟨ch', List.getElem?_set_self hlt, htx.trans hty⟩
    · exact ⟨y, by rw [List.getElem?_set_ne hij, hy], hty⟩
  · rw [ht]
    rw [hc] at hj
    rcases List.getElem?_set_eq_some hj with ⟨rfl, rfl⟩ | ⟨-, hj⟩
    · exact h.senders i ch hi (htx ▸ hx)
    · exact h.senders j x hj hx

omit [Buf B] in
/-- A new channel, whose sender a dispatcher that held none now holds. -/
theorem push {ch : Channel} (h : Arena d) (hn : d.body_tx = none) (hs : ch.Sound)
    (htx : ch.tx_open = true) :
    Arena { d with body_tx := some d.chans.length, chans := d.chans ++ [ch] } := by
  refine ⟨fun j x hj ↦ ?_, fun j hj ↦ ?_, fun j x hj hx ↦ ?_⟩
  · rcases List.getElem?_concat_eq_some hj with ⟨-, hj⟩ | ⟨-, rfl⟩
    · exact h.sound j x hj
    · exact hs
  · obtain rfl := Option.some.inj hj
    exact ⟨ch, List.getElem?_concat_length, htx⟩
  · rcases List.getElem?_concat_eq_some hj with ⟨-, hj⟩ | ⟨rfl, -⟩
    · -- every sender held before was closed
      have := h.senders j x hj hx
      rw [hn] at this
      cases this
    · rfl

end Arena

/-! ## The invariant and its steps -/

/-- The invariant of a server dispatcher. -/
structure Inv (d : Dispatcher B) : Prop where
  /-- One request at a time. -/
  pipelined : Pipelined d.conn.state d.in_flight
  arena : Arena d
  /-- A body being read goes to the channel of the sender held, which its decoder fills. -/
  reading : ∀ dec, d.conn.state.reading = .Body dec ∨ d.conn.state.reading = .Continue dec →
    ∃ (i : ℕ) (ch : Channel), d.body_tx = some i ∧ d.chans[i]? = some ch ∧ Framed ch dec
  /-- A body whose reader has not yet polled it has not been read into: its request still waits
  for its `100 Continue`, or the read side is closed. -/
  waiting : ∀ (i : ℕ) (ch : Channel), d.body_tx = some i → d.chans[i]? = some ch → ch.want = WANT_PENDING →
    (∃ dec, d.conn.state.reading = .Continue dec) ∨ d.conn.state.reading = .Closed

namespace Inv

variable {d d' : Dispatcher B}

omit [Buf B] in
/-- A step outside the body that leaves the channels and the sender held. -/
theorem frame (h : Inv d) (hc : d'.chans = d.chans) (ht : d'.body_tx = d.body_tx)
    (hp : Pipelined d'.conn.state d'.in_flight)
    (hr : ReadStays d.conn.state.reading d'.conn.state.reading) : Inv d' := by
  refine ⟨hp, h.arena.frame hc ht, fun dec hb ↦ ?_, fun i ch hi hch hw ↦ ?_⟩
  · have heq := hr.eq_of_body hb
    rw [← heq] at hb
    rw [hc, ht]
    exact h.reading dec hb
  · rw [ht] at hi
    rw [hc] at hch
    rcases hr with hr | hr | ⟨hka, -⟩
    · rw [hr]
      exact h.waiting i ch hi hch hw
    · exact .inr hr
    · -- a read side past its body is not waiting
      rcases h.waiting i ch hi hch hw with ⟨dec, hd⟩ | hd <;> rw [hd] at hka <;> cases hka

omit [Buf B] in
/-- A step that drops the sender once no body is being read. -/
theorem dropped {e : Dispatcher B} (ha : Arena e) (hp : Pipelined e.conn.state e.in_flight)
    (hb : e.conn.can_read_body = false) : Inv (drop_body_tx e) := by
  refine ⟨by simpa using hp, ha.drop_body_tx, fun dec hd ↦ ?_, fun i ch hi ↦ by simp at hi⟩
  rw [drop_body_tx_conn] at hd
  rw [Conn.can_read_body_of_reading hd] at hb
  cases hb

omit [Buf B] in
theorem close (h : Inv d) : Inv (Dispatcher.close d) := by
  have hr : (Dispatcher.close d).conn.state.reading = .Closed := rfl
  have hw : (Dispatcher.close d).conn.state.writing = .Closed := rfl
  exact h.frame rfl rfl (h.pipelined.close_read hr (.inr hw)) (.inr (.inl hr))

omit [Buf B] in
/-- A channel changed in place, as the reader of its body or its sender change it. -/
theorem set_chan {i : ℕ} {ch ch' : Channel} (h : Inv d) (hi : d.chans[i]? = some ch)
    (hs : ch'.Sound) (htx : ch'.tx_open = ch.tx_open) (hf : ∀ dec, Framed ch dec → Framed ch' dec)
    (hw : ch'.want = WANT_PENDING → ch.want = WANT_PENDING) :
    Inv { d with chans := d.chans.set i ch' } := by
  refine ⟨h.pipelined, h.arena.set rfl rfl hi hs htx, fun dec hb ↦ ?_, fun j x hj hx hwx ↦ ?_⟩
  · obtain ⟨j, x, hj, hx, hfx⟩ := h.reading dec hb
    by_cases hij : i = j
    · subst hij
      rw [hi, Option.some.injEq] at hx
      subst hx
      exact ⟨i, ch', hj, List.getElem?_set_self (List.getElem?_eq_some_iff.mp hi).1, hf dec hfx⟩
    · exact ⟨j, x, hj, by rw [List.getElem?_set_ne hij]; exact hx, hfx⟩
  · rcases List.getElem?_set_eq_some hx with ⟨rfl, rfl⟩ | ⟨-, hx⟩
    · exact h.waiting i ch hj hi (hw hwx)
    · exact h.waiting j x hj hx hwx

omit [Buf B] in
/-- The reader polls its body. -/
theorem poll_body {i : ℕ} {ch : Channel} (h : Inv d) (hi : d.chans[i]? = some ch)
    (hrx : ch.rx_open = true) : Inv { d with chans := d.chans.set i ch.poll_inner.2 } :=
  h.set_chan hi ((h.arena.sound i ch hi).poll_inner hrx) (Channel.poll_inner_tx_open ch)
    (fun _ hf ↦ hf.poll_inner) (fun hw ↦ by simp [WANT_READY, WANT_PENDING] at hw)

omit [Buf B] in
/-- The reader drops its body. -/
theorem drop_body {i : ℕ} {ch : Channel} (h : Inv d) (hi : d.chans[i]? = some ch) :
    Inv { d with chans := d.chans.set i ch.drop_body } :=
  h.set_chan hi (h.arena.sound i ch hi).drop_body (Channel.drop_body_tx_open ch) (fun _ hf ↦ hf.drop_body)
    (fun hw ↦ by simp [watch.CLOSED, WANT_PENDING] at hw)

omit [Buf B] in
/-- What a reader still there does to its body keeps the invariant, when each thing it may do
does. -/
theorem on_reader (h : Inv d) (i : ℕ) {f : Channel → Channel}
    (hf : ∀ ch, d.chans[i]? = some ch → ch.rx_open = true →
      Inv { d with chans := d.chans.set i (f ch) }) :
    Inv (d.on_reader i f) := by
  unfold Dispatcher.on_reader
  split
  · rename_i ch hch
    split_ifs with hrx
    · exact hf ch hch hrx
    · exact h
  · exact h

omit [Buf B] in
/-- A reader's act between two rounds keeps the invariant. -/
theorem reader_act (h : Inv d) : ∀ a : ReaderAct, Inv (d.reader_act a)
  | .poll i => h.on_reader i fun _ hch hrx ↦ h.poll_body hch hrx
  | .drop i => h.on_reader i fun _ hch _ ↦ h.drop_body hch

omit [Buf B] in
theorem readers (as : List ReaderAct) : ∀ {d : Dispatcher B}, Inv d → Inv (as.foldl Dispatcher.reader_act d) := by
  induction as with
  | nil => exact fun h ↦ h
  | cons a as ih => exact fun h ↦ ih (h.reader_act a)

omit [Buf B] in
/-- A new request: its head read at the start of a message, the service called with it, and its
body, if it has one, on a new channel whose sender the dispatcher now holds. -/
theorem recv {c' : Conn B} {len : DecodedLength} {wants : Wants} (h : Inv d)
    (hinit : d.conn.state.reading = .Init) (hr : c'.state.reading = headReading len wants.expect)
    (hw : c'.state.writing = d.conn.state.writing)
    (hlen : len = DecodedLength.CHUNKED ∨ len = DecodedLength.CLOSE_DELIMITED ∨
      len.val ≤ DecodedLength.MAX_LEN) :
    Inv { recv_body { d with conn := c' } len wants with in_flight := true } := by
  have hne : c'.state.reading ≠ .Init := by
    rw [hr]
    exact headReading_ne_init _ _
  have hp : Pipelined c'.state true :=
    ⟨fun hi ↦ absurd hi hne, fun _ ↦ ⟨hne, .inl (hw.trans (h.pipelined.idle hinit).1)⟩⟩
  rw [recv_body_eq]
  split_ifs with hz
  · -- no body: the read side is done with the request, and no body is waiting
    refine ⟨hp, h.arena.frame rfl rfl, fun dec hb ↦ ?_, fun i ch hi hch hwant ↦ ?_⟩
    · change c'.state.reading = _ ∨ c'.state.reading = _ at hb
      rw [hr, headReading, if_pos hz] at hb
      rcases hb with hb | hb <;> cases hb
    · rcases h.waiting i ch hi hch hwant with ⟨dec, hd⟩ | hd <;> rw [hd] at hinit <;> cases hinit
  · set e := drop_body_tx { d with conn := c' } with he
    have hce : e.conn = c' := drop_body_tx_conn _
    have hnew := framed_new hlen wants.expect
    have hreading : c'.state.reading =
        if wants.expect then .Continue (Decoder.new len) else .Body (Decoder.new len) := by
      rw [hr, headReading, if_neg hz]
    refine ⟨?_, ?_, fun dec hb ↦ ?_, fun i ch hi hch hwant ↦ ?_⟩
    · show Pipelined e.conn.state true
      rw [hce]
      exact hp
    · have ha : Arena { d with conn := c' } := h.arena.frame rfl rfl
      exact (ha.drop_body_tx.push (drop_body_tx_body_tx _) (Channel.sound_new_channel (hnew.sized rfl))
        rfl).frame rfl rfl
    · change e.conn.state.reading = _ ∨ e.conn.state.reading = _ at hb
      rw [hce, hreading] at hb
      -- the decoder of the body is the head's
      have hdec : dec = Decoder.new len := by
        rcases hex : wants.expect <;> rw [hex] at hb <;> simp at hb <;> exact hb.symm
      subst hdec
      exact ⟨e.chans.length, _, rfl, List.getElem?_concat_length, hnew⟩
    · change some e.chans.length = some i at hi
      obtain rfl := Option.some.inj hi
      change (e.chans ++ [new_channel len wants.expect])[e.chans.length]? = some ch at hch
      rw [List.getElem?_concat_length, Option.some.injEq] at hch
      subst hch
      -- a body that waits for its first poll is one whose request asked for `100 Continue`
      have hex : wants.expect = true := by
        cases hex : wants.expect
        · simp [new_channel, hex, WANT_READY, WANT_PENDING] at hwant
        · rfl
      refine .inl ⟨Decoder.new len, ?_⟩
      change e.conn.state.reading = _
      rw [hce, hreading, hex]
      rfl

omit [Buf B] in
/-- The head arm of a round of `poll_read`. -/
theorem poll_read_head (hT : T.Serves) {ready : Poll (Except Unit Unit)}
    {r : Poll (Except DispatchError Unit)} (h : Inv d) (hg : d.conn.can_read_head T = true)
    (hr : Dispatcher.poll_read_head T d ready = some (r, d')) : Inv d' := by
  have hinit := Conn.reading_of_can_read_head T hg
  -- a round of the connection that read no head keeps the invariant
  have hno : ∀ {r0 c'}, server_poll_ready d.in_flight ready = .ready (.ok ()) →
      d.conn.poll_read_head T = some (r0, c') → (∀ x, r0 ≠ .ready (some (.ok x))) →
      Inv { d with conn := c' } := by
    intro r0 c' hsr hc hnx
    rcases Conn.poll_read_head_cases T hT.reads_first hc with ⟨-, hs⟩ | ⟨hcl, -⟩ | ⟨_, _, _, rfl, -⟩
    · exact h.frame rfl rfl (h.pipelined.congr (by rw [hs]) (by rw [hs])) (by rw [hs]; exact .refl _)
    · -- a closed read side, and the service is polled only with nothing in flight
      have hp : Pipelined c'.state d.in_flight :=
        server_poll_ready_in_flight hsr ▸ .of_reading_ne_init (by rw [hcl]; simp)
      exact h.frame rfl rfl hp (.inr (.inl hcl))
    · exact absurd rfl (hnx _)
  cases poll_read_head_cases T hr with
  | not_ready _ => exact h
  | service_gone _ => exact h.close
  | pending hsr hc | error hsr hc => exact hno hsr hc (fun _ h0 ↦ by cases h0)
  | eof hsr hc =>
    -- the end of the stream
    have hi := hno hsr hc (fun _ h0 ↦ by cases h0)
    split_ifs
    · exact hi.close
    · exact hi
  | head _ hc =>
    obtain ⟨⟨⟩, -⟩ | ⟨-, hnok⟩ | ⟨_, _, _, ⟨⟩, hrd, hwr, ctx, buf, rest, msg, hparse, hdec⟩ :=
      Conn.poll_read_head_cases T hT.reads_first hc
    · exact absurd rfl (hnok _)
    · exact h.recv hinit hrd hwr (hdec ▸ hT.framed ctx buf rest msg hparse)

omit [Buf B] in
/-- Watching the read side between requests. -/
theorem keep_alive (hT : T.Serves) (h : Inv d) (hg : d.conn.can_read_head T = false) :
    Inv { d with conn := (d.conn.poll_read_keep_alive T).2 } := by
  have hne : d.conn.state.reading ≠ .Init := fun hi ↦ by
    rw [Conn.can_read_head_of_init T hT.reads_first hi] at hg
    cases hg
  exact h.frame rfl rfl (Conn.pipelined_poll_read_keep_alive T hne h.pipelined)
    (Conn.readStays_poll_read_keep_alive T _)

omit [Buf B] in
/-- The body's reader is gone: what the body has ready is read, the read side closed unless that
finished it, and the sender dropped. -/
theorem drain {c' : Conn B} (h : Inv d) (hb : d.conn.can_read_body = true)
    (hc : d.conn.poll_drain_or_close_read T = some c') : Inv (drop_body_tx { d with conn := c' }) := by
  obtain ⟨dec, hd⟩ := Conn.reading_of_can_read_body hb
  obtain ⟨r0, c1, hc1, ⟨rfl, hr1⟩ | rfl⟩ := Conn.poll_drain_or_close_read_cases T hc
  · refine Inv.dropped (h.arena.frame rfl rfl) (Conn.pipelined_poll_read_body T hd hc1 h.pipelined) ?_
    dsimp only
    unfold Conn.can_read_body
    rcases hr1 with hr1 | hr1 <;> rw [hr1]
  · exact Inv.dropped (h.arena.frame rfl rfl)
      ((Conn.pipelined_poll_read_body T hd hc1 h.pipelined).close_read rfl (.inl rfl)) rfl

omit [Buf B] in
/-- A read that keeps the sender: the channel held, now `ch'`, is the one the decoder, now
`dec'`, fills. -/
theorem resume {i : ℕ} {ch ch' : Channel} {dec' : Decoder} (h : Inv d) (hi : d.body_tx = some i)
    (hch : d.chans[i]? = some ch) (hc : d'.chans = d.chans.set i ch') (ht : d'.body_tx = d.body_tx)
    (hp : Pipelined d'.conn.state d'.in_flight) (hs : ch'.Sound) (htx : ch'.tx_open = ch.tx_open)
    (hwant : ch'.want ≠ WANT_PENDING)
    (hread : ∀ x, d'.conn.state.reading = .Body x ∨ d'.conn.state.reading = .Continue x → x = dec')
    (hfr : Framed ch' dec') : Inv d' := by
  have hlt : i < d.chans.length := (List.getElem?_eq_some_iff.mp hch).1
  refine ⟨hp, h.arena.set hc ht hch hs htx, fun x hb ↦ ?_, fun j y hj hy hw ↦ ?_⟩
  · obtain rfl := hread x hb
    exact ⟨i, ch', ht.trans hi, by rw [hc]; exact List.getElem?_set_self hlt, hfr⟩
  · rw [ht, hi, Option.some.injEq] at hj
    subst hj
    rw [hc, List.getElem?_set_self hlt, Option.some.injEq] at hy
    subst hy
    exact absurd hw hwant

omit [Buf B] in
/-- The body arm of a round of `poll_read`. -/
theorem read_body {i : ℕ} {ch : Channel} {gone : Bool} {r : Option (Poll (Except DispatchError Unit))}
    (h : Inv d) (hi : d.body_tx = some i) (hch : d.chans[i]? = some ch)
    (hb : d.conn.can_read_body = true) (hr : Dispatcher.read_body T d i ch gone = some (r, d')) :
    Inv d' := by
  obtain ⟨dec, hd⟩ := Conn.reading_of_can_read_body hb
  -- the channel held is the one the decoder fills
  have hfr : Framed ch dec := by
    obtain ⟨j, x, hj, hx, hfx⟩ := h.reading dec hd
    rw [hi, Option.some.injEq] at hj
    subst hj
    rw [hch, Option.some.injEq] at hx
    exact hx ▸ hfx
  have hsound := h.arena.sound i ch hch
  unfold Dispatcher.read_body at hr
  rcases hpr : Sender.poll_ready ch with _ | ((⟨⟩ | ⟨⟩) | _) <;> rw [hpr] at hr <;> dsimp only at hr
  · cases hr
  · -- the reader dropped the body before its end
    obtain ⟨c', hc, hf⟩ := Option.map_eq_some_iff.mp hr
    obtain ⟨-, rfl⟩ := Prod.mk.inj hf
    exact h.drain T hb hc
  · -- the body wants data and the channel has room: read, and send what the connection gives
    obtain ⟨hwr, hpk, -⟩ := Channel.poll_ready_ok hpr
    obtain ⟨⟨r0, c'⟩, hc, hf⟩ := Option.map_eq_some_iff.mp hr
    have hp := Conn.pipelined_poll_read_body T hd hc h.pipelined
    obtain ⟨c1, -, hc1, hcases⟩ := Conn.poll_read_body_cases T hd hc
    have hready : ch.want ≠ WANT_PENDING := by
      rw [hwr]
      decide
    -- what a send finds: the channel as it was, or the body gone just before
    have hch1 : ∀ ch1 : Channel, (ch1 = ch ∨ ch1 = ch.drop_body) →
        ch1.Sound ∧ (ch1.parked = false ∨ ch1.rx_open = false) ∧ ch1.want ≠ WANT_PENDING ∧
          ch1.tx_open = ch.tx_open ∧ Framed ch1 dec := by
      rintro ch1 (rfl | rfl)
      · exact ⟨hsound, .inl hpk, hready, rfl, hfr⟩
      · exact ⟨hsound.drop_body, .inr rfl, by simp [watch.CLOSED, WANT_PENDING], rfl, hfr.drop_body⟩
    obtain ⟨hs1, hfree1, hwant1, htx1, hfr1⟩ := hch1 (if gone then ch.drop_body else ch)
      (by cases gone <;> simp)
    rcases hcases with ⟨rfl, dec', hr1, hfol⟩ | ⟨slice, rfl, dec', hfol, hr1⟩ | ⟨rfl, hr1⟩ |
      ⟨e, rfl, hr1⟩
    · -- nothing yet: the read side waits in the body
      obtain ⟨-, rfl⟩ := Prod.mk.inj hf
      refine h.resume hi hch (List.set_eq_self hch).symm rfl hp hsound rfl hready (fun x hx ↦ ?_)
        (hfr.follows_zero hfol)
      have heq : c'.state.reading = .Body dec' := (Conn.reading_body_of_keep_alive T hc1 hx).symm.trans hr1
      rw [heq] at hx
      rcases hx with hx | hx <;> cases hx
      rfl
    · -- a chunk: taken, or refused when the body went away
      dsimp only at hf
      have hs' := hs1.try_send_data hfree1 hwant1 (hfr1.owes_chunk hfol)
      have htx' := (Channel.try_send_data_tx_open (if gone then ch.drop_body else ch) slice).trans htx1
      have hwant' := Channel.try_send_data_want (if gone then ch.drop_body else ch) slice
      rcases hsend : Sender.try_send_data (if gone then ch.drop_body else ch) slice with
        ⟨rest | ⟨⟩, ch'⟩ <;> rw [hsend] at hf hs' htx' hwant' <;> dsimp only at hf hs' htx' hwant'
      · -- refused: the sender is dropped, and the read side closed if still in the body
        have ha : Arena { d with conn := c', chans := d.chans.set i ch' } := h.arena.set rfl rfl hch hs' htx'
        obtain ⟨-, rfl⟩ := Prod.mk.inj hf
        split_ifs with hcb
        · rw [drop_body_tx_with_conn]
          exact Inv.dropped (ha.frame rfl rfl) (hp.close_read rfl (.inl rfl)) rfl
        · exact Inv.dropped ha hp (eq_false_of_ne_true hcb)
      · -- taken: the decoder owes the body that much less
        have hfr' : Framed ch' dec' := by
          have := hfr1.send hfol (by rw [hsend])
          rwa [hsend] at this
        obtain ⟨-, rfl⟩ := Prod.mk.inj hf
        refine h.resume hi hch rfl rfl hp hs' htx' (hwant' ▸ hwant1) (fun x hx ↦ ?_) hfr'
        have heq := Conn.reading_body_of_keep_alive T hc1 hx
        rcases hr1 with hr1 | ⟨hr1, -⟩ <;> rw [hr1] at heq <;> rw [← heq] at hx
        · rcases hx with hx | hx <;> cases hx
          rfl
        · rcases hx with hx | hx <;> cases hx
    · -- the end of the body
      obtain ⟨-, rfl⟩ := Prod.mk.inj hf
      refine Inv.dropped (h.arena.frame rfl rfl) hp (Conn.can_read_body_keep_alive T hc1 ?_)
      unfold Conn.can_read_body
      rcases hr1 with hr1 | hr1 <;> rw [hr1]
    · -- an error of the body is sent to it, and the read side is closed
      obtain ⟨-, rfl⟩ := Prod.mk.inj hf
      refine Inv.dropped (h.arena.set rfl rfl hch (hs1.send_error hfree1 hwant1 e)
        ((Channel.send_error_tx_open _ e).trans htx1)) hp (Conn.can_read_body_keep_alive T hc1 ?_)
      unfold Conn.can_read_body
      rw [hr1]
  · obtain ⟨-, rfl⟩ := Prod.mk.inj (Option.some.inj hr)
    exact h

omit [Buf B] in
/-- **A round of `poll_read` keeps the invariant.** -/
theorem read_round (hT : T.Serves) {w : ReadWorld} {r : Option (Poll (Except DispatchError Unit))}
    (h : Inv d) (hr : poll_read_round T d w = some (r, d')) : Inv d' := by
  cases poll_read_round_cases T hr with
  | closing _ => exact h
  | head_again _ hg h0 => exact h.poll_read_head T hT hg h0
  | head_done _ hg h0 _ => exact h.poll_read_head T hT hg h0
  | keep_alive _ hg _ hka =>
    -- no body: watch the read side until the next request
    have := h.keep_alive T hT hg
    rw [hka] at this
    exact this
  | body _ _ hbt hb hch hr => exact h.read_body T hbt hch hb hr
  | ended _ _ _ hb =>
    -- the body ended: the sender is dropped
    exact Inv.dropped h.arena h.pipelined hb

variable [LawfulBuf B]

theorem poll_flush (h : Inv d) : Inv (Dispatcher.poll_flush T d).2 := by
  have hp := Conn.pipelined_poll_flush T h.pipelined
  have hr := Conn.readStays_poll_flush T d.conn
  unfold Dispatcher.poll_flush
  rcases hf : d.conn.poll_flush T with ⟨r, c'⟩
  rw [hf] at hp hr
  exact h.frame rfl rfl hp hr

omit [LawfulBuf B] in
/-- The head arm of a round of `poll_write`: the response is written, and nothing is in flight
after it. -/
theorem write_response {response : Poll (Except Unit (Response B))}
    {r : Option (Poll (Except DispatchError Unit))} (h : Inv d) (hif : d.in_flight = true)
    (hr : Dispatcher.write_response T d response = some (r, d')) : Inv d' := by
  have hne := (h.pipelined.busy hif).1
  have hresp : ∀ d' : Dispatcher B, d'.chans = d.chans → d'.body_tx = d.body_tx →
      d'.in_flight = false → d'.conn.state.reading = d.conn.state.reading → Inv d' := by
    intro d' hc ht hf hrd
    exact h.frame hc ht (hf ▸ .of_reading_ne_init (hrd ▸ hne)) (.inl hrd)
  cases write_response_cases T hr with
  | pending _ | service_error _ => exact h
  | full _ _ hc => exact hresp _ rfl rfl rfl (Conn.write_full_msg_sides T hc).1
  | ended _ _ _ hc | streamed _ _ _ hc => exact hresp _ rfl rfl rfl (Conn.write_head_sides T hc).1

omit [LawfulBuf B] in
/-- The body arm of a round of `poll_write`. -/
theorem write_body {data : Poll (Option (Except Unit B))} {end_stream : Bool}
    {r : Option (Poll (Except DispatchError Unit))} (h : Inv d) (hw : d.conn.can_write_body = true)
    (hr : Dispatcher.write_body d data end_stream = some (r, d')) : Inv d' := by
  obtain ⟨enc, henc⟩ := Conn.writing_of_can_write_body hw
  -- a body being written: its request's head was read, and nothing is in flight
  have hne : d.conn.state.reading ≠ .Init := h.pipelined.reading_ne_init (by rw [henc]; simp)
  have hif : d.in_flight = false :=
    h.pipelined.in_flight_eq_false (by rw [henc]; simp) (by rw [henc]; simp)
  have hbody : ∀ d' : Dispatcher B, d'.chans = d.chans → d'.body_tx = d.body_tx →
      d'.in_flight = d.in_flight → d'.conn.state.reading = d.conn.state.reading → Inv d' := by
    intro d' hc ht hf hrd
    exact h.frame hc ht (by rw [hf, hif]; exact .of_reading_ne_init (hrd ▸ hne)) (.inl hrd)
  -- `end_body` ends the body on the write side only
  have hend : ∀ e : Dispatcher B, e.chans = d.chans → e.body_tx = d.body_tx → e.in_flight = d.in_flight →
      e.conn = d.conn → Inv (Dispatcher.end_body e).2 := by
    intro e hc ht hf hconn
    have hrd := (Conn.end_body_sides e.conn).1
    unfold Dispatcher.end_body
    rcases hend : e.conn.end_body with ⟨_ | ⟨⟩, c'⟩ <;> rw [hend, hconn] at hrd <;>
      exact hbody _ hc ht hf hrd
  cases write_body_cases hr with
  | pending _ | empty _ _ _ => exact h
  | error _ => exact hbody _ rfl rfl rfl rfl
  | last_empty _ _ _ | eof _ => exact hend _ rfl rfl rfl rfl
  | last _ _ _ hc => exact hbody _ rfl rfl rfl (Conn.write_body_and_end_sides hc).1
  | chunk _ _ _ hc => exact hbody _ rfl rfl rfl (Conn.write_body_sides hc).1

/-- **A round of `poll_write` keeps the invariant.** -/
theorem write_round {w : WriteWorld B} {r : Option (Poll (Except DispatchError Unit))} (h : Inv d)
    (hr : poll_write_round T d w = some (r, d')) : Inv d' := by
  cases poll_write_round_cases T hr with
  | closing _ | idle _ _ _ _ => exact h
  | head _ _ _ hif hr => exact h.write_response T hif hr
  | @flush_again d1 _ _ _ hf | @flush_done _ d1 _ _ _ hf _ =>
    -- the write buffer is full: flush it
    have hfl := h.poll_flush T
    rw [hf] at hfl
    exact hfl
  | body_gone _ _ _ _ _ => exact h.frame rfl rfl h.pipelined (.refl _)
  | body _ _ _ _ hw hr => exact h.write_body hw hr

omit [Buf B] [LawfulBuf B] in
theorem disable_keep_alive (h : Inv d) : Inv (Dispatcher.disable_keep_alive d) := by
  have hd : Inv { d with conn := d.conn.disable_keep_alive } := by
    rcases Conn.disable_keep_alive_sides d.conn with hs | ⟨hr, hw⟩
    · have hr : d.conn.disable_keep_alive.state.reading = .Closed := by rw [hs]; rfl
      have hw : d.conn.disable_keep_alive.state.writing = .Closed := by rw [hs]; rfl
      exact h.frame rfl rfl (h.pipelined.close_read hr (.inr hw)) (.inr (.inl hr))
    · exact h.frame rfl rfl (h.pipelined.congr hr hw) (.inl hr)
  unfold Dispatcher.disable_keep_alive
  dsimp only
  split_ifs
  · exact hd.close
  · exact hd

/-- **Every step of a server dispatcher keeps the invariant.** -/
theorem step (hT : T.Serves) (h : Inv d) (hs : Step T d d') : Inv d' := by
  cases hs with
  | read hr => exact h.read_round T hT hr
  | write hr => exact h.write_round T hr
  | flush => exact h.poll_flush T
  | wants_read_again => exact h.frame rfl rfl (h.pipelined.congr rfl rfl) (.inl rfl)
  | take_error =>
    obtain ⟨hr, hw⟩ := Conn.take_error_sides d.conn
    exact h.frame rfl rfl (h.pipelined.congr hr hw) (.inl hr)
  | disable_keep_alive => exact h.disable_keep_alive
  | poll_body hi hrx => exact h.poll_body hi hrx
  | drop_body hi _ => exact h.drop_body hi

end Inv

omit [Buf B] in
/-- A new dispatcher, on a new connection, holds no channel and no future. -/
theorem inv_new (io : Transport) (strategy : WriteStrategy) :
    Inv (Dispatcher.new (Conn.new (B := B) io strategy)) := by
  refine ⟨⟨fun _ ↦ ⟨rfl, rfl⟩, fun hf ↦ by cases hf⟩,
    ⟨fun _ _ h ↦ by simp [new] at h, fun _ h ↦ (by cases h), fun _ _ h ↦ by simp [new] at h⟩,
    fun dec hd ↦ ?_, fun _ _ h ↦ (by cases h)⟩
  rcases hd with hd | hd <;> cases hd

variable [LawfulBuf B]

/-- **The invariant holds in every state a server dispatcher reaches**, whatever the world
answers and whatever the readers of its bodies do, in any order. -/
theorem inv_reachable (hT : T.Serves) {io : Transport} {strategy : WriteStrategy} {d : Dispatcher B}
    (hrun : ReflTransGen (Step T) (Dispatcher.new (Conn.new io strategy)) d) : Inv d :=
  Runs.stable Inv (fun _ _ hs h ↦ h.step T hT hs) hrun (inv_new io strategy)

end Dispatcher

end Hyper.H1
