import Hyper.H1.ConnSteps

/-!
# The keep-alive lifecycle over every run of a connection

`Hyper.H1.Lifecycle` shows that every step of a connection moves its phase along a run of the
lifecycle.  Between two states of the connection that run is any one the moves allow, so it
cannot say which decoder ended a body or which state went idle inside the step.  This file says
what the step that does it must have done, over the connection's own data.

* `ReadEnds` — how a step ends the read side of a message: it reads a head whose declared length
  is zero, or it reads the body and the body's decoder, run over the connection's own input, is at
  its end.
* `Step.into_keepAlive` — every step that takes the read side to `KeepAlive` ends it so.
* `Step.into_init` — every step that takes the two sides back to `Init` does it from a write side
  at `KeepAlive` and a read side there or ended by the step itself, on a connection whose
  keep-alive is not disabled, and leaves it idle: it is `State::idle`, called by
  `try_keep_alive`.
* `keep_alive_lifecycle` — the lifecycle's guarantees over every run of the connection.
-/

set_option autoImplicit false

namespace Hyper.H1

open Relation

/-! ## Where `try_keep_alive` goes idle -/

namespace State

/-- `State::try_keep_alive` starts the next message only from a message done on both sides of a
busy connection, through `idle`; from anywhere else with the read side at `Init` it does
nothing. -/
theorem try_keep_alive_into_init (s : State) (should_read_first : Bool)
    (h : (s.try_keep_alive should_read_first).reading = .Init) :
    s.try_keep_alive should_read_first = s ∨
      (s.reading = .KeepAlive ∧ s.writing = .KeepAlive ∧ s.keep_alive = .Busy ∧
        s.try_keep_alive should_read_first = s.idle should_read_first) := by
  unfold try_keep_alive at h ⊢
  split at h
  · rename_i hr hw
    split_ifs at h ⊢ with hka
    · exact .inr ⟨hr, hw, hka, rfl⟩
    · simp [close] at h
  · simp [close] at h
  · simp [close] at h
  · exact .inl rfl

end State

namespace Conn

variable {B : Type} {In Out : Type} (T : Transaction In Out)

/-- A connection that `try_keep_alive` takes back to the start of a message was there already, or
was done on both sides and busy, and is left idle. -/
theorem try_keep_alive_into_init (c : Conn B)
    (h : (c.try_keep_alive T).state.reading = .Init ∧ (c.try_keep_alive T).state.writing = .Init) :
    (c.state.reading = .Init ∧ c.state.writing = .Init) ∨
      (c.state.reading = .KeepAlive ∧ c.state.writing = .KeepAlive ∧ c.state.keep_alive = .Busy ∧
        (c.try_keep_alive T).state.keep_alive = .Idle) := by
  -- `maybe_notify` leaves a connection at `Init` as it is, or closes its read side
  have hphase : (c.try_keep_alive T).state.phase =
      (c.state.try_keep_alive T.should_read_first).phase := by
    rcases maybe_notify_phase { c with state := c.state.try_keep_alive T.should_read_first }
      with hp | hp | hp
    · exact hp
    · have hc := congrArg Phase.reading hp
      simp only [State.phase, State.close] at hc
      exact absurd (h.1.symm.trans hc) (by simp)
    · have hc := congrArg Phase.reading hp
      simp only [State.phase, State.close_read] at hc
      exact absurd (h.1.symm.trans hc) (by simp)
  have hr : (c.state.try_keep_alive T.should_read_first).reading = .Init := by
    rw [← h.1]
    exact (congrArg Phase.reading hphase).symm
  rcases c.state.try_keep_alive_into_init T.should_read_first hr with hs | ⟨hr', hw', hka, hs⟩
  · -- nothing was done, so the connection was at `Init` on both sides
    rw [hs] at hphase
    exact .inl ⟨h.1 ▸ (congrArg Phase.reading hphase).symm, h.2 ▸ (congrArg Phase.writing hphase).symm⟩
  · refine .inr ⟨hr', hw', hka, ?_⟩
    have hk := congrArg Phase.keep_alive hphase
    rw [hs, State.phase_idle] at hk
    exact hk

/-- A connection that `try_keep_alive` takes back to the start of a message from elsewhere was
done on both sides of a busy connection, and is left idle. -/
theorem try_keep_alive_idles (c : Conn B) (hc : ¬(c.state.reading = .Init ∧ c.state.writing = .Init))
    (h : (c.try_keep_alive T).state.reading = .Init ∧ (c.try_keep_alive T).state.writing = .Init) :
    c.state.reading = .KeepAlive ∧ c.state.writing = .KeepAlive ∧ c.state.keep_alive ≠ .Disabled ∧
      (c.try_keep_alive T).state.keep_alive = .Idle := by
  rcases try_keep_alive_into_init T c h with hinit | ⟨hr, hw, hbusy, hidle⟩
  · exact absurd hinit hc
  · exact ⟨hr, hw, by rw [hbusy]; simp, hidle⟩

/-- `try_keep_alive` never takes the read side to `KeepAlive`. -/
theorem try_keep_alive_keepAlive (c : Conn B)
    (h : (c.try_keep_alive T).state.reading = .KeepAlive) : c.state.reading = .KeepAlive := by
  rcases try_keep_alive_sides T c with ⟨hr, -⟩ | ⟨hr, -⟩ | ⟨hka, -, -⟩
  · exact hr ▸ h
  · rw [hr] at h
    cases h
  · exact hka

/-- A read side at `KeepAlive` after a call that may end in `try_keep_alive` was there before it. -/
theorem keepAlive_before_try_keep_alive {c1 c' : Conn B} (hc : c' = c1 ∨ c' = c1.try_keep_alive T)
    (h : c'.state.reading = .KeepAlive) : c1.state.reading = .KeepAlive := by
  rcases hc with rfl | rfl
  · exact h
  · exact try_keep_alive_keepAlive T c1 h

/-- `on_parse_error` writes the role's error response as a head, or leaves the write side. -/
theorem on_parse_error_writing {c c' : Conn B} {e : Error} {r : Except Error Unit}
    (h : c.on_parse_error T e = some (r, c')) :
    c'.state.writing = c.state.writing ∨ c'.state.writing ≠ .Init := by
  unfold on_parse_error at h
  split at h
  · split_ifs at h
    · obtain ⟨-, rfl⟩ := Prod.mk.inj (Option.some.inj h)
      exact .inl rfl
    · split at h
      · obtain ⟨c1, hw, hc⟩ := Option.map_eq_some_iff.mp h
        obtain ⟨-, rfl⟩ := Prod.mk.inj hc
        exact .inr (write_head_sides T hw).2
      · obtain ⟨-, rfl⟩ := Prod.mk.inj (Option.some.inj h)
        exact .inl rfl
  · obtain ⟨-, rfl⟩ := Prod.mk.inj (Option.some.inj h)
    exact .inl rfl

/-! ## How the read side ends -/

/-- What reading a head does, for any role: nothing to the sides yet; a closed read side; or a
head with a length, after which the read side is where the length says, the write side as it was,
and a disabled connection still disabled, before a last `try_keep_alive` of a client. -/
theorem poll_read_head_ends {c c' : Conn B}
    {r : Poll (Option (Except Error (MessageHead In × DecodedLength × Wants)))}
    (h : c.poll_read_head T = some (r, c')) :
    c'.state.phase = c.state.phase ∨ c'.state.reading = .Closed ∨
      ∃ head len wants, r = .ready (some (.ok (head, len, wants))) ∧
        ∃ c1 : Conn B, c1.state.reading = headReading len wants.expect ∧
          c1.state.writing = c.state.writing ∧
          (c.state.keep_alive = .Disabled → c1.state.keep_alive = .Disabled) ∧
          (c' = c1 ∨ c' = c1.try_keep_alive T) := by
  unfold poll_read_head at h
  split at h
  · obtain ⟨rfl, rfl⟩ := Prod.mk.inj (Option.some.inj h)
    exact .inl rfl
  · exact .inr (.inl (on_read_head_error_cases T h).1)
  · rename_i msg io _
    refine .inr (.inr ?_)
    -- the head turns the connection busy, unless it is disabled, and the head may disable it
    have hka : c.state.keep_alive = .Disabled →
        ({ c.state with method := T.parsed_method msg c.state.method, h09_responses := false }.busy.and_keep_alive
          msg.keep_alive).keep_alive = .Disabled := by
      intro hd
      unfold State.and_keep_alive State.busy
      split_ifs <;> simp [hd]
    dsimp only at h
    split_ifs at h with hz hsrf hc
    · obtain ⟨rfl, rfl⟩ := Prod.mk.inj (Option.some.inj h)
      exact ⟨_, _, _, rfl, _, by simp [headReading, hz], by simp, hka, .inr rfl⟩
    · obtain ⟨rfl, rfl⟩ := Prod.mk.inj (Option.some.inj h)
      exact ⟨_, _, _, rfl, _, by simp [headReading, hz], by simp, hka, .inl rfl⟩
    · obtain ⟨rfl, rfl⟩ := Prod.mk.inj (Option.some.inj h)
      exact ⟨_, _, _, rfl, _, by simp [headReading, hz], by simp, hka, .inl rfl⟩
    · obtain ⟨rfl, rfl⟩ := Prod.mk.inj (Option.some.inj h)
      exact ⟨_, _, _, rfl, _, by simp [headReading, hz], by simp, hka, .inl rfl⟩

/-- One read of a body: only the read side moves before a last `try_keep_alive`, never to `Init`,
and to `KeepAlive` only when the decoder, run over the connection's input, is at its end. -/
theorem readBody_ends (c : Conn B) (d : Decoder) :
    ∃ c1 : Conn B, c1.state = { c.state with reading := c1.state.reading } ∧
      c1.state.reading ≠ .Init ∧
      (c1.state.reading = .KeepAlive → (Decoder.decode 64 d c.io).2.1.is_eof = true) ∧
      ((readBody T c d).2 = c1 ∨ (readBody T c d).2 = c1.try_keep_alive T) := by
  unfold readBody
  rcases Decoder.decode 64 d c.io with ⟨(e | slice) | _, d', io⟩
  · exact ⟨⟨io, { c.state with reading := .Closed }⟩, rfl, by simp, by simp, .inr rfl⟩
  · dsimp only
    by_cases heof : d'.is_eof
    · rw [if_pos heof]
      exact ⟨⟨io, { c.state with reading := .KeepAlive }⟩, rfl, by simp, fun _ ↦ heof, .inr rfl⟩
    rw [if_neg heof]
    split_ifs
    · exact ⟨⟨io, { c.state with reading := .Closed }⟩, rfl, by simp, by simp, .inr rfl⟩
    · exact ⟨⟨io, { c.state with reading := .Body d' }⟩, rfl, by simp, by simp, .inl rfl⟩
  · exact ⟨⟨io, { c.state with reading := .Body d' }⟩, rfl, by simp, by simp, .inl rfl⟩

/-- `poll_read_body` is one read of the body, from the connection's own input: the `100 Continue`
it may write first is not read back. -/
theorem poll_read_body_ends {c c' : Conn B} {r : Poll (Option (Except IoError (List UInt8)))}
    (h : c.poll_read_body T = some (r, c')) :
    ∃ d, (c.state.reading = .Body d ∨ c.state.reading = .Continue d) ∧
      ∃ c1 : Conn B, c1.state = { c.state with reading := c1.state.reading } ∧
        c1.state.reading ≠ .Init ∧
        (c1.state.reading = .KeepAlive → (Decoder.decode 64 d c.io).2.1.is_eof = true) ∧
        (c' = c1 ∨ c' = c1.try_keep_alive T) := by
  unfold poll_read_body at h
  split at h
  · rename_i d hd
    obtain ⟨rfl, rfl⟩ := Prod.mk.inj (Option.some.inj h)
    exact ⟨d, .inl hd, readBody_ends T c d⟩
  · rename_i d hd
    obtain ⟨rfl, rfl⟩ := Prod.mk.inj (Option.some.inj h)
    obtain ⟨c1, hs, hne, heof, hc⟩ := readBody_ends T
      { io := if c.state.writing = .Init then c.io.headers_buf CONTINUE else c.io,
        state := { c.state with reading := .Body d } } d
    refine ⟨d, .inr hd, c1, hs, hne, fun hka ↦ ?_, hc⟩
    have hdec := heof hka
    split_ifs at hdec
    · rwa [Decoder.decode_map (Buffered.headers_buf_readsAlike CONTINUE)] at hdec
    · exact hdec
  · cases h

end Conn

/-! ## The steps that end a message -/

section Steps

variable {B : Type} [Buf B] [LawfulBuf B] {In Out : Type} (T : Transaction In Out)

/-- How a step ends the read side of a message: it reads a head whose declared length is zero,
or it reads the body, and the body's decoder, run over the connection's own input, is at its
end. -/
inductive ReadEnds : Conn B → Conn B → Prop
  | head {x y : Conn B} {head : MessageHead In} {wants : Wants} (hx : x.state.reading = .Init)
      (h : x.poll_read_head T = some (.ready (some (.ok (head, DecodedLength.ZERO, wants))), y)) :
      ReadEnds x y
  | body {x y : Conn B} {d : Decoder} {r : Poll (Option (Except IoError (List UInt8)))}
      (hx : x.state.reading = .Body d ∨ x.state.reading = .Continue d)
      (h : x.poll_read_body T = some (r, y)) (heof : (Decoder.decode 64 d x.io).2.1.is_eof = true) :
      ReadEnds x y

namespace Step

variable {T} {x y : Conn B}

/-- **A step ends the read side only by a head with no body or at the decoder's end.** -/
theorem into_keepAlive (h : Step T x y) (hx : x.state.reading ≠ .KeepAlive)
    (hy : y.state.reading = .KeepAlive) : ReadEnds T x y := by
  -- the calls that leave the read side where it was, or close it
  have stays : y.state.reading = x.state.reading ∨ y.state.reading = .Closed → False := by
    rintro (hr | hr)
    · exact hx (hr ▸ hy)
    · rw [hr] at hy
      cases hy
  cases h with
  | poll_read_head hg h =>
    rcases Conn.poll_read_head_ends T h with hp | hr | ⟨head, len, wants, rfl, c1, hr1, -, -, hc⟩
    · exact (stays (.inl (congrArg Phase.reading hp))).elim
    · exact (stays (.inr hr)).elim
    · -- the head declared no body
      have hka := Conn.keepAlive_before_try_keep_alive T hc hy
      rw [hr1, headReading_eq_keepAlive] at hka
      subst hka
      exact .head (Conn.reading_of_can_read_head T hg) h
  | poll_read_body _ h =>
    obtain ⟨d, hd, c1, -, -, heof, hc⟩ := Conn.poll_read_body_ends T h
    exact .body hd h (heof (Conn.keepAlive_before_try_keep_alive T hc hy))
  | poll_read_keep_alive _ h =>
    obtain rfl : y = (x.poll_read_keep_alive T).2 := by rw [h]
    exact (stays (Conn.poll_read_keep_alive_sides T x).1).elim
  | write_head _ h => exact (stays (.inl (Conn.write_head_sides T h).1)).elim
  | write_full_msg _ h => exact (stays (.inl (Conn.write_full_msg_sides T h).1)).elim
  | write_body _ h => exact (stays (.inl (Conn.write_body_sides h).1)).elim
  | write_body_and_end _ h => exact (stays (.inl (Conn.write_body_and_end_sides h).1)).elim
  | end_body _ h =>
    obtain rfl : y = x.end_body.2 := by rw [h]
    exact (stays (.inl (Conn.end_body_sides x).1)).elim
  | on_parse_error h => exact (stays (.inl (Conn.on_parse_error_reading T h))).elim
  | poll_flush h =>
    obtain rfl : y = (x.poll_flush T).2 := by rw [h]
    obtain ⟨c1, hs, hc | hc⟩ := Conn.poll_flush_state T x <;> rw [hc] at hy
    · exact (stays (.inl (hc ▸ hs ▸ rfl))).elim
    · exact absurd (hs ▸ Conn.try_keep_alive_keepAlive T c1 hy) hx
  | close_read => exact (stays (.inr rfl)).elim
  | close_write => exact (stays (.inl rfl)).elim
  | disable_keep_alive =>
    rcases Conn.disable_keep_alive_sides x with hs | ⟨hr, -⟩
    · exact (stays (.inr (by rw [hs]; rfl))).elim
    · exact (stays (.inl hr)).elim
  | try_keep_alive => exact absurd (Conn.try_keep_alive_keepAlive T x hy) hx
  | maybe_notify =>
    rcases Conn.maybe_notify_sides x with ⟨hr, -⟩ | ⟨-, hr, -⟩
    · exact (stays (.inl hr)).elim
    · exact (stays (.inr hr)).elim

/-- **A step takes the two sides back to `Init` only through `State::idle`**: from a write side at
`KeepAlive` and a read side there or ended by the step, on a connection that is not disabled, and
it leaves the connection idle. -/
theorem into_init (h : Step T x y) (hx : ¬(x.state.reading = .Init ∧ x.state.writing = .Init))
    (hy : y.state.reading = .Init ∧ y.state.writing = .Init) :
    x.state.writing = .KeepAlive ∧ x.state.keep_alive ≠ .Disabled ∧ y.state.keep_alive = .Idle ∧
      (x.state.reading = .KeepAlive ∨ ReadEnds T x y) := by
  -- the calls that leave both sides where they were, or close one of them
  have stays : (y.state.reading = x.state.reading ∨ y.state.reading = .Closed) →
      (y.state.writing = x.state.writing ∨ y.state.writing ≠ .Init) → False := by
    rintro (hr | hr) (hw | hw)
    · exact hx ⟨hr ▸ hy.1, hw ▸ hy.2⟩
    · exact hw hy.2
    · rw [hr] at hy
      cases hy.1
    · exact hw hy.2
  cases h with
  | poll_read_head hg h =>
    rcases Conn.poll_read_head_ends T h with hp | hr | ⟨head, len, wants, rfl, c1, hr1, hw1, hka1, hc⟩
    · exact (stays (.inl (congrArg Phase.reading hp)) (.inl (congrArg Phase.writing hp))).elim
    · exact absurd (hr.symm.trans hy.1) (by simp)
    · have hne := headReading_ne_init len wants.expect
      rcases hc with rfl | rfl
      · exact absurd (hr1 ▸ hy.1) hne
      -- a client that read a head with no body goes idle at once
      obtain ⟨hka, hw, hnd, hidle⟩ := Conn.try_keep_alive_idles T c1 (fun h0 ↦ hne (hr1 ▸ h0.1)) hy
      rw [hr1, headReading_eq_keepAlive] at hka
      subst hka
      exact ⟨hw1 ▸ hw, fun hd ↦ hnd (hka1 hd), hidle, .inr (.head (Conn.reading_of_can_read_head T hg) h)⟩
  | poll_read_body _ h =>
    obtain ⟨d, hd, c1, hs, hne, heof, hc⟩ := Conn.poll_read_body_ends T h
    rcases hc with rfl | rfl
    · exact absurd hy.1 hne
    obtain ⟨hka, hw, hnd, hidle⟩ := Conn.try_keep_alive_idles T c1 (fun h0 ↦ hne h0.1) hy
    -- the body ended, and the message was written already
    have hsw : c1.state.writing = x.state.writing := by rw [hs]
    have hsk : c1.state.keep_alive = x.state.keep_alive := by rw [hs]
    exact ⟨hsw ▸ hw, hsk ▸ hnd, hidle, .inr (.body hd h (heof hka))⟩
  | poll_read_keep_alive _ h =>
    obtain rfl : y = (x.poll_read_keep_alive T).2 := by rw [h]
    have hsides := Conn.poll_read_keep_alive_sides T x
    exact (stays hsides.1 (hsides.2.imp id fun hw ↦ by simp [hw])).elim
  | write_head _ h => exact (stays (.inl (Conn.write_head_sides T h).1) (.inr (Conn.write_head_sides T h).2)).elim
  | write_full_msg _ h =>
    exact (stays (.inl (Conn.write_full_msg_sides T h).1) (.inr (Conn.write_full_msg_sides T h).2)).elim
  | write_body _ h => exact (stays (.inl (Conn.write_body_sides h).1) (.inr (Conn.write_body_sides h).2)).elim
  | write_body_and_end _ h =>
    exact (stays (.inl (Conn.write_body_and_end_sides h).1) (.inr (Conn.write_body_and_end_sides h).2)).elim
  | end_body _ h =>
    obtain rfl : y = x.end_body.2 := by rw [h]
    exact (stays (.inl (Conn.end_body_sides x).1) (Conn.end_body_sides x).2).elim
  | on_parse_error h =>
    exact (stays (.inl (Conn.on_parse_error_reading T h)) (Conn.on_parse_error_writing T h)).elim
  | poll_flush h =>
    obtain rfl : y = (x.poll_flush T).2 := by rw [h]
    obtain ⟨c1, hs, hc | hc⟩ := Conn.poll_flush_state T x <;> rw [hc] at hy ⊢
    · exact (stays (.inl (by rw [hc, hs])) (.inl (by rw [hc, hs]))).elim
    · -- a finished flush of a message done on both sides
      obtain ⟨hka, hw, hnd, hidle⟩ := Conn.try_keep_alive_idles T c1 (by rw [hs]; exact hx) hy
      rw [hs] at hka hw hnd
      exact ⟨hw, hnd, hidle, .inl hka⟩
  | close_read => exact (stays (.inr rfl) (.inl rfl)).elim
  | close_write => exact (stays (.inl rfl) (.inr (by simp [Conn.close_write, State.close_write]))).elim
  | disable_keep_alive =>
    rcases Conn.disable_keep_alive_sides x with hs | ⟨hr, hw⟩
    · exact (stays (.inr (by rw [hs]; rfl)) (.inr (by rw [hs]; simp [State.close]))).elim
    · exact (stays (.inl hr) (.inl hw)).elim
  | try_keep_alive =>
    obtain ⟨hka, hw, hnd, hidle⟩ := Conn.try_keep_alive_idles T x hx hy
    exact ⟨hw, hnd, hidle, .inl hka⟩
  | maybe_notify =>
    rcases Conn.maybe_notify_sides x with ⟨hr, hw⟩ | ⟨-, hr, hw⟩
    · exact (stays (.inl hr) (.inl hw)).elim
    · exact (stays (.inr hr) (hw.imp id fun hw ↦ by simp [hw])).elim

end Step

/-! ## Every run of a connection -/

/-- **The keep-alive lifecycle of a connection**, over every run of its entry points under their
guards: a disabled connection stays disabled and a closed side stays closed; the two sides come
back to `Init` only in a step through `State::idle`, from a message done on both sides of a busy
connection, which it leaves idle; the read side comes to `KeepAlive` only in a step that read a
head with no body or ran the body's decoder to its end; and so a disabled connection past the
start of a message never starts another. -/
theorem keep_alive_lifecycle {c c' : Conn B} (hrun : ReflTransGen (Step T) c c') :
    (c.state.keep_alive = .Disabled → c'.state.keep_alive = .Disabled) ∧
    (c.state.reading = .Closed → c'.state.reading = .Closed) ∧
    (c.state.writing = .Closed → c'.state.writing = .Closed) ∧
    (¬(c.state.reading = .Init ∧ c.state.writing = .Init) →
      c'.state.reading = .Init ∧ c'.state.writing = .Init →
      ∃ x y, ReflTransGen (Step T) c x ∧ Step T x y ∧ ReflTransGen (Step T) y c' ∧
        x.state.writing = .KeepAlive ∧ x.state.keep_alive ≠ .Disabled ∧
        y.state.keep_alive = .Idle ∧ (x.state.reading = .KeepAlive ∨ ReadEnds T x y) ∧
        ∃ p q, Moves x.state.phase p ∧ Move .idle p q ∧ Moves q y.state.phase ∧
          p = ⟨.KeepAlive, .KeepAlive, .Busy⟩) ∧
    (c.state.reading ≠ .KeepAlive → c'.state.reading = .KeepAlive →
      ∃ x y, ReflTransGen (Step T) c x ∧ Step T x y ∧ ReflTransGen (Step T) y c' ∧
        x.state.reading ≠ .KeepAlive ∧ y.state.reading = .KeepAlive ∧ ReadEnds T x y) ∧
    (c.state.keep_alive = .Disabled → ¬(c.state.reading = .Init ∧ c.state.writing = .Init) →
      ¬(c'.state.reading = .Init ∧ c'.state.writing = .Init)) := by
  have hm := run_moves T hrun
  refine ⟨hm.disabled, hm.reading_closed, hm.writing_closed, fun hc hc' ↦ ?_, fun hc hc' ↦ ?_,
    fun hd hc hc' ↦ ?_⟩
  · -- the step that comes back to the start, and the `idle` inside it
    obtain ⟨x, y, hcx, hxy, hx, hy, hyc⟩ :=
      Runs.exists_crossing (fun c : Conn B ↦ c.state.reading = .Init ∧ c.state.writing = .Init) hrun hc hc'
    obtain ⟨hw, hka, hidle, hread⟩ := hxy.into_init hx hy
    exact ⟨x, y, hcx, hxy, hyc, hw, hka, hidle, hread, (hxy.moves T).into_init hx hy⟩
  · obtain ⟨x, y, hcx, hxy, hx, hy, hyc⟩ :=
      Runs.exists_crossing (fun c : Conn B ↦ c.state.reading = .KeepAlive) hrun hc hc'
    exact ⟨x, y, hcx, hxy, hyc, hx, hy, hxy.into_keepAlive hx hy⟩
  · -- `idle` needs a busy connection, and a disabled one stays disabled
    obtain ⟨p, q, hp, -, -, rfl⟩ := hm.into_init hc hc'
    have hbusy := hp.disabled hd
    cases hbusy

/-- A client whose read side was closed keeps keep-alive off through `try_keep_alive`. -/
theorem keep_alive_lifecycle_closed_read :
    ReflTransGen (Step partialClient) newClient.close_read (newClient.close_read.try_keep_alive partialClient) ∧
      (newClient.close_read.try_keep_alive partialClient).state.keep_alive = .Disabled :=
  ⟨.single (.try_keep_alive _), (keep_alive_lifecycle partialClient (.single (.try_keep_alive _))).1 rfl⟩

end Steps

end Hyper.H1
