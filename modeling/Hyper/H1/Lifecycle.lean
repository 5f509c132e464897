import Hyper.H1.Conn
import Hyper.Lib.Runs

/-!
# The keep-alive lifecycle of a connection

What `Conn`'s three state fields are for: each side of the connection goes through a message
(`Init`, then a body, then `KeepAlive`), both sides go back to `Init` together once both are
done and the connection is still wanted, and `Closed` and `Disabled` are final.  The lifecycle is
a relation `Move` on `Phase`, the triple of those fields, labelled by the `Event` that moves it;
its guards are the whole specification.  A body is read by a decoder that follows from the one
before by the bytes it read (`Decoder.Follows`) and ends only at the decoder's end; it is written
by an encoder that follows from the one before (`Encoder.Follows`), and the write side leaves it
where the encoder says (`encoderWriting`, `endWriting`).  `Move.disabled`, `Move.reading_closed`,
`Move.writing_closed`, `Move.into_init` and `Move.into_keepAlive` read the guarantees off, and
`Runs` lifts them to every run of the lifecycle.

`Step` is a run of the connection: any of its entry points, under the guard the dispatcher checks
before calling it.  `Step.moves` shows that the phase of every step is a run of the lifecycle, with
the decoder and the encoder the connection computes, so the connection refines it.
`Hyper.H1.LifecycleRuns` says, over the connection's own data, what the step that ends a body or
goes idle must have done, and states the lifecycle's guarantees for every run of the connection.
-/

set_option autoImplicit false

namespace Hyper.H1

open Relation

/-! ## The lifecycle -/

/-- The fields of `State` that the lifecycle is about. -/
structure Phase where
  reading : Reading
  writing : Writing
  keep_alive : KA
  deriving DecidableEq, Repr

/-- The phase of a state. -/
def State.phase (s : State) : Phase := ⟨s.reading, s.writing, s.keep_alive⟩

/-- Where the read side goes after a head that declared `decode`: its end at once for a head
with no body, and otherwise a body, behind a `100 Continue` if one is expected. -/
def headReading (decode : DecodedLength) (expect_continue : Bool) : Reading :=
  if decode = DecodedLength.ZERO then .KeepAlive
  else if expect_continue then .Continue (Decoder.new decode) else .Body (Decoder.new decode)

/-- Where the write side goes once its encoder is `e`: on in the body while the encoder has bytes
to let through, and at its end closed after the last message and kept alive otherwise
(`Conn::write_head`, `Conn::write_body`). -/
def encoderWriting (e : Encoder) : Writing :=
  if !e.is_eof then .Body e else if e.is_last then .Closed else .KeepAlive

/-- Where the write side goes once the end of the body is written with the encoder `e`: closed
after the last message or a close-delimited body, kept alive otherwise (`Conn::end_body`). -/
def endWriting (e : Encoder) : Writing :=
  if e.is_last || e.is_close_delimited then .Closed else .KeepAlive

/-- What moves the lifecycle. -/
inductive Event where
  | close
  | close_read
  | close_write
  | disable
  | busy
  | idle
  | read_head (decode : DecodedLength) (expect_continue : Bool)
  | read_continue
  | decode (d : Decoder) (n : ℕ)
  | body_done
  | body_failed
  | write_head (e : Encoder)
  | write_full (e : Encoder)
  | encode (e : Encoder) (n : ℕ)
  | end_body
  | write_failed
  deriving DecidableEq, Repr

/-- `Move e p q`: the event `e` takes the phase `p` to `q`.  A body is read by a decoder that
follows from the last (`decode`) and ends only at the decoder's end (`body_done`); it is written
by an encoder that follows from the last (`encode`), and the write side leaves the body only where
the encoder says (`encoderWriting`, `endWriting`), or closed. -/
inductive Move : Event → Phase → Phase → Prop
  | close (p : Phase) : Move .close p ⟨.Closed, .Closed, .Disabled⟩
  | close_read (p : Phase) : Move .close_read p ⟨.Closed, p.writing, .Disabled⟩
  | close_write (p : Phase) : Move .close_write p ⟨p.reading, .Closed, .Disabled⟩
  | disable (p : Phase) : Move .disable p ⟨p.reading, p.writing, .Disabled⟩
  | busy (p : Phase) (h : p.keep_alive ≠ .Disabled) : Move .busy p ⟨p.reading, p.writing, .Busy⟩
  | idle : Move .idle ⟨.KeepAlive, .KeepAlive, .Busy⟩ ⟨.Init, .Init, .Idle⟩
  | read_head (w : Writing) (ka : KA) (decode : DecodedLength) (expect_continue : Bool) :
      Move (.read_head decode expect_continue) ⟨.Init, w, ka⟩
        ⟨headReading decode expect_continue, w, ka⟩
  | read_continue (d : Decoder) (w : Writing) (ka : KA) :
      Move .read_continue ⟨.Continue d, w, ka⟩ ⟨.Body d, w, ka⟩
  | decode (d d' : Decoder) (n : ℕ) (w : Writing) (ka : KA) (h : d.Follows d' n) :
      Move (.decode d' n) ⟨.Body d, w, ka⟩ ⟨.Body d', w, ka⟩
  | body_done (d : Decoder) (w : Writing) (ka : KA) (h : d.is_eof = true) :
      Move .body_done ⟨.Body d, w, ka⟩ ⟨.KeepAlive, w, ka⟩
  | body_failed (d : Decoder) (w : Writing) (ka : KA) :
      Move .body_failed ⟨.Body d, w, ka⟩ ⟨.Closed, w, ka⟩
  | write_head (r : Reading) (ka : KA) (e : Encoder) :
      Move (.write_head e) ⟨r, .Init, ka⟩ ⟨r, encoderWriting e, ka⟩
  | write_full (r : Reading) (ka : KA) (e : Encoder) :
      Move (.write_full e) ⟨r, .Init, ka⟩ ⟨r, if e.is_last then .Closed else .KeepAlive, ka⟩
  | encode (r : Reading) (ka : KA) (e e' : Encoder) (n : ℕ) (h : e.Follows e' n) :
      Move (.encode e' n) ⟨r, .Body e, ka⟩ ⟨r, encoderWriting e', ka⟩
  | end_body (r : Reading) (ka : KA) (e : Encoder) (h : ∀ rem, e.kind = .Length rem → rem = 0) :
      Move .end_body ⟨r, .Body e, ka⟩ ⟨r, endWriting e, ka⟩
  | write_failed (p : Phase) : Move .write_failed p ⟨p.reading, .Closed, p.keep_alive⟩

/-- A run of the lifecycle. -/
def Moves (p q : Phase) : Prop := ReflTransGen (fun p q ↦ ∃ e, Move e p q) p q

theorem Moves.step {e : Event} {p q : Phase} (h : Move e p q) : Moves p q := .single ⟨e, h⟩

theorem Moves.trans {p q r : Phase} (hpq : Moves p q) (hqr : Moves q r) : Moves p r :=
  ReflTransGen.trans hpq hqr

theorem headReading_ne_init (decode : DecodedLength) (expect_continue : Bool) :
    headReading decode expect_continue ≠ .Init := by
  unfold headReading
  split_ifs <;> simp

theorem headReading_eq_keepAlive {decode : DecodedLength} {expect_continue : Bool} :
    headReading decode expect_continue = .KeepAlive ↔ decode = DecodedLength.ZERO := by
  unfold headReading
  split_ifs with h <;> simp [h]

theorem encoderWriting_ne_init (e : Encoder) : encoderWriting e ≠ .Init := by
  unfold encoderWriting
  split_ifs <;> simp

theorem endWriting_ne_init (e : Encoder) : endWriting e ≠ .Init := by
  unfold endWriting
  split_ifs <;> simp

/-- `Conn::write_body` writes its `if` the other way round. -/
theorem encoderWriting_eq (e : Encoder) :
    encoderWriting e = if e.is_eof then (if e.is_last then .Closed else .KeepAlive) else .Body e := by
  unfold encoderWriting
  cases e.is_eof <;> rfl

namespace Move

variable {e : Event} {p q : Phase}

/-- A disabled connection stays disabled: only `busy` and `idle` leave `Disabled`, and neither
may. -/
theorem disabled (h : Move e p q) (hp : p.keep_alive = .Disabled) : q.keep_alive = .Disabled := by
  obtain ⟨_, _, _⟩ := p
  cases h with
  | busy _ hne => exact absurd hp hne
  | idle => cases hp
  | _ => first | rfl | exact hp

/-- A closed read side stays closed. -/
theorem reading_closed (h : Move e p q) (hp : p.reading = .Closed) : q.reading = .Closed := by
  obtain ⟨_, _, _⟩ := p
  cases h <;> first | rfl | exact hp | cases hp

/-- A closed write side stays closed. -/
theorem writing_closed (h : Move e p q) (hp : p.writing = .Closed) : q.writing = .Closed := by
  obtain ⟨_, _, _⟩ := p
  cases h <;> first | rfl | exact hp | cases hp

/-- The only way back to the start of a message: `idle`, from both sides done on a busy
connection. -/
theorem into_init (h : Move e p q) (hp : ¬(p.reading = .Init ∧ p.writing = .Init))
    (hq : q.reading = .Init ∧ q.writing = .Init) :
    e = .idle ∧ p = ⟨.KeepAlive, .KeepAlive, .Busy⟩ := by
  obtain ⟨hr, hw⟩ := hq
  obtain ⟨_, _, _⟩ := p
  cases h with
  | idle => exact ⟨rfl, rfl⟩
  | disable => exact absurd ⟨hr, hw⟩ hp
  | busy => exact absurd ⟨hr, hw⟩ hp
  | read_head => exact absurd hr (headReading_ne_init _ _)
  | write_head => exact absurd hw (encoderWriting_ne_init _)
  | write_full => exact absurd hw (by split_ifs <;> simp)
  | encode => exact absurd hw (encoderWriting_ne_init _)
  | end_body => exact absurd hw (endWriting_ne_init _)
  | _ => cases hr <;> cases hw

/-- The read side reaches `KeepAlive` only from a head that declared no body, or from a body
whose decoder is at its end. -/
theorem into_keepAlive (h : Move e p q) (hp : p.reading ≠ .KeepAlive) (hq : q.reading = .KeepAlive) :
    (p.reading = .Init ∧ ∃ expect_continue, e = .read_head DecodedLength.ZERO expect_continue) ∨
      (e = .body_done ∧ ∃ d, p.reading = .Body d ∧ d.is_eof = true) := by
  obtain ⟨_, _, _⟩ := p
  cases h with
  | read_head w ka decode expect_continue =>
    exact .inl ⟨rfl, expect_continue, by rw [headReading_eq_keepAlive.mp hq]⟩
  | body_done d w ka hd => exact .inr ⟨rfl, d, rfl, hd⟩
  | disable | busy | write_head | write_full | encode | end_body | write_failed | close_write =>
    exact absurd hq hp
  | _ => cases hq

/-- A disabled connection starts no other message: the read side comes back to `Init` only by
`idle`, which a disabled connection does not take. -/
theorem disabled_reading_ne_init (h : Move e p q) (hd : p.keep_alive = .Disabled)
    (hp : p.reading ≠ .Init) : q.reading ≠ .Init := by
  obtain ⟨_, _, _⟩ := p
  cases h with
  | idle => cases hd
  | read_head => exact absurd rfl hp
  | _ => first | exact hp | simp

end Move

/-! ### Runs of the lifecycle -/

namespace Moves

variable {p q : Phase}

theorem disabled (h : Moves p q) (hp : p.keep_alive = .Disabled) : q.keep_alive = .Disabled :=
  Runs.stable (fun p : Phase ↦ p.keep_alive = .Disabled) (fun _ _ ⟨_, hm⟩ ↦ hm.disabled) h hp

theorem reading_closed (h : Moves p q) (hp : p.reading = .Closed) : q.reading = .Closed :=
  Runs.stable (fun p : Phase ↦ p.reading = .Closed) (fun _ _ ⟨_, hm⟩ ↦ hm.reading_closed) h hp

theorem writing_closed (h : Moves p q) (hp : p.writing = .Closed) : q.writing = .Closed :=
  Runs.stable (fun p : Phase ↦ p.writing = .Closed) (fun _ _ ⟨_, hm⟩ ↦ hm.writing_closed) h hp

/-- A run that comes back to the start of a message goes through [idle], from both sides done
on a busy connection. -/
theorem into_init (h : Moves p q) (hp : ¬(p.reading = .Init ∧ p.writing = .Init))
    (hq : q.reading = .Init ∧ q.writing = .Init) :
    ∃ x y, Moves p x ∧ Move .idle x y ∧ Moves y q ∧ x = ⟨.KeepAlive, .KeepAlive, .Busy⟩ := by
  obtain ⟨x, y, hpx, ⟨e, hxy⟩, hx, hy, hyq⟩ :=
    Runs.exists_crossing (fun p : Phase ↦ p.reading = .Init ∧ p.writing = .Init) h hp hq
  obtain ⟨rfl, rfl⟩ := hxy.into_init hx hy
  exact ⟨_, y, hpx, hxy, hyq, rfl⟩

/-- A run whose read side comes to [KeepAlive] does so by a head with no body or by the end of
a decoded body. -/
theorem into_keepAlive (h : Moves p q) (hp : p.reading ≠ .KeepAlive) (hq : q.reading = .KeepAlive) :
    ∃ e x y, Moves p x ∧ Move e x y ∧ Moves y q ∧ y.reading = .KeepAlive ∧
      ((x.reading = .Init ∧ ∃ expect_continue, e = .read_head DecodedLength.ZERO expect_continue) ∨
        (e = .body_done ∧ ∃ d, x.reading = .Body d ∧ d.is_eof = true)) := by
  obtain ⟨x, y, hpx, ⟨e, hxy⟩, hx, hy, hyq⟩ :=
    Runs.exists_crossing (fun p : Phase ↦ p.reading = .KeepAlive) h hp hq
  exact ⟨e, x, y, hpx, hxy, hyq, hy, hxy.into_keepAlive hx hy⟩

/-- A run from a disabled connection that is past the start of a message never comes back to it. -/
theorem disabled_reading_ne_init (h : Moves p q) (hd : p.keep_alive = .Disabled)
    (hp : p.reading ≠ .Init) : q.reading ≠ .Init :=
  (Runs.stable (fun p : Phase ↦ p.keep_alive = .Disabled ∧ p.reading ≠ .Init)
    (fun _ _ ⟨_, hm⟩ ⟨hd, hr⟩ ↦ ⟨hm.disabled hd, hm.disabled_reading_ne_init hd hr⟩) h ⟨hd, hp⟩).2

end Moves

/-! ## The connection's steps -/

section Steps

variable {B : Type} [Buf B] [LawfulBuf B] {In Out : Type} (T : Transaction In Out)

/-- A step of a connection: one of its entry points, under the guard it is called with. -/
inductive Step : Conn B → Conn B → Prop
  | poll_read_head {c c' : Conn B} {r : Poll (Option (Except Error (MessageHead In × DecodedLength × Wants)))}
      (hg : c.can_read_head T) (h : c.poll_read_head T = some (r, c')) : Step c c'
  | poll_read_body {c c' : Conn B} {r : Poll (Option (Except IoError (List UInt8)))}
      (hg : c.can_read_body) (h : c.poll_read_body T = some (r, c')) : Step c c'
  | poll_read_keep_alive {c c' : Conn B} {r : Poll (Except Error Unit)}
      (hg : ¬c.can_read_head T ∧ ¬c.can_read_body) (h : c.poll_read_keep_alive T = (r, c')) : Step c c'
  | write_head {c c' : Conn B} {head : MessageHead Out} {body : Option BodyLength}
      (hg : c.can_write_head T) (h : c.write_head T head body = some c') : Step c c'
  | write_full_msg {c c' : Conn B} {head : MessageHead Out} {body : B}
      (hg : c.can_write_head T) (h : c.write_full_msg T head body = some c') : Step c c'
  | write_body {c c' : Conn B} {chunk : B}
      (hg : c.can_write_body ∧ c.can_buffer_body) (h : c.write_body chunk = some c') : Step c c'
  | write_body_and_end {c c' : Conn B} {chunk : B}
      (hg : c.can_write_body ∧ c.can_buffer_body) (h : c.write_body_and_end chunk = some c') : Step c c'
  | end_body {c c' : Conn B} {r : Except Error Unit} (hg : c.can_write_body) (h : c.end_body = (r, c')) :
      Step c c'
  | on_parse_error {c c' : Conn B} {e : Error} {r : Except Error Unit}
      (h : c.on_parse_error T e = some (r, c')) : Step c c'
  | poll_flush {c c' : Conn B} {r : Poll (Except IoError Unit)} (h : c.poll_flush T = (r, c')) : Step c c'
  | close_read (c : Conn B) : Step c c.close_read
  | close_write (c : Conn B) : Step c c.close_write
  | disable_keep_alive (c : Conn B) : Step c c.disable_keep_alive
  | try_keep_alive (c : Conn B) : Step c (c.try_keep_alive T)
  | maybe_notify (c : Conn B) : Step c c.maybe_notify

end Steps

/-! ## Each step is a run of the lifecycle -/

namespace Moves

variable {p : Phase}

theorem write_head (hp : p.writing = .Init) (e : Encoder) :
    Moves p ⟨p.reading, encoderWriting e, p.keep_alive⟩ := by
  obtain ⟨r, _, ka⟩ := p
  subst hp
  exact Moves.step (Move.write_head r ka e)

theorem write_full (hp : p.writing = .Init) (e : Encoder) :
    Moves p ⟨p.reading, if e.is_last then .Closed else .KeepAlive, p.keep_alive⟩ := by
  obtain ⟨r, _, ka⟩ := p
  subst hp
  exact Moves.step (Move.write_full r ka e)

theorem encode {e e' : Encoder} {n : ℕ} (hp : p.writing = .Body e) (h : e.Follows e' n) :
    Moves p ⟨p.reading, encoderWriting e', p.keep_alive⟩ := by
  obtain ⟨r, _, ka⟩ := p
  subst hp
  exact Moves.step (Move.encode r ka e e' n h)

theorem end_body {e : Encoder} (hp : p.writing = .Body e) (h : ∀ rem, e.kind = .Length rem → rem = 0) :
    Moves p ⟨p.reading, endWriting e, p.keep_alive⟩ := by
  obtain ⟨r, _, ka⟩ := p
  subst hp
  exact Moves.step (Move.end_body r ka e h)

theorem write_failed : Moves p ⟨p.reading, .Closed, p.keep_alive⟩ := Moves.step (Move.write_failed p)

theorem read_head (hp : p.reading = .Init) (decode : DecodedLength) (expect_continue : Bool) :
    Moves p ⟨headReading decode expect_continue, p.writing, p.keep_alive⟩ := by
  obtain ⟨_, w, ka⟩ := p
  subst hp
  exact Moves.step (Move.read_head w ka decode expect_continue)

theorem read_continue {d : Decoder} (hp : p.reading = .Continue d) :
    Moves p ⟨.Body d, p.writing, p.keep_alive⟩ := by
  obtain ⟨_, w, ka⟩ := p
  subst hp
  exact Moves.step (Move.read_continue d w ka)

theorem decode {d d' : Decoder} {n : ℕ} (hp : p.reading = .Body d) (h : d.Follows d' n) :
    Moves p ⟨.Body d', p.writing, p.keep_alive⟩ := by
  obtain ⟨_, w, ka⟩ := p
  subst hp
  exact Moves.step (Move.decode d d' n w ka h)

theorem body_done {d : Decoder} (hp : p.reading = .Body d) (hd : d.is_eof = true) :
    Moves p ⟨.KeepAlive, p.writing, p.keep_alive⟩ := by
  obtain ⟨_, w, ka⟩ := p
  subst hp
  exact Moves.step (Move.body_done d w ka hd)

theorem body_failed {d : Decoder} (hp : p.reading = .Body d) :
    Moves p ⟨.Closed, p.writing, p.keep_alive⟩ := by
  obtain ⟨_, w, ka⟩ := p
  subst hp
  exact Moves.step (Move.body_failed d w ka)

end Moves

namespace State

variable (s : State)

theorem moves_close : Moves s.phase s.close.phase := Moves.step (Move.close _)

theorem moves_close_read : Moves s.phase s.close_read.phase := Moves.step (Move.close_read _)

theorem moves_close_write : Moves s.phase s.close_write.phase := Moves.step (Move.close_write _)

theorem moves_disable_keep_alive : Moves s.phase s.disable_keep_alive.phase :=
  Moves.step (Move.disable _)

@[simp] theorem busy_reading : s.busy.reading = s.reading := by
  unfold busy
  split_ifs <;> rfl

@[simp] theorem busy_writing : s.busy.writing = s.writing := by
  unfold busy
  split_ifs <;> rfl

@[simp] theorem and_keep_alive_reading (enabled : Bool) : (s.and_keep_alive enabled).reading = s.reading := by
  unfold and_keep_alive
  split_ifs <;> rfl

@[simp] theorem and_keep_alive_writing (enabled : Bool) : (s.and_keep_alive enabled).writing = s.writing := by
  unfold and_keep_alive
  split_ifs <;> rfl

theorem moves_busy : Moves s.phase s.busy.phase := by
  unfold busy
  split_ifs with h
  · exact .refl
  · exact Moves.step (Move.busy s.phase h)

theorem moves_and_keep_alive (enabled : Bool) : Moves s.phase (s.and_keep_alive enabled).phase := by
  unfold and_keep_alive
  split_ifs
  · exact s.moves_disable_keep_alive
  · exact .refl

/-- `idle` on a busy connection whose two sides are done is the lifecycle's `idle`. -/
theorem phase_idle (should_read_first : Bool) : (s.idle should_read_first).phase = ⟨.Init, .Init, .Idle⟩ := by
  simp [idle, phase, is_idle]

theorem moves_try_keep_alive (should_read_first : Bool) :
    Moves s.phase (s.try_keep_alive should_read_first).phase := by
  unfold try_keep_alive
  split
  · rename_i hr hw
    split_ifs with hka
    · have hp : s.phase = ⟨.KeepAlive, .KeepAlive, .Busy⟩ := by simp [phase, hr, hw, hka]
      rw [hp, phase_idle]
      exact Moves.step Move.idle
    · exact s.moves_close
  · exact s.moves_close
  · exact s.moves_close
  · exact .refl

end State

namespace Conn

variable {B : Type} {In Out : Type} (T : Transaction In Out)

/-- What [maybe_notify] can do to the phase: nothing, close the connection at the end of the
stream or on an error, or close its read side at the end of the stream mid-message. -/
theorem maybe_notify_phase (c : Conn B) :
    c.maybe_notify.state.phase = c.state.phase ∨ c.maybe_notify.state.phase = c.state.close.phase ∨
      c.maybe_notify.state.phase = c.state.close_read.phase := by
  unfold maybe_notify
  repeat' split
  all_goals simp [State.phase, State.close, State.close_read]

theorem moves_maybe_notify (c : Conn B) : Moves c.state.phase c.maybe_notify.state.phase := by
  rcases maybe_notify_phase c with h | h | h <;> rw [h]
  · exact .refl
  · exact c.state.moves_close
  · exact c.state.moves_close_read

/-- Stated from any phase that reaches the connection's, as the steps that end in
[try_keep_alive] use it. -/
theorem moves_try_keep_alive {p : Phase} (c : Conn B) (h : Moves p c.state.phase) :
    Moves p (c.try_keep_alive T).state.phase :=
  (h.trans (c.state.moves_try_keep_alive T.should_read_first)).trans
    (moves_maybe_notify { c with state := c.state.try_keep_alive T.should_read_first })

theorem moves_disable_keep_alive (c : Conn B) : Moves c.state.phase c.disable_keep_alive.state.phase := by
  unfold disable_keep_alive
  split_ifs
  · exact c.state.moves_close
  · exact c.state.moves_disable_keep_alive

/-- `fix_keep_alive` at most disables keep-alive. -/
theorem fix_keep_alive_phase (s : State) (head : MessageHead Out) :
    (fix_keep_alive s head).1.phase = s.phase ∨
      (fix_keep_alive s head).1.phase = s.disable_keep_alive.phase := by
  unfold fix_keep_alive
  dsimp only
  split_ifs <;> (try split) <;> first | exact .inl rfl | exact .inr rfl

/-- `enforce_version` at most disables keep-alive. -/
theorem enforce_version_phase (s : State) (head : MessageHead Out) :
    (enforce_version s head).1.phase = s.phase ∨
      (enforce_version s head).1.phase = s.disable_keep_alive.phase := by
  unfold enforce_version
  split_ifs
  · have := fix_keep_alive_phase s head
    rcases hf : fix_keep_alive s head with ⟨s', head'⟩
    rw [hf] at this
    exact this
  · exact .inl rfl

/-- What `encode_head` does to the phase: `busy` and `enforce_version` on the way, and on an
error, the write side closed. -/
theorem encode_head_phase {c c' : Conn B} {head : MessageHead Out} {body : Option BodyLength}
    {oe : Option Encoder} (h : encode_head T c head body = some (oe, c')) :
    ∃ p : Phase, Moves c.state.phase p ∧ p.reading = c.state.reading ∧ p.writing = c.state.writing ∧
      c'.state.phase = if oe.isSome then p else ⟨p.reading, .Closed, p.keep_alive⟩ := by
  unfold encode_head at h
  -- the state the role is called with
  set s1 := if !T.should_read_first then c.state.busy else c.state with hs1
  have h1 : Moves c.state.phase s1.phase ∧ s1.reading = c.state.reading ∧
      s1.writing = c.state.writing := by
    rw [hs1]
    split_ifs
    · exact ⟨c.state.moves_busy, c.state.busy_reading, c.state.busy_writing⟩
    · exact ⟨.refl, rfl, rfl⟩
  rcases he : enforce_version s1 head with ⟨s2, head2⟩
  have h2 : Moves s1.phase s2.phase ∧ s2.reading = s1.reading ∧ s2.writing = s1.writing := by
    have := enforce_version_phase s1 head
    rw [he] at this
    rcases this with hp | hp <;> rw [hp]
    · exact ⟨.refl, congrArg Phase.reading hp, congrArg Phase.writing hp⟩
    · exact ⟨s1.moves_disable_keep_alive, congrArg Phase.reading hp, congrArg Phase.writing hp⟩
  simp only [he] at h
  rcases hen : T.encode head2 body s2.wants_keep_alive s2.method with _ | ⟨res, bytes⟩
  · simp [hen] at h
  simp only [hen, Option.map_some, Option.some.injEq] at h
  refine ⟨s2.phase, h1.1.trans h2.1, h2.2.1.trans h1.2.1, h2.2.2.trans h1.2.2, ?_⟩
  rcases res with err | encoder
  · simp only [Prod.mk.injEq] at h
    obtain ⟨rfl, rfl⟩ := h
    rfl
  · simp only [Prod.mk.injEq] at h
    obtain ⟨rfl, rfl⟩ := h
    rfl

/-- A head written from `Init`: the lifecycle reaches a phase whose write side is still at `Init`
and whose read side and keep-alive are those the connection is left with; the role's error then
closes the write side. -/
theorem moves_encode_head {c c1 : Conn B} {head : MessageHead Out} {body : Option BodyLength}
    {oe : Option Encoder} (hw : c.state.writing = .Init) (he : encode_head T c head body = some (oe, c1)) :
    ∃ p : Phase, Moves c.state.phase p ∧ p.writing = .Init ∧ c1.state.reading = p.reading ∧
      c1.state.keep_alive = p.keep_alive ∧ (oe = none → c1.state.writing = .Closed) := by
  obtain ⟨p, hp, -, hpw, hc1⟩ := encode_head_phase T he
  rw [hw] at hpw
  -- with or without an encoder, the read side and keep-alive are those of `p`
  have hr : c1.state.reading = p.reading := by
    have h := congrArg Phase.reading hc1
    split_ifs at h <;> exact h
  have hk : c1.state.keep_alive = p.keep_alive := by
    have h := congrArg Phase.keep_alive hc1
    split_ifs at h <;> exact h
  refine ⟨p, hp, hpw, hr, hk, fun hnone ↦ ?_⟩
  subst hnone
  simpa [State.phase] using congrArg Phase.writing hc1

/-- The role's error: the write side closed, and nothing else moved but what `encode_head` did. -/
theorem moves_encode_head_error {c c1 : Conn B} {head : MessageHead Out} {body : Option BodyLength}
    (hw : c.state.writing = .Init) (he : encode_head T c head body = some (none, c1)) :
    Moves c.state.phase c1.state.phase := by
  obtain ⟨p, hp, -, hr, hk, hnone⟩ := moves_encode_head T hw he
  have hc1 : c1.state.phase = ⟨p.reading, .Closed, p.keep_alive⟩ := by
    simp [State.phase, hr, hk, hnone rfl]
  rw [hc1]
  exact hp.trans Moves.write_failed

theorem moves_write_head {c c' : Conn B} {head : MessageHead Out} {body : Option BodyLength}
    (hw : c.state.writing = .Init) (h : c.write_head T head body = some c') :
    Moves c.state.phase c'.state.phase := by
  unfold write_head at h
  obtain ⟨⟨oe, c1⟩, he, rfl⟩ := Option.map_eq_some_iff.mp h
  rcases oe with _ | encoder
  · exact moves_encode_head_error T hw he
  · -- the write side goes where the encoder says
    obtain ⟨p, hp, hpw, hr, hk, -⟩ := moves_encode_head T hw he
    show Moves c.state.phase ⟨c1.state.reading, encoderWriting encoder, c1.state.keep_alive⟩
    rw [hr, hk]
    exact hp.trans (Moves.write_head hpw encoder)

theorem moves_write_full_msg [Buf B] {c c' : Conn B} {head : MessageHead Out} {body : B}
    (hw : c.state.writing = .Init) (h : c.write_full_msg T head body = some c') :
    Moves c.state.phase c'.state.phase := by
  unfold write_full_msg at h
  obtain ⟨⟨oe, c1⟩, he, rfl⟩ := Option.map_eq_some_iff.mp h
  rcases oe with _ | encoder
  · exact moves_encode_head_error T hw he
  · -- the whole message is written: buffering the body leaves the state as it is
    obtain ⟨p, hp, hpw, hr, hk, -⟩ := moves_encode_head T hw he
    have hfull := hp.trans (Moves.write_full hpw encoder)
    rw [← hr, ← hk] at hfull
    dsimp only
    split_ifs with _ hlast hlast <;> simpa [State.phase, hlast] using hfull

theorem moves_on_parse_error {c c' : Conn B} {e : Error} {r : Except Error Unit}
    (h : c.on_parse_error T e = some (r, c')) : Moves c.state.phase c'.state.phase := by
  unfold on_parse_error at h
  split at h
  · rename_i hw
    split_ifs at h
    · simp only [Option.some.injEq, Prod.mk.injEq] at h
      rw [← h.2]
      exact .refl
    · split at h
      · -- the role's error response is written as a head
        obtain ⟨c1, hwh, hc⟩ := Option.map_eq_some_iff.mp h
        simp only [Prod.mk.injEq] at hc
        rw [← hc.2]
        show Moves c.state.phase c1.state.phase
        exact moves_write_head T hw hwh
      · simp only [Option.some.injEq, Prod.mk.injEq] at h
        rw [← h.2]
        exact .refl
  · simp only [Option.some.injEq, Prod.mk.injEq] at h
    rw [← h.2]
    exact .refl

theorem moves_on_read_head_error {c c' : Conn B} {e : Error}
    {r : Poll (Option (Except Error (MessageHead In × DecodedLength × Wants)))}
    (h : c.on_read_head_error T e = some (r, c')) : Moves c.state.phase c'.state.phase := by
  unfold on_read_head_error at h
  dsimp only at h
  have hclose : Moves c.state.phase c.close_read.state.phase := c.state.moves_close_read
  split_ifs at h
  · obtain ⟨⟨r1, c1⟩, hpe, hc⟩ := Option.map_eq_some_iff.mp h
    have h1 := moves_on_parse_error T hpe
    have hc1 : c' = c1 := by
      rcases r1 with _ | ⟨⟩ <;> simp only [Prod.mk.injEq] at hc <;> exact hc.2.symm
    rw [hc1]
    exact hclose.trans h1
  · simp only [Option.some.injEq, Prod.mk.injEq] at h
    rw [← h.2]
    exact hclose.trans (c.close_read.state.moves_close_write)

/-- What the dispatcher's guards say of the phase. -/
theorem reading_of_can_read_head {c : Conn B} (hg : c.can_read_head T = true) : c.state.reading = .Init := by
  unfold can_read_head at hg
  split at hg
  · assumption
  · cases hg

theorem writing_of_can_write_head [Buf B] {c : Conn B} (hg : c.can_write_head T = true) : c.state.writing = .Init := by
  unfold can_write_head at hg
  split_ifs at hg
  simp only [Bool.and_eq_true, decide_eq_true_eq] at hg
  exact hg.1

/-- A parsed head: the connection turns busy, drops keep-alive if the head does, and moves the
read side to where the head's length says. -/
theorem moves_poll_read_head {c c' : Conn B}
    {r : Poll (Option (Except Error (MessageHead In × DecodedLength × Wants)))}
    (hg : c.can_read_head T = true) (h : c.poll_read_head T = some (r, c')) :
    Moves c.state.phase c'.state.phase := by
  have hr := reading_of_can_read_head T hg
  unfold poll_read_head at h
  split at h
  · simp only [Option.some.injEq, Prod.mk.injEq] at h
    rw [← h.2]
    exact .refl
  · have := moves_on_read_head_error T h
    exact this
  · rename_i msg io _
    dsimp only at h
    -- the state before the read side moves: busy, and kept alive only if the head allows it
    set s0 : State :=
      { c.state with method := T.parsed_method msg c.state.method, h09_responses := false }
    set s := s0.busy.and_keep_alive msg.keep_alive with hs
    have hsr : s.reading = .Init := by simpa [hs] using hr
    have hmoves : Moves c.state.phase s.phase := s0.moves_busy.trans (s0.busy.moves_and_keep_alive _)
    have hhead := hmoves.trans (Moves.read_head hsr msg.decode msg.expect_continue)
    by_cases hz : msg.decode = DecodedLength.ZERO
    · -- no body: the read side is done, and a client may go idle at once
      rw [if_pos hz] at h
      rw [headReading_eq_keepAlive.mpr hz] at hhead
      simp only [Option.some.injEq, Prod.mk.injEq] at h
      rw [← h.2]
      split_ifs
      · exact moves_try_keep_alive T _ hhead
      · exact hhead
    · rw [if_neg hz] at h
      by_cases hc : msg.expect_continue
      · rw [if_pos hc] at h
        simp only [headReading, hz, hc, if_false, if_true] at hhead
        simp only [Option.some.injEq, Prod.mk.injEq] at h
        rw [← h.2]
        exact hhead
      · rw [if_neg hc] at h
        simp only [headReading, hz, hc, if_false] at hhead
        simp only [Option.some.injEq, Prod.mk.injEq] at h
        rw [← h.2]
        exact hhead

/-- Reading a body: the decoder follows from where it was by the slice it read, and the body ends
at the decoder's end or at an error.  Stated from any phase that reaches the connection's, as
`poll_read_body` reaches it through the `100 Continue`. -/
theorem moves_readBody [Buf B] {p : Phase} {c : Conn B} {d : Decoder} (hd : c.state.reading = .Body d)
    (hp : Moves p c.state.phase) : Moves p (readBody T c d).2.state.phase := by
  have hf := Decoder.decode_follows 64 d (Buffered.readsAtMost c.io)
  have hdec : ∀ d' n, d.Follows d' n → Moves p ⟨.Body d', c.state.writing, c.state.keep_alive⟩ :=
    fun d' n h ↦ hp.trans (Moves.decode (p := c.state.phase) hd h)
  unfold readBody
  rcases hres : Decoder.decode 64 d c.io with ⟨res, d', io⟩
  rw [hres] at hf
  rcases res with (e | slice) | _
  · exact moves_try_keep_alive T _ (hp.trans (Moves.body_failed (p := c.state.phase) hd))
  · have hslice := hdec d' _ (hf.2 slice rfl)
    dsimp only
    by_cases heof : d'.is_eof
    · rw [if_pos heof]
      exact moves_try_keep_alive T _ (hslice.trans (Moves.body_done rfl heof))
    · rw [if_neg heof]
      split_ifs
      · -- the stream ended before the body did
        exact moves_try_keep_alive T _ (hslice.trans (Moves.body_failed rfl))
      · exact hslice
  · exact hdec d' 0 (hf.1 rfl)

theorem moves_poll_read_body [Buf B] {c c' : Conn B} {r : Poll (Option (Except IoError (List UInt8)))}
    (h : c.poll_read_body T = some (r, c')) : Moves c.state.phase c'.state.phase := by
  unfold poll_read_body at h
  split at h
  · rename_i d hd
    obtain rfl : c' = (readBody T c d).2 := by rw [Option.some.inj h]
    exact moves_readBody T hd .refl
  · rename_i d hd
    dsimp only at h
    have hc := congrArg Prod.snd (Option.some.inj h)
    dsimp only at hc
    rw [← hc]
    -- the read side leaves the wait for the 100 Continue before it reads
    exact moves_readBody T rfl (Moves.read_continue (p := c.state.phase) hd)
  · cases h

theorem moves_write_body [Buf B] {c c' : Conn B} {chunk : B} (h : c.write_body chunk = some c') :
    Moves c.state.phase c'.state.phase := by
  unfold write_body at h
  split at h
  · rename_i e he
    obtain ⟨n, -, hf⟩ := e.encode_follows chunk
    rcases hen : e.encode chunk with ⟨buf, e'⟩
    rw [hen] at hf
    simp only [hen, Option.some.injEq] at h
    subst h
    show Moves c.state.phase ⟨c.state.reading, _, c.state.keep_alive⟩
    rw [← encoderWriting_eq]
    exact Moves.encode he hf
  · cases h

/-- `encode_and_end` keeps the connection alive only where the lifecycle lets the body end: a
chunked body is closed by the end after its last chunk, and a length one once the piece has let
the whole length through. -/
theorem moves_encode_and_end [Buf B] {p : Phase} {e : Encoder} (hp : p.writing = .Body e) (msg : B)
    (h : (e.encode_and_end msg).2 = true) : Moves p ⟨p.reading, .KeepAlive, p.keep_alive⟩ := by
  rcases e with ⟨_ | rem | _, last⟩
  · -- the last chunk, then the end of the body
    have hlast : last = false := by simpa [Encoder.encode_and_end] using h
    have hpiece := Moves.encode hp (show Encoder.Follows _ ⟨.Chunked, last⟩ 0 by simp [Encoder.Follows])
    have hend := Moves.end_body (p := ⟨p.reading, encoderWriting ⟨.Chunked, last⟩, p.keep_alive⟩)
      (e := ⟨.Chunked, last⟩) rfl (by simp)
    simpa [endWriting, Encoder.is_close_delimited, hlast] using hpiece.trans hend
  · -- the piece let the rest of the length through
    have hlast : last = false := by
      unfold Encoder.encode_and_end at h
      dsimp only at h
      split_ifs at h <;> simp_all
    have hpiece := Moves.encode hp (show Encoder.Follows _ ⟨.Length 0, last⟩ rem by simp [Encoder.Follows])
    simpa [encoderWriting, Encoder.is_eof, hlast] using hpiece
  · simp [Encoder.encode_and_end] at h

theorem moves_write_body_and_end [Buf B] {c c' : Conn B} {chunk : B} (h : c.write_body_and_end chunk = some c') :
    Moves c.state.phase c'.state.phase := by
  unfold write_body_and_end at h
  split at h
  · rename_i e he
    rcases hen : e.encode_and_end chunk with ⟨buf, keep⟩
    simp only [hen, Option.some.injEq] at h
    subst h
    cases keep
    · exact Moves.write_failed
    · exact moves_encode_and_end he chunk (by rw [hen])
  · cases h

theorem moves_end_body [Buf B] (c : Conn B) : Moves c.state.phase c.end_body.2.state.phase := by
  unfold end_body
  split
  · rename_i e he
    split
    · rename_i last hend
      -- `end` succeeds only once no length is owed
      have hno : ∀ rem, e.kind = .Length rem → rem = 0 := by
        intro rem hk
        unfold Encoder.«end» at hend
        rw [hk] at hend
        rcases rem with _ | rem
        · rfl
        · simp at hend
      exact Moves.end_body he hno
    · exact Moves.write_failed
  · exact .refl

theorem moves_force_io_read (c : Conn B) : Moves c.state.phase c.force_io_read.2.state.phase := by
  unfold force_io_read
  split
  · exact c.state.moves_close
  · exact .refl

theorem moves_of_force_io_read {c c1 : Conn B} {r : Poll (Except IoError ℕ)}
    (hf : c.force_io_read = (r, c1)) : Moves c.state.phase c1.state.phase := by
  have h := moves_force_io_read c
  rwa [hf] at h

theorem moves_require_empty_read (c : Conn B) :
    Moves c.state.phase (c.require_empty_read T).2.state.phase := by
  unfold require_empty_read
  split_ifs
  · exact .refl
  · rcases hf : force_io_read c with ⟨r, c1⟩
    have h1 := moves_of_force_io_read hf
    rcases r with (_ | n) | _
    · exact h1
    · dsimp only
      by_cases hn : n = 0
      · rw [if_pos hn]
        exact h1.trans c1.state.moves_close_read
      · rw [if_neg hn]
        exact h1
    · exact h1

theorem moves_mid_message_detect_eof (c : Conn B) :
    Moves c.state.phase c.mid_message_detect_eof.2.state.phase := by
  unfold mid_message_detect_eof
  split_ifs
  · exact .refl
  · rcases hf : force_io_read c with ⟨r, c1⟩
    have h1 := moves_of_force_io_read hf
    rcases r with (_ | n) | _
    · exact h1
    · dsimp only
      by_cases hn : n = 0
      · rw [if_pos hn]
        exact h1.trans c1.state.moves_close_read
      · rw [if_neg hn]
        exact h1
    · exact h1

theorem moves_poll_read_keep_alive (c : Conn B) :
    Moves c.state.phase (c.poll_read_keep_alive T).2.state.phase := by
  unfold poll_read_keep_alive
  split_ifs
  · exact .refl
  · exact moves_mid_message_detect_eof c
  · exact moves_require_empty_read T c

theorem moves_poll_flush [Buf B] [LawfulBuf B] (c : Conn B) : Moves c.state.phase (c.poll_flush T).2.state.phase := by
  unfold poll_flush
  split
  · exact moves_try_keep_alive T _ .refl
  · exact .refl

end Conn

/-! ## The connection refines the lifecycle -/

section Refinement

variable {B : Type} [Buf B] [LawfulBuf B] {In Out : Type} (T : Transaction In Out)

/-- Every step of a connection moves its phase along a run of the lifecycle. -/
theorem Step.moves {c c' : Conn B} (h : Step T c c') : Moves c.state.phase c'.state.phase := by
  cases h with
  | poll_read_head hg h => exact Conn.moves_poll_read_head T hg h
  | poll_read_body _ h => exact Conn.moves_poll_read_body T h
  | poll_read_keep_alive _ h =>
    obtain rfl : c' = (c.poll_read_keep_alive T).2 := by rw [h]
    exact Conn.moves_poll_read_keep_alive T c
  | write_head hg h => exact Conn.moves_write_head T (Conn.writing_of_can_write_head T hg) h
  | write_full_msg hg h => exact Conn.moves_write_full_msg T (Conn.writing_of_can_write_head T hg) h
  | write_body _ h => exact Conn.moves_write_body h
  | write_body_and_end _ h => exact Conn.moves_write_body_and_end h
  | end_body _ h =>
    obtain rfl : c' = c.end_body.2 := by rw [h]
    exact Conn.moves_end_body c
  | on_parse_error h => exact Conn.moves_on_parse_error T h
  | poll_flush h =>
    obtain rfl : c' = (c.poll_flush T).2 := by rw [h]
    exact Conn.moves_poll_flush T c
  | close_read => exact c.state.moves_close_read
  | close_write => exact c.state.moves_close_write
  | disable_keep_alive => exact Conn.moves_disable_keep_alive c
  | try_keep_alive => exact Conn.moves_try_keep_alive T c .refl
  | maybe_notify => exact Conn.moves_maybe_notify c

/-- The phases along every run of a connection are a run of the lifecycle. -/
theorem run_moves {c c' : Conn B} (h : ReflTransGen (Step T) c c') : Moves c.state.phase c'.state.phase := by
  induction h with
  | refl => exact .refl
  | tail _ hstep ih => exact ih.trans (hstep.moves T)

/-- A client whose parser has not yet seen a whole head. -/
def partialClient : Transaction StatusCode RequestLine := .client fun _ ↦ .ok .Partial

/-- A client connection over a transport that has nothing to read. -/
def newClient : Conn (List UInt8) := Conn.new ⟨[], [], [], []⟩ .Flatten

end Refinement

end Hyper.H1
