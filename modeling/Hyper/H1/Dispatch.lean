import Hyper.H1.Lifecycle

/-!
# Driving a connection

The dispatcher of `proto/h1/dispatch.rs` drives a `Conn` by calling its entry points, each under
the guard it checks before the call.  The dispatcher itself (the service, the body channels) is
not modelled: a `Call` names one entry point with its arguments, `Call.apply` makes the call when
its guard allows it, and `runCalls` makes a list of calls in order.

Every call that goes through is a `Step` (`Call.step`), so every list of calls that goes through
is a run of the connection (`runCalls_run`), and what `Hyper.H1.Lifecycle` proves of runs holds
of it.  The runs that later modules exhibit at fixed inputs are lists of calls.
-/

set_option autoImplicit false

namespace Hyper.H1

open Relation

/-- An entry point of `Conn`, with its arguments. -/
inductive Call (Out B : Type) where
  | read_head
  | read_body
  | read_keep_alive
  | write_head (head : MessageHead Out) (body : Option BodyLength)
  | write_full_msg (head : MessageHead Out) (body : B)
  | write_body (chunk : B)
  | write_body_and_end (chunk : B)
  | end_body
  | flush
  | close_read
  | close_write
  | disable_keep_alive

namespace Call

variable {B : Type} [Buf B] [LawfulBuf B] {In Out : Type} (T : Transaction In Out)

/-- The call, if its guard allows it; the results the dispatcher would see are dropped. -/
def apply : Call Out B → Conn B → Option (Conn B)
  | .read_head, c => if c.can_read_head T then (c.poll_read_head T).map Prod.snd else none
  | .read_body, c => if c.can_read_body then (c.poll_read_body T).map Prod.snd else none
  | .read_keep_alive, c =>
    if !c.can_read_head T && !c.can_read_body then some (c.poll_read_keep_alive T).2 else none
  | .write_head head body, c => if c.can_write_head T then c.write_head T head body else none
  | .write_full_msg head body, c => if c.can_write_head T then c.write_full_msg T head body else none
  | .write_body chunk, c => if c.can_write_body && c.can_buffer_body then c.write_body chunk else none
  | .write_body_and_end chunk, c =>
    if c.can_write_body && c.can_buffer_body then c.write_body_and_end chunk else none
  | .end_body, c => if c.can_write_body then some c.end_body.2 else none
  | .flush, c => some (c.poll_flush T).2
  | .close_read, c => some c.close_read
  | .close_write, c => some c.close_write
  | .disable_keep_alive, c => some c.disable_keep_alive

/-- A call that goes through is a step of the connection. -/
theorem step {call : Call Out B} {c c' : Conn B} (h : call.apply T c = some c') : Step T c c' := by
  cases call with
  | read_head =>
    simp only [apply, Option.ite_none_right_eq_some, Option.map_eq_some_iff] at h
    obtain ⟨hg, ⟨r, c1⟩, h1, rfl⟩ := h
    exact .poll_read_head hg h1
  | read_body =>
    simp only [apply, Option.ite_none_right_eq_some, Option.map_eq_some_iff] at h
    obtain ⟨hg, ⟨r, c1⟩, h1, rfl⟩ := h
    exact .poll_read_body hg h1
  | read_keep_alive =>
    simp only [apply, Option.ite_none_right_eq_some, Option.some.injEq, Bool.and_eq_true,
      Bool.not_eq_true'] at h
    obtain ⟨⟨hh, hb⟩, rfl⟩ := h
    exact .poll_read_keep_alive ⟨by simp [hh], by simp [hb]⟩ rfl
  | write_head head body =>
    simp only [apply, Option.ite_none_right_eq_some] at h
    exact .write_head h.1 h.2
  | write_full_msg head body =>
    simp only [apply, Option.ite_none_right_eq_some] at h
    exact .write_full_msg h.1 h.2
  | write_body chunk =>
    simp only [apply, Option.ite_none_right_eq_some, Bool.and_eq_true] at h
    exact .write_body h.1 h.2
  | write_body_and_end chunk =>
    simp only [apply, Option.ite_none_right_eq_some, Bool.and_eq_true] at h
    exact .write_body_and_end h.1 h.2
  | end_body =>
    simp only [apply, Option.ite_none_right_eq_some, Option.some.injEq] at h
    obtain ⟨hg, rfl⟩ := h
    exact .end_body hg rfl
  | flush =>
    obtain rfl := Option.some.inj h
    exact .poll_flush rfl
  | close_read =>
    obtain rfl := Option.some.inj h
    exact .close_read c
  | close_write =>
    obtain rfl := Option.some.inj h
    exact .close_write c
  | disable_keep_alive =>
    obtain rfl := Option.some.inj h
    exact .disable_keep_alive c

end Call

variable {B : Type} [Buf B] [LawfulBuf B] {In Out : Type} (T : Transaction In Out)

/-- The calls in order, as long as each goes through. -/
def runCalls : List (Call Out B) → Conn B → Option (Conn B)
  | [], c => some c
  | call :: calls, c => (call.apply T c).bind (runCalls calls)

/-- A list of calls that goes through is a run of the connection. -/
theorem runCalls_run {calls : List (Call Out B)} {c c' : Conn B} (h : runCalls T calls c = some c') :
    ReflTransGen (Step T) c c' := by
  induction calls generalizing c with
  | nil =>
    obtain rfl := Option.some.inj h
    exact .refl
  | cons call calls ih =>
    obtain ⟨c1, h1, hrest⟩ := Option.bind_eq_some_iff.mp h
    exact ReflTransGen.head (call.step T h1) (ih hrest)

end Hyper.H1
