import Hyper.Basic
import Mathlib.Logic.Function.Basic

/-!
# The connection pool (`client/pool.rs`)

`PoolInner` keeps, per key, the idle connections (a `Vec`, pushed and popped at its end), the
checkouts waiting for one (a `VecDeque` of `oneshot` senders, served from the front) and whether
an HTTP/2 connection is being set up.  The maps are functions from the key here: `none` is a key
the `HashMap` does not hold.

A connection that can be shared (HTTP/2) reserves as two copies of itself, one to keep and one
to hand out; any other reserves as itself (`LawfulPoolable`, which `PoolClient` satisfies).
Whether a connection is still open, and the current time, are asked of the world at the moment
of the call, so the operations that ask take them as arguments; so do the receivers behind the
waiting senders (`Receivers`), which may have gone away before the check or between the check
and the send.

## What is here

* The locked operations of the pool: `put`, `connected`, `clean_waiters`, `clear_expired`, and
  the locked part of `Checkout::checkout` with `IdlePopper::pop`.
* `put_delivers_once` — what `put` does, exactly: a connection that cannot be shared goes to the
  first receiver that takes it, or to the idle list if there is room; one that can be shared
  goes to every receiver that takes it and a copy is kept, unless the key already has an idle
  list, in which case nothing happens at all.
-/

set_option autoImplicit false

namespace Hyper.Client

/-- `Reservation`. -/
inductive Reservation (T : Type) where
  | Shared (to_keep to_send : T)
  | Unique (value : T)
  deriving DecidableEq, Repr

/-- `Poolable`, without `is_open`, which the operations are given. -/
class Poolable (T : Type) where
  reserve : T → Reservation T
  can_share : T → Bool

/-- Copies of a shared connection are the connection itself. -/
class LawfulPoolable (T : Type) [Poolable T] : Prop where
  reserve_eq : ∀ v : T, Poolable.reserve v = if Poolable.can_share v then .Shared v v else .Unique v

/-- The client of `client.rs` that the pool holds: its connection, and whether it speaks HTTP/2
(`PoolTx::Http2`). -/
structure PoolClient where
  conn : ℕ
  is_http2 : Bool
  deriving DecidableEq, Repr

/-- `Poolable for PoolClient`: an HTTP/2 sender is cloned, an HTTP/1 one is unique. -/
instance : Poolable PoolClient where
  reserve c := if c.is_http2 then .Shared c c else .Unique c
  can_share c := c.is_http2

instance : LawfulPoolable PoolClient where
  reserve_eq _ := rfl

/-- `Idle`. -/
structure Idle (T : Type) where
  idle_at : ℕ
  value : T
  deriving DecidableEq, Repr

/-- What the pool learns of the receiver behind a waiting sender: `is_canceled`, and whether a
`send` succeeds (a receiver dropped after the check refuses the value and gives it back). -/
structure Receivers where
  is_canceled : ℕ → Bool
  send_ok : ℕ → Bool

/-- The receiver takes a value sent to it. -/
def Receivers.accepts (rx : Receivers) (tx : ℕ) : Bool := !rx.is_canceled tx && rx.send_ok tx

theorem Receivers.accepts_eq_true {rx : Receivers} {tx : ℕ} :
    rx.accepts tx = true ↔ rx.is_canceled tx = false ∧ rx.send_ok tx = true := by
  simp [accepts]

/-- `PoolInner`; senders are named by numbers. -/
structure PoolInner (κ T : Type) where
  connecting : κ → Bool
  idle : κ → Option (List (Idle T))
  max_idle_per_host : ℕ
  waiters : κ → Option (List ℕ)
  timeout : Option ℕ
  /-- `Pool::new` builds the inner pool only when `Config::is_enabled`. -/
  max_pos : 0 < max_idle_per_host

/-- `Pool::new`: a pool with no idle slot is disabled. -/
def PoolInner.new {κ T : Type} (idle_timeout : Option ℕ) (max_idle_per_host : ℕ) : Option (PoolInner κ T) :=
  if h : 0 < max_idle_per_host then
    some ⟨fun _ ↦ false, fun _ ↦ none, max_idle_per_host, fun _ ↦ none, idle_timeout, h⟩
  else none

/-- `Expiration::expires` at time `now`. -/
def expires (timeout : Option ℕ) (now instant : ℕ) : Bool :=
  match timeout with
  | some timeout => now - instant > timeout
  | none => false

namespace PoolInner

variable {κ T : Type} [DecidableEq κ] [Poolable T]

open Function (update)

/-- The `while let Some(tx) = waiters.pop_front()` loop of `put`: the value left, the waiters not
popped, and what was sent, to whom. -/
def putLoop (rx : Receivers) : List ℕ → T → Option T × List ℕ × List (ℕ × T)
  | [], value => (some value, [], [])
  | tx :: waiters, value =>
    if !rx.is_canceled tx then
      match Poolable.reserve value with
      | .Shared to_keep to_send =>
        if rx.send_ok tx then
          let (value, waiters, sent) := putLoop rx waiters to_keep
          (value, waiters, (tx, to_send) :: sent)
        -- `Err(e)`: the value comes back
        else putLoop rx waiters to_send
      | .Unique uniq =>
        if rx.send_ok tx then (none, waiters, [(tx, uniq)])
        else putLoop rx waiters uniq
    else putLoop rx waiters value

/-- `PoolInner::put` at time `now`: the pool after it, and what was sent to the waiters. -/
def put (rx : Receivers) (key : κ) (value : T) (now : ℕ) (inner : PoolInner κ T) :
    PoolInner κ T × List (ℕ × T) :=
  if Poolable.can_share value && (inner.idle key).isSome then (inner, [])
  else
    let (value, inner, sent) :=
      match inner.waiters key with
      | some waiters =>
        let (value, waiters, sent) := putLoop rx waiters value
        (value, { inner with waiters := update inner.waiters key (if waiters.isEmpty then none else some waiters) },
          sent)
      | none => (some value, inner, [])
    match value with
    | some value =>
      -- `entry(key).or_insert_with(Vec::new)` comes before the check for room
      let idle_list := (inner.idle key).getD []
      if inner.max_idle_per_host ≤ idle_list.length then
        ({ inner with idle := update inner.idle key (some idle_list) }, sent)
      else ({ inner with idle := update inner.idle key (some (idle_list ++ [⟨now, value⟩])) }, sent)
    | none => (inner, sent)

/-- `PoolInner::connected`. -/
def connected (key : κ) (inner : PoolInner κ T) : PoolInner κ T :=
  { inner with connecting := update inner.connecting key false, waiters := update inner.waiters key none }

/-- `PoolInner::clean_waiters`. -/
def clean_waiters (is_canceled : ℕ → Bool) (key : κ) (inner : PoolInner κ T) : PoolInner κ T :=
  match inner.waiters key with
  | some waiters =>
    let waiters := waiters.filter fun tx ↦ !is_canceled tx
    { inner with waiters := update inner.waiters key (if waiters.isEmpty then none else some waiters) }
  | none => inner

/-- `PoolInner::clear_expired` at time `now`; `none` is the panic of a pool without a timeout,
which never has an idle task. -/
def clear_expired (is_open : T → Bool) (now : ℕ) (inner : PoolInner κ T) : Option (PoolInner κ T) :=
  match inner.timeout with
  | none => none
  | some dur =>
    some { inner with
      idle := fun key ↦ (inner.idle key).bind fun values ↦
        let values := values.filter fun entry ↦ is_open entry.value && !(now - entry.idle_at > dur)
        if values.isEmpty then none else some values }

/-- `IdlePopper::pop` at time `now`, over the idle list with its newest entry first: the entry
handed out, and what is left, newest first. -/
def popRev (is_open : T → Bool) (expiration : Option ℕ) (now : ℕ) :
    List (Idle T) → Option (Idle T) × List (Idle T)
  | [] => (none, [])
  | entry :: list =>
    if !is_open entry.value then popRev is_open expiration now list
    else if expires expiration now entry.idle_at then popRev is_open expiration now list
    else
      match Poolable.reserve entry.value with
      | .Shared to_reinsert to_checkout => (some ⟨entry.idle_at, to_checkout⟩, ⟨now, to_reinsert⟩ :: list)
      | .Unique unique => (some ⟨entry.idle_at, unique⟩, list)

/-- `IdlePopper::pop`: the `Vec` is popped from its end. -/
def pop (is_open : T → Bool) (expiration : Option ℕ) (now : ℕ) (list : List (Idle T)) :
    Option (Idle T) × List (Idle T) :=
  let (entry, rest) := popRev is_open expiration now list.reverse
  (entry, rest.reverse)

/-- The locked part of `Checkout::checkout` at time `now`: pop an idle entry, remove the list if
it is left empty or had nothing to give, and register the sender `tx` when nothing was found and
the checkout has no waiter yet.  Also returns whether `tx` was registered. -/
def checkout (is_open : T → Bool) (now : ℕ) (key : κ) (has_waiter : Bool) (tx : ℕ) (inner : PoolInner κ T) :
    Option (Idle T) × PoolInner κ T × Bool :=
  let (entry, empty, inner) :=
    match inner.idle key with
    | some list =>
      let (entry, list) := pop is_open inner.timeout now list
      let inner := { inner with idle := update inner.idle key (some list) }
      match entry with
      | some entry => (some entry, list.isEmpty, inner)
      | none => (none, true, inner)
    | none => (none, true, inner)
  let inner := if empty then { inner with idle := update inner.idle key none } else inner
  if entry.isNone && !has_waiter then
    (entry, { inner with waiters := update inner.waiters key (some ((inner.waiters key).getD [] ++ [tx])) }, true)
  else (entry, inner, false)

/-! ## What `put` does -/

section Put

variable [LawfulPoolable T]

theorem reserve_of_can_share {v : T} (h : Poolable.can_share v = true) : Poolable.reserve v = .Shared v v := by
  rw [LawfulPoolable.reserve_eq, if_pos h]

theorem reserve_of_not_can_share {v : T} (h : Poolable.can_share v = false) : Poolable.reserve v = .Unique v := by
  rw [LawfulPoolable.reserve_eq, if_neg (by simp [h])]

/-- A sender whose receiver does not take the value is popped, and the value goes on. -/
theorem putLoop_reject (rx : Receivers) (tx : ℕ) (waiters : List ℕ) (v : T) (h : rx.accepts tx = false) :
    putLoop rx (tx :: waiters) v = putLoop rx waiters v := by
  by_cases hc : rx.is_canceled tx
  · simp [putLoop, hc]
  · -- a receiver that was there at the check refuses the send, and the value comes back
    have hs : rx.send_ok tx = false := by simpa [Receivers.accepts, hc] using h
    by_cases hsh : Poolable.can_share v
    · simp [putLoop, hc, hs, reserve_of_can_share hsh]
    · simp [putLoop, hc, hs, reserve_of_not_can_share (Bool.eq_false_iff.mpr hsh)]

/-- Senders whose receivers all refuse are all popped, and the value is left. -/
theorem putLoop_none_accept (rx : Receivers) (v : T) :
    ∀ waiters : List ℕ, (∀ tx ∈ waiters, rx.accepts tx = false) → putLoop rx waiters v = (some v, [], [])
  | [], _ => rfl
  | tx :: waiters, h => by
    rw [putLoop_reject rx tx waiters v (h tx List.mem_cons_self)]
    exact putLoop_none_accept rx v waiters fun tx' htx' ↦ h tx' (List.mem_cons_of_mem _ htx')

/-- A unique value goes to the first receiver that takes it, and the loop stops there. -/
theorem putLoop_unique_accepts (rx : Receivers) {v : T} (hv : Poolable.can_share v = false) (tx : ℕ)
    (rest : List ℕ) (h : rx.accepts tx = true) :
    ∀ skipped : List ℕ, (∀ s ∈ skipped, rx.accepts s = false) →
      putLoop rx (skipped ++ tx :: rest) v = (none, rest, [(tx, v)])
  | [], _ => by
    obtain ⟨hc, hs⟩ := Receivers.accepts_eq_true.mp h
    simp [putLoop, hc, hs, reserve_of_not_can_share hv]
  | s :: skipped, hskip => by
    rw [List.cons_append, putLoop_reject rx s _ v (hskip s List.mem_cons_self)]
    exact putLoop_unique_accepts rx hv tx rest h skipped fun s' hs' ↦ hskip s' (List.mem_cons_of_mem _ hs')

/-- A shared value goes to every receiver that takes it, and a copy is left. -/
theorem putLoop_shared (rx : Receivers) {v : T} (hv : Poolable.can_share v = true) :
    ∀ waiters : List ℕ, putLoop rx waiters v = (some v, [], (waiters.filter rx.accepts).map (·, v))
  | [] => rfl
  | tx :: waiters => by
    by_cases h : rx.accepts tx
    · obtain ⟨hc, hs⟩ := Receivers.accepts_eq_true.mp h
      simp [putLoop, hc, hs, reserve_of_can_share hv, putLoop_shared rx hv waiters, h]
    · rw [putLoop_reject rx tx waiters v (by simpa using h), putLoop_shared rx hv waiters]
      simp [h]

/-- A map updated at a key with what it already holds there is the map. -/
theorem update_self_of_eq {α : Type} {f : κ → Option α} {key : κ} {a : Option α} (h : f key = a) :
    update f key a = f := by
  rw [← h, Function.update_eq_self]

end Put

end PoolInner

open Function (update) in
theorem put_delivers_once {κ T : Type} [DecidableEq κ] [Poolable T] [LawfulPoolable T] (rx : Receivers)
    (key : κ) (value : T) (now : ℕ) (inner : PoolInner κ T) :
    (Poolable.can_share value = false →
      (∀ skipped tx rest, (inner.waiters key).getD [] = skipped ++ tx :: rest →
        (∀ s ∈ skipped, rx.accepts s = false) → rx.accepts tx = true →
        inner.put rx key value now =
          ({ inner with waiters := update inner.waiters key (if rest = [] then none else some rest) },
            [(tx, value)])) ∧
      ((∀ s ∈ (inner.waiters key).getD [], rx.accepts s = false) →
        inner.put rx key value now =
          ({ inner with
              waiters := update inner.waiters key none
              idle := update inner.idle key (some
                (if inner.max_idle_per_host ≤ ((inner.idle key).getD []).length then (inner.idle key).getD []
                  else (inner.idle key).getD [] ++ [⟨now, value⟩])) }, []))) ∧
    (Poolable.can_share value = true →
      ((inner.idle key).isSome = true → inner.put rx key value now = (inner, [])) ∧
      (inner.idle key = none →
        inner.put rx key value now =
          ({ inner with waiters := update inner.waiters key none, idle := update inner.idle key (some [⟨now, value⟩]) },
            (((inner.waiters key).getD []).filter rx.accepts).map (·, value)))) := by
  refine ⟨fun hv ↦ ⟨fun skipped tx rest hws hskip htx ↦ ?_, fun hnone ↦ ?_⟩, fun hv ↦ ⟨fun hidle ↦ ?_, fun hidle ↦ ?_⟩⟩
  · -- the first receiver that takes the value gets it, and the others stay queued
    rcases hw : inner.waiters key with _ | waiters
    · rw [hw] at hws
      simp at hws
    · rw [hw, Option.getD_some] at hws
      subst hws
      simp only [PoolInner.put, hv, Bool.false_and, Bool.false_eq_true, if_false, hw,
        PoolInner.putLoop_unique_accepts rx hv tx rest htx skipped hskip, List.isEmpty_iff]
  · -- nobody takes it: the queue is gone and the value is idle if there is room
    rcases hw : inner.waiters key with _ | waiters
    · have hupd := PoolInner.update_self_of_eq hw
      simp only [PoolInner.put, hv, Bool.false_and, Bool.false_eq_true, if_false, hw, hupd]
      split_ifs <;> rfl
    · rw [hw, Option.getD_some] at hnone
      simp only [PoolInner.put, hv, Bool.false_and, Bool.false_eq_true, if_false, hw,
        PoolInner.putLoop_none_accept rx value waiters hnone, List.isEmpty_nil, if_true]
      split_ifs <;> rfl
  · simp [PoolInner.put, hv, hidle]
  · -- a new HTTP/2 connection: every waiter that takes it gets a copy, and a copy is idle
    have hroom : ¬inner.max_idle_per_host ≤ ([] : List (Idle T)).length := by
      have := inner.max_pos
      simp only [List.length_nil]
      omega
    rcases hw : inner.waiters key with _ | waiters
    · have hupd := PoolInner.update_self_of_eq hw
      simp only [PoolInner.put, hv, hidle, Option.isSome_none, Bool.and_false, Bool.false_eq_true, if_false, hw,
        hupd, Option.getD_none, hroom, List.nil_append, List.filter_nil, List.map_nil]
    · simp only [PoolInner.put, hv, hidle, Option.isSome_none, Bool.and_false, Bool.false_eq_true, if_false, hw,
        PoolInner.putLoop_shared rx hv waiters, List.isEmpty_nil, if_true, Option.getD_some, Option.getD_none,
        hroom, List.nil_append]

/-- A pool with one idle slot, and two senders waiting on the key `0`. -/
def twoWaiters : PoolInner ℕ PoolClient :=
  ⟨fun _ ↦ false, fun _ ↦ none, 1, fun key ↦ if key = 0 then some [1, 2] else none, none, by decide⟩

/-- The receiver of the first sender is gone. -/
def firstCanceled : Receivers := ⟨fun tx ↦ tx = 1, fun _ ↦ true⟩

theorem put_delivers_to_second_waiter :
    Poolable.can_share (⟨7, false⟩ : PoolClient) = false ∧
    twoWaiters.put firstCanceled 0 ⟨7, false⟩ 0 =
      ({ twoWaiters with waiters := Function.update twoWaiters.waiters 0 none }, [(2, ⟨7, false⟩)]) :=
  ⟨rfl, ((put_delivers_once firstCanceled 0 ⟨7, false⟩ 0 twoWaiters).1 rfl).1 [1] 2 [] rfl (by decide) (by decide)⟩

end Hyper.Client
