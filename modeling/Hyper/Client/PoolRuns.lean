import Hyper.Client.Pool
import Hyper.Lib.Runs
import Mathlib.Data.List.Count

/-!
# The pool and its handles, over whole runs (`client/pool.rs`)

The pool hands out three kinds of handle, and each touches `PoolInner` again when it is used or
dropped: a `Connecting` (which may hold the reference that makes its drop call `connected`), a
`Pooled` (which puts its connection back on drop) and a `Checkout` (which may have registered a
waiter, and cleans the waiters on drop).  `PoolSystem` is the inner pool together with the live
handles, the `oneshot` channels of the waiters, and the receivers still held; `Op` lists what a
client may do next, and `Op.apply` what it does.

## What is here

* `PoolInner.WellFormed` — every idle list is non-empty and within `max_idle_per_host`, and every
  queue of waiters is non-empty; each locked operation keeps it.
* `PoolSystem.Inv` — that, and: the pool marks a key as connecting iff exactly one live
  `Connecting` for it holds the reference.  Every step a client takes keeps it (`Inv.step`), so
  it holds along every run from `Pool::new` (`pool_invariant`).  A client here is one that hands
  `Pool::pooled` a shared connection only with a `Connecting` that holds the reference, as
  `Client::connect_to` does (`Op.Allowed`).
* `poll_hands_out_open` — a checkout hands out only connections that are open, and from the
  idle list only ones that have not expired.
* Without the client's discipline the marking breaks: a shared connection pooled through an
  HTTP/1 `Connecting` clears the mark of the HTTP/2 `Connecting` still under way
  (`pooled_shared_without_reference`).
-/

set_option autoImplicit false

namespace Hyper.Client

open Function (update)

/-! ## The inner pool's shape -/

namespace PoolInner

variable {κ T : Type}

/-- Idle lists and queues of waiters are never empty, and idle lists keep within the limit. -/
structure WellFormed (inner : PoolInner κ T) : Prop where
  idle_ne : ∀ key list, inner.idle key = some list → list ≠ []
  idle_le : ∀ key list, inner.idle key = some list → list.length ≤ inner.max_idle_per_host
  waiters_ne : ∀ key waiters, inner.waiters key = some waiters → waiters ≠ []

theorem wellFormed_new {timeout : Option ℕ} {max : ℕ} {inner : PoolInner κ T}
    (h : PoolInner.new timeout max = some inner) : inner.WellFormed := by
  unfold PoolInner.new at h
  split_ifs at h
  obtain rfl := Option.some.inj h
  refine ⟨?_, ?_, ?_⟩ <;> intro _ _ h <;> cases h

namespace WellFormed

variable [DecidableEq κ] {inner : PoolInner κ T}

/-- Setting a key's queue to nothing or to a non-empty queue keeps the shape. -/
theorem set_waiters (h : inner.WellFormed) (key : κ) {waiters : Option (List ℕ)}
    (hw : ∀ ws, waiters = some ws → ws ≠ []) :
    ({ inner with waiters := update inner.waiters key waiters } : PoolInner κ T).WellFormed := by
  refine ⟨h.idle_ne, h.idle_le, fun k ws hk ↦ ?_⟩
  dsimp only at hk
  rw [Function.update_apply] at hk
  split_ifs at hk
  · exact hw ws hk
  · exact h.waiters_ne k ws hk

/-- Setting a key's idle list to nothing or to a non-empty list within the limit keeps the shape. -/
theorem set_idle (h : inner.WellFormed) (key : κ) {list : Option (List (Idle T))}
    (hl : ∀ l, list = some l → l ≠ [] ∧ l.length ≤ inner.max_idle_per_host) :
    ({ inner with idle := update inner.idle key list } : PoolInner κ T).WellFormed := by
  refine ⟨fun k l hk ↦ ?_, fun k l hk ↦ ?_, h.waiters_ne⟩ <;> dsimp only at hk <;>
    rw [Function.update_apply] at hk <;> split_ifs at hk
  · exact (hl l hk).1
  · exact h.idle_ne k l hk
  · exact (hl l hk).2
  · exact h.idle_le k l hk

/-- What `waiters.is_empty()` leaves: no queue, or a non-empty one. -/
theorem queue_or_none (ws : List ℕ) :
    ∀ ws', (if ws.isEmpty then none else some ws) = some ws' → ws' ≠ [] := by
  intro ws' hws
  split_ifs at hws with he
  obtain rfl := Option.some.inj hws
  simpa using he

/-- The idle step of `put` on a full list: `or_insert_with` found it, and it is kept. -/
theorem keep_full (h : inner.WellFormed) (key : κ)
    (hfull : inner.max_idle_per_host ≤ ((inner.idle key).getD []).length) :
    ({ inner with idle := update inner.idle key (some ((inner.idle key).getD [])) } : PoolInner κ T).WellFormed := by
  refine h.set_idle key fun l hl ↦ ?_
  obtain rfl := Option.some.inj hl
  rcases hk : inner.idle key with _ | l
  · -- a missing list is empty, and the limit is positive
    have := inner.max_pos
    simp [hk] at hfull
    omega
  · exact ⟨h.idle_ne key l hk, h.idle_le key l hk⟩

/-- The idle step of `put` on a list with room: it grows by one. -/
theorem push_idle (h : inner.WellFormed) (key : κ) (entry : Idle T)
    (hroom : ¬inner.max_idle_per_host ≤ ((inner.idle key).getD []).length) :
    ({ inner with idle := update inner.idle key (some ((inner.idle key).getD [] ++ [entry])) } :
      PoolInner κ T).WellFormed := by
  refine h.set_idle key fun l hl ↦ ?_
  obtain rfl := Option.some.inj hl
  refine ⟨by simp, ?_⟩
  simp only [List.length_append, List.length_singleton]
  omega

/-- **`put` keeps the shape.** -/
theorem put [Poolable T] (h : inner.WellFormed) (rx : Receivers) (key : κ) (value : T) (now : ℕ) :
    (inner.put rx key value now).1.WellFormed := by
  unfold PoolInner.put
  split_ifs
  · exact h
  rcases hw : inner.waiters key with _ | waiters
  · dsimp only
    split_ifs with hfull
    · exact h.keep_full key hfull
    · exact h.push_idle key _ hfull
  · -- the queue is removed or left non-empty, then the idle step
    dsimp only
    rcases hl : putLoop rx waiters value with ⟨_ | value', waiters', sent⟩ <;> dsimp only
    · exact h.set_waiters key (queue_or_none waiters')
    · have h' := h.set_waiters key (queue_or_none waiters')
      generalize update inner.waiters key (if waiters'.isEmpty then none else some waiters') = W at h' ⊢
      split_ifs with hfull
      · exact h'.keep_full key hfull
      · exact h'.push_idle key _ hfull

theorem connected (h : inner.WellFormed) (key : κ) : (inner.connected key).WellFormed :=
  ⟨h.idle_ne, h.idle_le, (h.set_waiters key fun _ hw ↦ by cases hw).waiters_ne⟩

theorem clean_waiters (h : inner.WellFormed) (is_canceled : ℕ → Bool) (key : κ) :
    (inner.clean_waiters is_canceled key).WellFormed := by
  unfold PoolInner.clean_waiters
  split
  · exact h.set_waiters key (queue_or_none _)
  · exact h

omit [DecidableEq κ] in
theorem clear_expired (h : inner.WellFormed) {is_open : T → Bool} {now : ℕ} {inner' : PoolInner κ T}
    (he : inner.clear_expired is_open now = some inner') : inner'.WellFormed := by
  unfold PoolInner.clear_expired at he
  split at he
  · cases he
  · obtain rfl := Option.some.inj he
    -- the filtered lists that stay are non-empty and no longer than before
    refine ⟨fun k l hk ↦ ?_, fun k l hk ↦ ?_, h.waiters_ne⟩ <;>
      obtain ⟨values, hv, hl⟩ := Option.bind_eq_some_iff.mp hk <;> dsimp only at hl <;>
      split_ifs at hl with hemp <;> obtain rfl := Option.some.inj hl
    · simpa using hemp
    · exact Nat.le_trans (List.length_filter_le _ _) (h.idle_le k values hv)

end WellFormed

section Poolable

variable [Poolable T]

/-- Popping leaves no more entries than there were. -/
theorem length_popRev_le (is_open : T → Bool) (expiration : Option ℕ) (now : ℕ) :
    ∀ list : List (Idle T), (popRev is_open expiration now list).2.length ≤ list.length
  | [] => Nat.le_refl _
  | entry :: list => by
    have ih := length_popRev_le is_open expiration now list
    unfold popRev
    split_ifs
    · exact Nat.le_trans ih (Nat.le_succ _)
    · exact Nat.le_trans ih (Nat.le_succ _)
    · split <;> simp

theorem length_pop_le (is_open : T → Bool) (expiration : Option ℕ) (now : ℕ) (list : List (Idle T)) :
    (pop is_open expiration now list).2.length ≤ list.length := by
  simpa [pop] using length_popRev_le is_open expiration now list.reverse

namespace WellFormed

variable [DecidableEq κ] {inner : PoolInner κ T}

omit [Poolable T] in
/-- The end of the checkout: a new sender queued at the back, or nothing. -/
theorem register_or_keep (h : inner.WellFormed) (entry : Option (Idle T)) (c : Bool) (key : κ) (tx : ℕ) :
    (if c then (entry, { inner with waiters := update inner.waiters key (some ((inner.waiters key).getD [] ++ [tx])) }, true)
      else (entry, inner, false)).2.1.WellFormed := by
  split_ifs
  · exact h.set_waiters key fun ws hws ↦ by
      obtain rfl := Option.some.inj hws
      simp
  · exact h

omit [Poolable T] in
/-- The idle step of the checkout: what the pop left is kept, or the list is removed; it is removed
whenever nothing is left. -/
theorem after_pop (h : inner.WellFormed) {key : κ} {list : List (Idle T)} (hk : inner.idle key = some list)
    {rest : List (Idle T)} (hrest : rest.length ≤ list.length) {empty : Bool} (hempty : rest = [] → empty = true) :
    (if empty then ({ inner with idle := update (update inner.idle key (some rest)) key none } : PoolInner κ T)
      else { inner with idle := update inner.idle key (some rest) }).WellFormed := by
  split_ifs with he
  · rw [Function.update_idem]
    exact h.set_idle key fun _ hl ↦ by cases hl
  · refine h.set_idle key fun l hl ↦ ?_
    obtain rfl := Option.some.inj hl
    exact ⟨fun hnil ↦ he (hempty hnil), Nat.le_trans hrest (h.idle_le key list hk)⟩

end WellFormed

/-- **The checkout keeps the shape.** -/
theorem WellFormed.checkout [DecidableEq κ] {inner : PoolInner κ T} (h : inner.WellFormed) (is_open : T → Bool) (now : ℕ)
    (key : κ) (has_waiter : Bool) (tx : ℕ) : (inner.checkout is_open now key has_waiter tx).2.1.WellFormed := by
  unfold PoolInner.checkout
  rcases hk : inner.idle key with _ | list
  · -- no list: there is nothing to remove
    dsimp only
    refine WellFormed.register_or_keep ?_ _ _ key tx
    split_ifs
    · exact h.set_idle key fun _ hl ↦ by cases hl
    · exact h
  · have hlen := length_pop_le is_open inner.timeout now list
    dsimp only
    rcases hp : pop is_open inner.timeout now list with ⟨_ | entry, rest⟩ <;> rw [hp] at hlen <;> dsimp only <;>
      refine WellFormed.register_or_keep ?_ _ _ key tx
    · exact h.after_pop hk hlen fun _ ↦ rfl
    · exact h.after_pop hk hlen fun hnil ↦ by simpa using hnil

/-! ## What a checkout hands out -/

section Popped

variable [LawfulPoolable T]

/-- An entry `IdlePopper::pop` hands out is open and has not expired. -/
theorem popRev_open (is_open : T → Bool) (expiration : Option ℕ) (now : ℕ) :
    ∀ (list : List (Idle T)) (entry : Idle T), (popRev is_open expiration now list).1 = some entry →
      is_open entry.value = true ∧ expires expiration now entry.idle_at = false
  | [], _, h => by cases h
  | e :: list, entry, h => by
    unfold popRev at h
    split_ifs at h with hopen hexp
    · exact popRev_open is_open expiration now list entry h
    · exact popRev_open is_open expiration now list entry h
    · -- the handed-out copy is the connection that was checked
      rw [LawfulPoolable.reserve_eq] at h
      split_ifs at h <;> obtain rfl := Option.some.inj h <;> simp_all

theorem checkout_open [DecidableEq κ] {inner : PoolInner κ T} {is_open : T → Bool} {now : ℕ} {key : κ} {has_waiter : Bool}
    {tx : ℕ} {entry : Idle T} (h : (inner.checkout is_open now key has_waiter tx).1 = some entry) :
    is_open entry.value = true ∧ expires inner.timeout now entry.idle_at = false := by
  unfold PoolInner.checkout at h
  rcases hk : inner.idle key with _ | list
  · -- no list: nothing is handed out
    simp [hk] at h
    split_ifs at h
  · rcases hp : pop is_open inner.timeout now list with ⟨_ | entry', rest⟩
    · simp [hk, hp] at h
      split_ifs at h
    · have hentry : entry' = entry := by
        simp only [hk, hp] at h
        split_ifs at h <;> exact Option.some.inj h
      subst hentry
      have hrev : (popRev is_open inner.timeout now list.reverse).1 = some entry' := by
        simpa [pop] using congrArg Prod.fst hp
      exact popRev_open is_open inner.timeout now _ _ hrev

end Popped

/-- None of the locked operations but `connected` touches the connecting marks. -/
@[simp] theorem connecting_put [DecidableEq κ] (inner : PoolInner κ T) (rx : Receivers) (key : κ) (value : T) (now : ℕ) :
    (inner.put rx key value now).1.connecting = inner.connecting := by
  unfold PoolInner.put
  split_ifs
  · rfl
  rcases hw : inner.waiters key with _ | waiters <;> dsimp only
  · split_ifs <;> rfl
  · rcases hl : putLoop rx waiters value with ⟨_ | value', waiters', sent⟩ <;> dsimp only
    split_ifs <;> rfl

@[simp] theorem connecting_checkout [DecidableEq κ] (inner : PoolInner κ T) (is_open : T → Bool) (now : ℕ) (key : κ)
    (has_waiter : Bool) (tx : ℕ) : (inner.checkout is_open now key has_waiter tx).2.1.connecting = inner.connecting := by
  unfold PoolInner.checkout
  rcases hk : inner.idle key with _ | list <;> dsimp only
  · split_ifs <;> rfl
  · rcases hp : pop is_open inner.timeout now list with ⟨_ | entry, rest⟩ <;> dsimp only <;> split_ifs <;> rfl

end Poolable

@[simp] theorem connecting_clean_waiters [DecidableEq κ] (inner : PoolInner κ T) (is_canceled : ℕ → Bool) (key : κ) :
    (inner.clean_waiters is_canceled key).connecting = inner.connecting := by
  unfold PoolInner.clean_waiters
  split <;> rfl

theorem connecting_clear_expired {inner inner' : PoolInner κ T} {is_open : T → Bool} {now : ℕ}
    (h : inner.clear_expired is_open now = some inner') : inner'.connecting = inner.connecting := by
  unfold PoolInner.clear_expired at h
  split at h
  · cases h
  · obtain rfl := Option.some.inj h
    rfl

end PoolInner

/-! ## The handles -/

/-- `Ver`. -/
inductive Ver where
  | Http1
  | Http2
  deriving DecidableEq, Repr

/-- A live `Connecting`: its key, and whether it holds the reference to the pool. -/
structure Connecting (κ : Type) where
  key : κ
  pool : Bool
  deriving DecidableEq, Repr

/-- A live `Pooled`. -/
structure Pooled (κ T : Type) where
  value : T
  is_reused : Bool
  key : κ
  pool : Bool
  deriving DecidableEq, Repr

/-- A live `Checkout`: its key, and the receiver of the waiter it registered. -/
structure Checkout (κ : Type) where
  key : κ
  waiter : Option ℕ
  deriving DecidableEq, Repr

/-- Where a checkout's connection came from. -/
inductive Handed (T : Type) where
  | fromWaiter (value : T)
  | fromIdle (entry : Idle T)
  deriving DecidableEq, Repr

/-- The inner pool with the live handles, what the waiters' channels hold, the receivers still
held, and the next sender's number. -/
structure PoolSystem (κ T : Type) where
  inner : PoolInner κ T
  connectings : List (Connecting κ)
  pooleds : List (Pooled κ T)
  checkouts : List (Checkout κ)
  channels : ℕ → Option T
  receivers : List ℕ
  next_tx : ℕ

namespace PoolSystem

variable {κ T : Type} [DecidableEq κ] [DecidableEq T] [Poolable T]

/-- The pool `Pool::new` builds, with no handle out. -/
def init (inner : PoolInner κ T) : PoolSystem κ T := ⟨inner, [], [], [], fun _ ↦ none, [], 0⟩

/-- The receivers as the pool sees them: a dropped one is canceled and refuses a send. -/
def rx (s : PoolSystem κ T) : Receivers := ⟨fun tx ↦ !s.receivers.contains tx, fun tx ↦ s.receivers.contains tx⟩

/-- The values `put` sent land in their channels. -/
def deliver (sent : List (ℕ × T)) (channels : ℕ → Option T) : ℕ → Option T :=
  sent.foldl (fun channels p ↦ update channels p.1 (some p.2)) channels

/-- `PoolInner::put` under the lock. -/
def put (key : κ) (value : T) (now : ℕ) (s : PoolSystem κ T) : PoolSystem κ T :=
  { s with inner := (s.inner.put s.rx key value now).1, channels := deliver (s.inner.put s.rx key value now).2 s.channels }

/-- `Pool::connecting`: one attempt per key for HTTP/2, holding the reference; none for a second. -/
def connecting (key : κ) (ver : Ver) (s : PoolSystem κ T) : PoolSystem κ T :=
  if ver = .Http2 then
    if !s.inner.connecting key then
      { s with
        inner := { s.inner with connecting := update s.inner.connecting key true }
        connectings := s.connectings ++ [⟨key, true⟩] }
    else s
  else { s with connectings := s.connectings ++ [⟨key, false⟩] }

/-- `Drop for Connecting`. -/
def dropConnecting (c : Connecting κ) (s : PoolSystem κ T) : PoolSystem κ T :=
  let s := { s with connectings := s.connectings.erase c }
  if c.pool then { s with inner := s.inner.connected c.key } else s

/-- `Connecting::alpn_h2`: ask for the HTTP/2 attempt, then drop the handle. -/
def alpn_h2 (c : Connecting κ) (s : PoolSystem κ T) : PoolSystem κ T :=
  (s.connecting c.key .Http2).dropConnecting c

/-- `Pool::pooled` at time `now`; the `Connecting` is used up. -/
def pooled (c : Connecting κ) (value : T) (now : ℕ) (s : PoolSystem κ T) : PoolSystem κ T :=
  match Poolable.reserve value with
  | .Shared to_insert to_return =>
    let s := s.put c.key to_insert now
    -- `connected` here, and the handle's reference cleared so that its drop does nothing
    { s with
      inner := s.inner.connected c.key
      connectings := s.connectings.erase c
      pooleds := s.pooleds ++ [⟨to_return, false, c.key, false⟩] }
  | .Unique value =>
    ({ s with pooleds := s.pooleds ++ [⟨value, false, c.key, true⟩] } : PoolSystem κ T).dropConnecting c

/-- `Drop for Pooled`: an open connection with a reference goes back. -/
def dropPooled (p : Pooled κ T) (is_open : Bool) (now : ℕ) (s : PoolSystem κ T) : PoolSystem κ T :=
  let s := { s with pooleds := s.pooleds.erase p }
  if !is_open then s else if p.pool then s.put p.key p.value now else s

/-- `Pool::reuse`. -/
def reuse (key : κ) (value : T) : Pooled κ T := ⟨value, true, key, !Poolable.can_share value⟩

/-- `Future for Checkout` at time `now`: the connection handed out, if any.  A checkout that
completes, with a connection or an error, is gone. -/
def poll (c : Checkout κ) (is_open : T → Bool) (now : ℕ) (s : PoolSystem κ T) :
    Option (Handed T) × PoolSystem κ T :=
  let done := { s with checkouts := s.checkouts.erase c }
  match c.waiter with
  | some rx =>
    match s.channels rx with
    | some value =>
      let done := { done with channels := update s.channels rx none, receivers := s.receivers.erase rx }
      if is_open value then (some (.fromWaiter value), { done with pooleds := done.pooleds ++ [reuse c.key value] })
      else (none, done)
    | none =>
      -- not yet while the sender is queued; canceled once it is dropped
      if ((s.inner.waiters c.key).getD []).contains rx then (none, s)
      else (none, { done with receivers := s.receivers.erase rx })
  | none =>
    match s.inner.checkout is_open now c.key false s.next_tx with
    | (some entry, inner, _) =>
      (some (.fromIdle entry), { done with inner, pooleds := done.pooleds ++ [reuse c.key entry.value] })
    | (none, inner, _) =>
      (none, { done with
        inner
        checkouts := done.checkouts ++ [⟨c.key, some s.next_tx⟩]
        receivers := s.receivers ++ [s.next_tx]
        next_tx := s.next_tx + 1 })

/-- `Drop for Checkout`: the receiver goes, then the waiters are cleaned under the lock. -/
def dropCheckout (c : Checkout κ) (s : PoolSystem κ T) : PoolSystem κ T :=
  let s := { s with checkouts := s.checkouts.erase c }
  match c.waiter with
  | some rx =>
    let receivers := s.receivers.erase rx
    { s with
      receivers
      channels := update s.channels rx none
      inner := s.inner.clean_waiters (fun tx ↦ !receivers.contains tx) c.key }
  | none => s

/-- The idle task's `clear_expired`. -/
def clearExpired (is_open : T → Bool) (now : ℕ) (s : PoolSystem κ T) : Option (PoolSystem κ T) :=
  (s.inner.clear_expired is_open now).map fun inner ↦ { s with inner }

end PoolSystem

/-- What a client may do next. -/
inductive Op (κ T : Type) where
  | connecting (key : κ) (ver : Ver)
  | alpn_h2 (c : Connecting κ)
  | dropConnecting (c : Connecting κ)
  | pooled (c : Connecting κ) (value : T) (now : ℕ)
  | dropPooled (p : Pooled κ T) (is_open : Bool) (now : ℕ)
  | checkout (key : κ)
  | poll (c : Checkout κ) (is_open : T → Bool) (now : ℕ)
  | dropCheckout (c : Checkout κ)
  | clearExpired (is_open : T → Bool) (now : ℕ)

namespace Op

variable {κ T : Type} [DecidableEq κ] [DecidableEq T] [Poolable T]

/-- The system after the operation; `none` for a handle that is not live, or a panic. -/
def apply : Op κ T → PoolSystem κ T → Option (PoolSystem κ T)
  | .connecting key ver, s => some (s.connecting key ver)
  | .alpn_h2 c, s => if c ∈ s.connectings then some (s.alpn_h2 c) else none
  | .dropConnecting c, s => if c ∈ s.connectings then some (s.dropConnecting c) else none
  | .pooled c value now, s => if c ∈ s.connectings then some (s.pooled c value now) else none
  | .dropPooled p is_open now, s => if p ∈ s.pooleds then some (s.dropPooled p is_open now) else none
  | .checkout key, s => some { s with checkouts := s.checkouts ++ [⟨key, none⟩] }
  | .poll c is_open now, s => if c ∈ s.checkouts then some (s.poll c is_open now).2 else none
  | .dropCheckout c, s => if c ∈ s.checkouts then some (s.dropCheckout c) else none
  | .clearExpired is_open now, s => s.clearExpired is_open now

/-- What `Client::connect_to` guarantees: a shared connection is pooled through a `Connecting`
that holds the reference (it came from `Pool::connecting(.., Http2)` or `alpn_h2`). -/
def Allowed : Op κ T → Prop
  | .pooled c value _ => Poolable.can_share value = true → c.pool = true
  | _ => True

end Op

namespace PoolSystem

variable {κ T : Type} [DecidableEq κ] [DecidableEq T] [Poolable T]

/-- A step of a client. -/
def Step (s s' : PoolSystem κ T) : Prop := ∃ op : Op κ T, op.Allowed ∧ op.apply s = some s'

/-- A step of any caller of the pool's operations. -/
def AnyStep (s s' : PoolSystem κ T) : Prop := ∃ op : Op κ T, op.apply s = some s'

/-- How many live `Connecting`s for the key hold the reference. -/
def holders (key : κ) (connectings : List (Connecting κ)) : ℕ :=
  connectings.countP fun c ↦ decide (c.key = key) && c.pool

/-- The representation invariant of the pool. -/
structure Inv (s : PoolSystem κ T) : Prop where
  wellFormed : s.inner.WellFormed
  holders_eq : ∀ key, holders key s.connectings = if s.inner.connecting key then 1 else 0

/-! ## Each step keeps the invariant -/

theorem holders_append (key : κ) (cs : List (Connecting κ)) (c : Connecting κ) :
    holders key (cs ++ [c]) = holders key cs + if decide (c.key = key) && c.pool then 1 else 0 := by
  simp [holders, List.countP_append]

theorem holders_erase (key : κ) {cs : List (Connecting κ)} {c : Connecting κ} (hc : c ∈ cs) :
    holders key (cs.erase c) = holders key cs - if decide (c.key = key) && c.pool then 1 else 0 := by
  simp only [holders, List.countP_erase, hc, true_and]

omit [DecidableEq T] [Poolable T] in
/-- Operations that leave the handles of `Connecting` and the marks alone keep that half. -/
theorem Inv.of_inner {s s' : PoolSystem κ T} (h : s.Inv) (hwf : s'.inner.WellFormed)
    (hc : s'.connectings = s.connectings) (hmark : s'.inner.connecting = s.inner.connecting) : s'.Inv :=
  ⟨hwf, fun key ↦ by rw [hc, hmark]; exact h.holders_eq key⟩

omit [DecidableEq T] in
theorem Inv.put {s : PoolSystem κ T} (h : s.Inv) (key : κ) (value : T) (now : ℕ) : (s.put key value now).Inv :=
  h.of_inner (h.wellFormed.put _ _ _ _) rfl (PoolInner.connecting_put _ _ _ _ _)

omit [DecidableEq T] [Poolable T] in
/-- A new handle: the mark is set exactly when an HTTP/2 attempt holding the reference starts. -/
theorem Inv.connecting {s : PoolSystem κ T} (h : s.Inv) (key : κ) (ver : Ver) : (s.connecting key ver).Inv := by
  unfold PoolSystem.connecting
  split_ifs with hver hfree
  · refine ⟨⟨h.wellFormed.idle_ne, h.wellFormed.idle_le, h.wellFormed.waiters_ne⟩, fun k ↦ ?_⟩
    rw [holders_append, h.holders_eq k]
    by_cases hk : k = key
    · subst hk
      simp at hfree
      simp [hfree]
    · simp [hk, Ne.symm hk]
  · exact h
  · refine ⟨h.wellFormed, fun k ↦ ?_⟩
    rw [holders_append, h.holders_eq k]
    simp

omit [DecidableEq T] [Poolable T] in
/-- Dropping a live handle: its reference, if it holds one, takes the mark with it. -/
theorem Inv.dropConnecting {s : PoolSystem κ T} (h : s.Inv) {c : Connecting κ} (hc : c ∈ s.connectings) :
    (s.dropConnecting c).Inv := by
  unfold PoolSystem.dropConnecting
  split_ifs with hpool
  · refine ⟨h.wellFormed.connected c.key, fun k ↦ ?_⟩
    rw [holders_erase k hc, h.holders_eq k]
    -- the holder of the reference for its key was the one marked
    have hmark : s.inner.connecting c.key = true := by
      have hpos : 0 < holders c.key s.connectings :=
        List.countP_pos_iff.mpr ⟨c, hc, by simp [hpool]⟩
      rw [h.holders_eq] at hpos
      by_contra hne
      simp [hne] at hpos
    by_cases hk : c.key = k
    · subst hk
      simp [PoolInner.connected, hmark, hpool]
    · simp [PoolInner.connected, hk, Ne.symm hk]
  · refine ⟨h.wellFormed, fun k ↦ ?_⟩
    rw [holders_erase k hc, h.holders_eq k]
    simp [hpool]

omit [DecidableEq T] [Poolable T] in
theorem Inv.alpn_h2 {s : PoolSystem κ T} (h : s.Inv) {c : Connecting κ} (hc : c ∈ s.connectings) :
    (s.alpn_h2 c).Inv := by
  have hc' : c ∈ (s.connecting c.key .Http2).connectings := by
    unfold PoolSystem.connecting
    split_ifs <;> simp [hc]
  exact (h.connecting c.key .Http2).dropConnecting hc'

omit [DecidableEq T] in
theorem Inv.pooled [LawfulPoolable T] {s : PoolSystem κ T} (h : s.Inv) {c : Connecting κ}
    (hc : c ∈ s.connectings) (value : T) (now : ℕ) (hallowed : Poolable.can_share value = true → c.pool = true) :
    (s.pooled c value now).Inv := by
  unfold PoolSystem.pooled
  rw [LawfulPoolable.reserve_eq]
  split_ifs with hshare <;> dsimp only
  · -- a shared connection: the put, then `connected` for the handle that held the reference
    have hdrop := (h.put c.key value now).dropConnecting (c := c) hc
    simp only [PoolSystem.dropConnecting, hallowed hshare, if_true] at hdrop
    exact hdrop.of_inner hdrop.wellFormed rfl rfl
  · have h' : ({ s with pooleds := s.pooleds ++ [⟨value, false, c.key, true⟩] } : PoolSystem κ T).Inv :=
      h.of_inner h.wellFormed rfl rfl
    exact h'.dropConnecting hc

theorem Inv.dropPooled {s : PoolSystem κ T} (h : s.Inv) (p : Pooled κ T) (is_open : Bool) (now : ℕ) :
    (s.dropPooled p is_open now).Inv := by
  have h' : ({ s with pooleds := s.pooleds.erase p } : PoolSystem κ T).Inv := h.of_inner h.wellFormed rfl rfl
  unfold PoolSystem.dropPooled
  split_ifs
  · exact h'
  · exact h'.put _ _ _
  · exact h'

omit [DecidableEq T] in
theorem Inv.poll {s : PoolSystem κ T} (h : s.Inv) (c : Checkout κ) (is_open : T → Bool) (now : ℕ) :
    (s.poll c is_open now).2.Inv := by
  unfold PoolSystem.poll
  rcases hw : c.waiter with _ | rx <;> dsimp only
  · -- the checkout: a connection from the idle list, or a new waiter
    have hwf := h.wellFormed.checkout is_open now c.key false s.next_tx
    have hmark := PoolInner.connecting_checkout s.inner is_open now c.key false s.next_tx
    rcases hco : s.inner.checkout is_open now c.key false s.next_tx with ⟨_ | entry, inner, registered⟩ <;>
      rw [hco] at hwf hmark <;> dsimp only <;> exact h.of_inner hwf rfl hmark
  · rcases hch : s.channels rx with _ | value <;> dsimp only <;> split_ifs <;>
      first
        | exact h
        | exact h.of_inner h.wellFormed rfl rfl

omit [DecidableEq T] [Poolable T] in
theorem Inv.dropCheckout {s : PoolSystem κ T} (h : s.Inv) (c : Checkout κ) : (s.dropCheckout c).Inv := by
  unfold PoolSystem.dropCheckout
  rcases c.waiter with _ | rx
  · exact h.of_inner h.wellFormed rfl rfl
  · exact h.of_inner (h.wellFormed.clean_waiters _ _) rfl (PoolInner.connecting_clean_waiters _ _ _)

/-- **Every step of a client keeps the invariant.** -/
theorem Inv.step [LawfulPoolable T] {s s' : PoolSystem κ T} (h : s.Inv) (hstep : Step s s') : s'.Inv := by
  obtain ⟨op, hallowed, happly⟩ := hstep
  -- a guarded operation goes through only on a live handle
  cases op <;> simp only [Op.apply, Option.ite_none_right_eq_some, Option.some.injEq] at happly
  case connecting key ver =>
    subst happly
    exact h.connecting key ver
  case alpn_h2 c =>
    obtain ⟨hc, rfl⟩ := happly
    exact h.alpn_h2 hc
  case dropConnecting c =>
    obtain ⟨hc, rfl⟩ := happly
    exact h.dropConnecting hc
  case pooled c value now =>
    obtain ⟨hc, rfl⟩ := happly
    exact h.pooled hc value now hallowed
  case dropPooled p is_open now =>
    obtain ⟨-, rfl⟩ := happly
    exact h.dropPooled p is_open now
  case checkout key =>
    subst happly
    exact h.of_inner h.wellFormed rfl rfl
  case poll c is_open now =>
    obtain ⟨-, rfl⟩ := happly
    exact h.poll c is_open now
  case dropCheckout c =>
    obtain ⟨-, rfl⟩ := happly
    exact h.dropCheckout c
  case clearExpired is_open now =>
    obtain ⟨inner', hclear, rfl⟩ := Option.map_eq_some_iff.mp happly
    exact h.of_inner (h.wellFormed.clear_expired hclear) rfl (PoolInner.connecting_clear_expired hclear)

omit [DecidableEq T] [Poolable T] in
theorem inv_init {timeout : Option ℕ} {max : ℕ} {inner : PoolInner κ T} (h : PoolInner.new timeout max = some inner) :
    (init inner).Inv := by
  refine ⟨PoolInner.wellFormed_new h, fun key ↦ ?_⟩
  unfold PoolInner.new at h
  split_ifs at h
  obtain rfl := Option.some.inj h
  rfl

omit [DecidableEq T] in
/-- **A checkout hands out only open connections**, and from the idle list only fresh ones. -/
theorem poll_hands_out_open [LawfulPoolable T] (s : PoolSystem κ T) (c : Checkout κ) (is_open : T → Bool)
    (now : ℕ) :
    (∀ value, (s.poll c is_open now).1 = some (.fromWaiter value) → is_open value = true) ∧
    (∀ entry, (s.poll c is_open now).1 = some (.fromIdle entry) →
      is_open entry.value = true ∧ expires s.inner.timeout now entry.idle_at = false) := by
  unfold PoolSystem.poll
  rcases hw : c.waiter with _ | rx <;> dsimp only
  · rcases hco : s.inner.checkout is_open now c.key false s.next_tx with ⟨_ | entry, inner, registered⟩ <;>
      dsimp only
    · simp
    · refine ⟨fun _ hv ↦ by simp at hv, fun entry' he ↦ ?_⟩
      obtain rfl : entry = entry' := by simpa using he
      exact PoolInner.checkout_open (congrArg Prod.fst hco)
  · rcases hch : s.channels rx with _ | value <;> dsimp only
    · split_ifs <;> simp
    · -- a value waiting in the channel is handed out only if it is open
      split_ifs with hopen
      · refine ⟨fun v hv ↦ ?_, fun _ he ↦ by simp at he⟩
        obtain rfl : value = v := by simpa using hv
        exact hopen
      · simp

end PoolSystem

open PoolSystem in
theorem pool_invariant {κ T : Type} [DecidableEq κ] [DecidableEq T] [Poolable T] [LawfulPoolable T]
    {idle_timeout : Option ℕ} {max_idle_per_host : ℕ} {inner : PoolInner κ T} {s : PoolSystem κ T}
    (hnew : PoolInner.new idle_timeout max_idle_per_host = some inner)
    (hrun : Relation.ReflTransGen Step (init inner) s) :
    (∀ key list, s.inner.idle key = some list → list ≠ [] ∧ list.length ≤ s.inner.max_idle_per_host) ∧
    (∀ key waiters, s.inner.waiters key = some waiters → waiters ≠ []) ∧
    (∀ key, s.inner.connecting key = true ↔ holders key s.connectings = 1) ∧
    (∀ (c : Checkout κ) (is_open : T → Bool) (now : ℕ),
      (∀ value, (s.poll c is_open now).1 = some (.fromWaiter value) → is_open value = true) ∧
      (∀ entry, (s.poll c is_open now).1 = some (.fromIdle entry) →
        is_open entry.value = true ∧ expires s.inner.timeout now entry.idle_at = false)) := by
  have hinv : s.Inv := Runs.stable Inv (fun _ _ hstep h ↦ h.step hstep) hrun (inv_init hnew)
  refine ⟨fun key list hk ↦ ⟨hinv.wellFormed.idle_ne key list hk, hinv.wellFormed.idle_le key list hk⟩,
    hinv.wellFormed.waiters_ne, fun key ↦ ?_, poll_hands_out_open s⟩
  rw [hinv.holders_eq key]
  cases s.inner.connecting key <;> simp

/-- The pool `Pool::new` builds with one idle slot per key and no timeout. -/
def enabledPool : PoolInner ℕ PoolClient :=
  ⟨fun _ ↦ false, fun _ ↦ none, 1, fun _ ↦ none, none, Nat.one_pos⟩

theorem pool_invariant_one_attempt :
    ((PoolSystem.init enabledPool).connecting 0 .Http2).inner.connecting 0 = true ↔
      PoolSystem.holders 0 ((PoolSystem.init enabledPool).connecting 0 .Http2).connectings = 1 :=
  (pool_invariant (show PoolInner.new none 1 = some enabledPool from rfl)
    (.single ⟨.connecting 0 .Http2, trivial, rfl⟩)).2.2.1 0

open PoolSystem in
theorem pooled_shared_without_reference :
    PoolInner.new none 1 = some enabledPool ∧
    ∃ s : PoolSystem ℕ PoolClient, Relation.ReflTransGen AnyStep (init enabledPool) s ∧
      s.inner.connecting 0 = false ∧ holders 0 s.connectings = 1 := by
  refine ⟨rfl, _, .tail (.tail (.single ⟨.connecting 0 .Http1, rfl⟩) ⟨.connecting 0 .Http2, rfl⟩)
    ⟨.pooled ⟨0, false⟩ ⟨1, true⟩ 0, rfl⟩, ?_, ?_⟩ <;> decide

end Hyper.Client
