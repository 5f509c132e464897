import Hyper.Client.Dispatch
import Hyper.Lib.Runs
import Mathlib.Data.List.Nodup

/-!
# A request is written or handed back, never both

`retryably_send_request` sends a request again when it comes back inside the error
(`Err((err, Some(req)))`): the connection it was given to never started it.  That is safe only if
no request is both handed to the connection and handed back.

What every operation of `Hyper.Client.Dispatch` does to requests fits a `Ledger` of them: the
queued ones in order, those written, those handed back, and the next to be sent.  A request is
sent into the queue or refused at once; the first queued one is taken off (dropped, or handed
back) or written (`Ledger.Step`).  In a ledger no request is in two places and every one it
names was sent (`Ledger.Inv`), and every ledger step keeps that.

Each operation of the dispatch moves its ledger by ledger steps (`step_ledger`): none for those
that only answer callbacks, one for a send or a request taken off the channel, one per queued
request when the task is dropped.  So over every run the dispatch's ledger is consistent, and no
request is ever both written and handed back (`written_never_handed_back`); no request is written
twice, or handed back twice, either.
-/

set_option autoImplicit false

namespace Hyper.Client.Dispatch

open Relation

/-! ## The ledger of requests -/

/-- What has become of requests: those queued, in order, those handed to the connection, those
handed back to their caller, and the next one to be sent. -/
structure Ledger where
  queued : List ℕ
  written : List ℕ
  returned : List ℕ
  next : ℕ

namespace Ledger

/-- How requests move: the next one is sent into the queue, or refused at once and handed back or
not; the first queued one is taken off, handed back or not, or written. -/
inductive Step : Ledger → Ledger → Prop
  | submit (l : Ledger) : Step l ⟨l.queued ++ [l.next], l.written, l.returned, l.next + 1⟩
  | refuse (l : Ledger) (back : Bool) :
      Step l ⟨l.queued, l.written, l.returned ++ (if back then [l.next] else []), l.next + 1⟩
  | take {l : Ledger} {r : ℕ} {rest : List ℕ} (back : Bool) (h : l.queued = r :: rest) :
      Step l ⟨rest, l.written, l.returned ++ (if back then [r] else []), l.next⟩
  | write {l : Ledger} {r : ℕ} {rest : List ℕ} (h : l.queued = r :: rest) :
      Step l ⟨rest, l.written ++ [r], l.returned, l.next⟩

/-- The requests a ledger names, wherever they are. -/
def known (l : Ledger) : List ℕ := l.queued ++ l.written ++ l.returned

/-- No request is in two places, or twice in one, and every request named was sent. -/
structure Inv (l : Ledger) : Prop where
  nodup : l.known.Nodup
  lt_next : ∀ r ∈ l.known, r < l.next

theorem inv_empty : Inv ⟨[], [], [], 0⟩ where
  nodup := List.nodup_nil
  lt_next _ h := absurd h List.not_mem_nil

variable {l l' : Ledger}

/-- A step that only moves the requests named, or sends one it forgets at once. -/
theorem Inv.of_perm (h : l.Inv) (hnext : l.next ≤ l'.next) (hperm : l'.known.Perm l.known) :
    l'.Inv where
  nodup := hperm.nodup_iff.mpr h.nodup
  lt_next r hr := Nat.lt_of_lt_of_le (h.lt_next r (hperm.subset hr)) hnext

/-- A step that names the next request besides. -/
theorem Inv.fresh (h : l.Inv) (hnext : l'.next = l.next + 1)
    (hperm : l'.known.Perm (l.next :: l.known)) : l'.Inv where
  nodup := hperm.nodup_iff.mpr
    (List.nodup_cons.mpr ⟨fun hr ↦ Nat.lt_irrefl _ (h.lt_next _ hr), h.nodup⟩)
  lt_next r hr := by
    rcases List.mem_cons.mp (hperm.subset hr) with rfl | hr
    · omega
    · have := h.lt_next r hr
      omega

/-- A step that forgets a request. -/
theorem Inv.forget {r : ℕ} (h : l.Inv) (hnext : l'.next = l.next) (hk : l.known = r :: l'.known) :
    l'.Inv where
  nodup := (List.nodup_cons.mp (hk ▸ h.nodup)).2
  lt_next r' hr := hnext ▸ h.lt_next r' (hk ▸ List.mem_cons_of_mem r hr)

/-- **Every ledger step keeps the invariant.** -/
theorem Inv.step (h : l.Inv) (hs : Step l l') : l'.Inv := by
  cases hs with
  | submit =>
    refine h.fresh rfl ?_
    simp only [known, List.append_assoc, List.cons_append]
    exact List.perm_middle
  | refuse back =>
    cases back
    · exact h.of_perm (Nat.le_succ _) (by simp [known])
    · refine h.fresh rfl ?_
      simpa only [known, if_true, List.append_assoc] using List.perm_append_singleton l.next l.known
  | @take r rest back hq =>
    cases back
    · exact h.forget rfl (show l.known = r :: _ by simp [known, hq])
    · refine h.of_perm (Nat.le_refl _) ?_
      simpa only [known, hq, if_true, List.append_assoc, List.cons_append] using
        List.perm_append_singleton r (rest ++ (l.written ++ l.returned))
  | @write r rest hq =>
    refine h.of_perm (Nat.le_refl _) ?_
    simpa only [known, hq, List.append_assoc, List.cons_append, List.nil_append] using
      @List.perm_middle _ r (rest ++ l.written) l.returned

/-- The invariant holds at the end of every ledger run from where it holds. -/
theorem Inv.run (h : l.Inv) (hrun : ReflTransGen Step l l') : l'.Inv :=
  Runs.stable Inv (fun _ _ hs hi ↦ hi.step hs) hrun h

theorem Inv.written_nodup (h : l.Inv) : l.written.Nodup :=
  (List.nodup_append.mp (List.nodup_append.mp h.nodup).1).2.1

theorem Inv.returned_nodup (h : l.Inv) : l.returned.Nodup :=
  (List.nodup_append.mp h.nodup).2.1

/-- **No request is both written and handed back.** -/
theorem Inv.written_unreturned (h : l.Inv) {r : ℕ} (hw : r ∈ l.written) : r ∉ l.returned := by
  intro hr
  have hdisj := (List.nodup_append.mp h.nodup).2.2
  exact hdisj r (List.mem_append_right _ hw) r hr rfl

/-- Every queued request goes, first to last, taken off and handed back or not. -/
theorem take_all (ps : List (ℕ × Bool)) (written returned : List ℕ) (next : ℕ) :
    ReflTransGen Step ⟨ps.map Prod.fst, written, returned, next⟩
      ⟨[], written, returned ++ ps.filterMap (fun p ↦ if p.2 then some p.1 else none),
        next⟩ := by
  induction ps generalizing returned with
  | nil => simpa using ReflTransGen.refl
  | cons p ps ih =>
    obtain ⟨r, back⟩ := p
    refine ReflTransGen.head (Step.take back rfl) ?_
    have hback : (if back then [r] else []) ++
          ps.filterMap (fun p ↦ if p.2 then some p.1 else none) =
        ((r, back) :: ps).filterMap (fun p ↦ if p.2 then some p.1 else none) := by
      cases back <;> simp
    simpa only [List.append_assoc, hback] using ih (returned ++ if back then [r] else [])

end Ledger

/-! ## The dispatch refines its ledger -/

/-- Whether an outcome hands its request back (`Err((_, Some(req)))`). -/
def Outcome.handsBack : Outcome → Bool
  | .Err back => back
  | _ => false

/-- The requests the outcomes hand back, in order. -/
def returned (outcomes : List (ℕ × Outcome)) : List ℕ :=
  outcomes.filterMap fun p ↦ if p.2.handsBack then some p.1 else none

@[simp] theorem returned_append (os os' : List (ℕ × Outcome)) :
    returned (os ++ os') = returned os ++ returned os' :=
  List.filterMap_append

@[simp] theorem returned_nil : returned [] = [] := rfl

@[simp] theorem returned_cons (r : ℕ) (o : Outcome) (os : List (ℕ × Outcome)) :
    returned ((r, o) :: os) = (if o.handsBack then [r] else []) ++ returned os := by
  simp only [returned, List.filterMap_cons]
  by_cases h : o.handsBack <;> simp [h]

theorem mem_returned {r : ℕ} {os : List (ℕ × Outcome)} (h : (r, Outcome.Err true) ∈ os) :
    r ∈ returned os :=
  List.mem_filterMap.mpr ⟨_, h, rfl⟩

namespace System

/-- What the dispatch has done with its requests. -/
def ledger (s : System) : Ledger :=
  ⟨s.chan.queue.map (·.req), s.written, returned s.outcomes, s.next⟩

theorem ledger_init : init.ledger = ⟨[], [], [], 0⟩ := rfl

/-! What one operation does to the ledger, in the terms of the fields it reads. -/

variable {s s' : System}

theorem stutter_ledger (hq : s'.chan.queue = s.chan.queue) (hw : s'.written = s.written)
    (ho : returned s'.outcomes = returned s.outcomes) (hn : s'.next = s.next) :
    ReflTransGen Ledger.Step s.ledger s'.ledger := by
  have hl : s'.ledger = s.ledger := by simp only [ledger, hq, hw, ho, hn]
  rw [hl]

theorem submit_ledger {cb : Callback} (hq : s'.chan.queue = s.chan.queue ++ [⟨s.next, cb⟩])
    (hw : s'.written = s.written) (ho : returned s'.outcomes = returned s.outcomes)
    (hn : s'.next = s.next + 1) : Ledger.Step s.ledger s'.ledger := by
  have hl : s'.ledger = ⟨s.ledger.queued ++ [s.ledger.next], s.ledger.written, s.ledger.returned,
      s.ledger.next + 1⟩ := by
    simp only [ledger, hq, hw, ho, hn, List.map_append, List.map_cons, List.map_nil]
  rw [hl]
  exact .submit _

theorem refuse_ledger (back : Bool) (hq : s'.chan.queue = s.chan.queue)
    (hw : s'.written = s.written)
    (ho : returned s'.outcomes = returned s.outcomes ++ if back then [s.next] else [])
    (hn : s'.next = s.next + 1) : Ledger.Step s.ledger s'.ledger := by
  have hl : s'.ledger = ⟨s.ledger.queued, s.ledger.written,
      s.ledger.returned ++ (if back then [s.ledger.next] else []), s.ledger.next + 1⟩ := by
    simp only [ledger, hq, hw, ho, hn]
  rw [hl]
  exact .refuse _ back

variable {env : Envelope} {rest : List Envelope}

theorem take_ledger (back : Bool) (hq : s.chan.queue = env :: rest) (hc : s'.chan.queue = rest)
    (hw : s'.written = s.written)
    (ho : returned s'.outcomes = returned s.outcomes ++ if back then [env.req] else [])
    (hn : s'.next = s.next) : Ledger.Step s.ledger s'.ledger := by
  have hl : s'.ledger = ⟨rest.map (·.req), s.ledger.written,
      s.ledger.returned ++ (if back then [env.req] else []), s.ledger.next⟩ := by
    simp only [ledger, hc, hw, ho, hn]
  rw [hl]
  exact .take back (by simp [ledger, hq])

theorem write_ledger (hq : s.chan.queue = env :: rest) (hc : s'.chan.queue = rest)
    (hw : s'.written = s.written ++ [env.req]) (ho : returned s'.outcomes = returned s.outcomes)
    (hn : s'.next = s.next) : Ledger.Step s.ledger s'.ledger := by
  have hl : s'.ledger =
      ⟨rest.map (·.req), s.ledger.written ++ [env.req], s.ledger.returned, s.ledger.next⟩ := by
    simp only [ledger, hc, hw, ho, hn]
  rw [hl]
  exact .write (by simp [ledger, hq])

/-! Each operation, as ledger steps. -/

variable (s)

/-- A request sent goes into the queue, or is refused at once. -/
theorem try_send_ledger (cb : Callback) : Ledger.Step s.ledger (s.try_send cb).ledger := by
  rw [try_send]
  dsimp only
  rcases hc : s.chan.can_send with ⟨ok, chan⟩
  have hq : chan.queue = s.chan.queue := by
    have h := Chan.queue_can_send s.chan
    rwa [hc] at h
  dsimp only
  cases ok
  · -- `can_send` refuses
    exact refuse_ledger (cb.send (.Err true)).handsBack hq rfl (by simp [deliver]) rfl
  · rcases hs : chan.send ⟨s.next, cb⟩ with _ | chan'
    · -- the receiver closed the channel
      exact refuse_ledger (cb.send (.Err true)).handsBack hq rfl (by simp [deliver]) rfl
    · exact submit_ledger (by rw [← hq]; exact Chan.queue_of_send hs) rfl rfl rfl

theorem unbounded_try_send_ledger : Ledger.Step s.ledger s.unbounded_try_send.ledger := by
  rw [unbounded_try_send]
  dsimp only
  rcases hs : s.chan.send ⟨s.next, .Retry⟩ with _ | chan'
  · exact refuse_ledger true rfl rfl (by simp [deliver, Callback.send, Outcome.handsBack]) rfl
  · exact submit_ledger (Chan.queue_of_send hs) rfl rfl rfl

/-- The HTTP/1 poll drops or writes the request it takes, and changes no request otherwise. -/
theorem poll_msg_ledger : ReflTransGen Ledger.Step s.ledger s.poll_msg.2.ledger := by
  rw [poll_msg]
  rcases hpr : s.chan.poll_recv with ⟨(_ | env) | _, chan⟩
  · exact stutter_ledger (Chan.queue_poll_recv_of_ne hpr (by simp)) rfl rfl rfl
  · have hq := Chan.queue_of_poll_recv hpr
    dsimp only
    split_ifs
    · -- the caller went away: the request is dropped
      exact .single (take_ledger false hq rfl rfl (by simp) rfl)
    · exact .single (write_ledger hq rfl rfl rfl rfl)
  · exact stutter_ledger (Chan.queue_poll_recv_of_ne hpr (by simp)) rfl rfl rfl

/-- The HTTP/2 task drops, answers or writes the request it takes. -/
theorem poll_request_ledger (how : H2Send) :
    ReflTransGen Ledger.Step s.ledger (s.poll_request how).ledger := by
  rw [poll_request]
  rcases hpr : s.chan.poll_recv with ⟨(_ | env) | _, chan⟩
  · exact stutter_ledger (Chan.queue_poll_recv_of_ne hpr (by simp)) rfl rfl rfl
  · have hq := Chan.queue_of_poll_recv hpr
    dsimp only
    split_ifs
    · exact .single (take_ledger false hq rfl rfl (by simp) rfl)
    · cases how with
      | connect_with_body =>
        -- refused before `h2` sees it, and answered without the request
        exact .single (take_ledger false hq rfl rfl (by simp [deliver, Outcome.handsBack]) rfl)
      | send_error =>
        exact .single (write_ledger hq rfl rfl (by simp [deliver, Outcome.handsBack]) rfl)
      | sent => exact .single (write_ledger hq rfl rfl rfl rfl)
  · exact stutter_ledger (Chan.queue_poll_recv_of_ne hpr (by simp)) rfl rfl rfl

/-- A response or an error with a request in flight answers its callback; an error with none
closes the channel and hands the first queued request back, if there is one. -/
theorem recv_msg_ledger (ok : Bool) :
    ReflTransGen Ledger.Step s.ledger (s.recv_msg ok).2.ledger := by
  rw [recv_msg]
  cases ok
  · rw [if_neg Bool.false_ne_true]
    rcases hcb : s.callback with _ | env
    · -- a connection error with no request in flight
      dsimp only
      split_ifs
      · rcases Chan.try_recv_cases s.chan.close with ⟨env, rest, hq, ht⟩ | ⟨hq, ht⟩
        · rw [ht]
          exact .single
            (take_ledger (env.cb.send (.Err true)).handsBack hq rfl rfl (by simp [deliver]) rfl)
        · rw [ht]
          exact stutter_ledger rfl rfl rfl rfl
      · exact .refl
    · exact stutter_ledger rfl rfl (by simp [deliver, Outcome.handsBack]) rfl
  · rw [if_pos rfl]
    rcases hcb : s.callback with _ | env
    · exact .refl
    · exact stutter_ledger rfl rfl (by simp [deliver, Outcome.handsBack]) rfl

theorem send_when_ledger (env : Envelope) (res : Option Bool) :
    ReflTransGen Ledger.Step s.ledger (s.send_when env res).ledger := by
  rcases res with _ | ok
  · exact stutter_ledger rfl rfl rfl rfl
  · cases ok
    all_goals exact stutter_ledger rfl rfl (by simp [send_when, deliver, Outcome.handsBack]) rfl

/-- Dropping every queued envelope answers each callback in turn. -/
theorem foldl_deliver (q : List Envelope) :
    q.foldl (fun s env ↦ s.deliver env (.Err true)) s =
      { s with
        outcomes := s.outcomes ++ q.map fun env ↦ (env.req, env.cb.send (.Err true)) } := by
  induction q generalizing s with
  | nil => simp
  | cons env q ih =>
    rw [List.foldl_cons, ih]
    simp [deliver]

/-- The task going away hands every queued request back, first to last. -/
theorem drop_receiver_ledger : ReflTransGen Ledger.Step s.ledger s.drop_receiver.ledger := by
  let dropped := s.chan.queue.map fun env ↦ (env.req, env.cb.send (.Err true))
  let ps := s.chan.queue.map fun env ↦ (env.req, (env.cb.send (.Err true)).handsBack)
  have hfst : ps.map Prod.fst = s.chan.queue.map (·.req) := by simp [ps, Function.comp_def]
  have hback : ps.filterMap (fun p ↦ if p.2 then some p.1 else none) = returned dropped := by
    simp [ps, dropped, returned, List.filterMap_map]
  have hl : s.drop_receiver.ledger =
      ⟨[], s.written, returned s.outcomes ++ returned dropped, s.next⟩ := by
    rw [drop_receiver]
    -- the callback dropped unsent is `Canceled`, which hands nothing back
    cases s.callback <;> simp [ledger, dropped, foldl_deliver, Outcome.handsBack]
  rw [hl, ← hback]
  have hall := Ledger.take_all ps s.written (returned s.outcomes) s.next
  rwa [hfst] at hall

/-! ## Runs -/

variable {s}

/-- **Every step of the dispatch moves its ledger by ledger steps.** -/
theorem step_ledger (h : Step s s') : ReflTransGen Ledger.Step s.ledger s'.ledger := by
  obtain ⟨op, hop⟩ := h
  cases op <;> simp only [Op.apply, Option.ite_none_right_eq_some, Option.some.injEq] at hop
  case try_send cb =>
    obtain ⟨-, rfl⟩ := hop
    exact .single (s.try_send_ledger cb)
  case unbounded_try_send =>
    obtain ⟨-, rfl⟩ := hop
    exact .single s.unbounded_try_send_ledger
  case drop_senders =>
    subst hop
    exact stutter_ledger rfl rfl rfl rfl
  case cancel req =>
    subst hop
    exact stutter_ledger rfl rfl rfl rfl
  case poll_msg =>
    obtain ⟨-, rfl⟩ := hop
    exact s.poll_msg_ledger
  case recv_msg ok =>
    obtain ⟨-, rfl⟩ := hop
    exact s.recv_msg_ledger ok
  case poll_request how =>
    obtain ⟨-, rfl⟩ := hop
    exact s.poll_request_ledger how
  case send_when env res =>
    obtain ⟨-, rfl⟩ := hop
    exact s.send_when_ledger env res
  case drop_receiver =>
    obtain ⟨-, rfl⟩ := hop
    exact s.drop_receiver_ledger

theorem run_ledger (h : ReflTransGen Step s s') : ReflTransGen Ledger.Step s.ledger s'.ledger := by
  induction h with
  | refl => exact .refl
  | tail _ hs ih => exact ih.trans (step_ledger hs)

/-- Over every run from a new connection, its ledger is consistent. -/
theorem ledger_inv (h : ReflTransGen Step init s) : s.ledger.Inv :=
  Ledger.inv_empty.run (ledger_init ▸ run_ledger h)

theorem written_never_handed_back (hrun : ReflTransGen Step init s) (req : ℕ) :
    ¬ (req ∈ s.written ∧ (req, Outcome.Err true) ∈ s.outcomes) := by
  rintro ⟨hw, ho⟩
  exact (ledger_inv hrun).written_unreturned hw (mem_returned ho)

/-- The run of the test `client_read_bytes_before_writing_request`: a request is queued, and the
connection fails before the dispatcher polls it. -/
def readBeforeWrite : System := ((init.try_send .Retry).recv_msg false).2

theorem handed_back_before_write :
    ReflTransGen Step init readBeforeWrite ∧
      (0, Outcome.Err true) ∈ readBeforeWrite.outcomes ∧
      ¬ (0 ∈ readBeforeWrite.written ∧
        (0, Outcome.Err true) ∈ readBeforeWrite.outcomes) := by
  have hsend : Step init (init.try_send .Retry) := ⟨.try_send .Retry, by decide⟩
  have hfail : Step (init.try_send .Retry) readBeforeWrite := ⟨.recv_msg false, by decide⟩
  have hrun : ReflTransGen Step init readBeforeWrite := (ReflTransGen.single hsend).tail hfail
  exact ⟨hrun, by decide, written_never_handed_back hrun 0⟩

/-- No request is written twice. -/
theorem written_once (h : ReflTransGen Step init s) : s.written.Nodup :=
  (ledger_inv h).written_nodup

/-- No request is handed back twice. -/
theorem handed_back_once (h : ReflTransGen Step init s) : (returned s.outcomes).Nodup :=
  (ledger_inv h).returned_nodup

end System

end Hyper.Client.Dispatch
