import Mathlib.Data.List.Basic

/-!
# Machines that read a stream one symbol at a time and may stop

A decoder for a self-delimiting format reads its input a symbol at a time, moving from state to
state, passing some of what it reads on as output, and stopping at the end of the message it
decodes, before the input does.  `Transducer` is such a machine, given by three functions: the
next state after a symbol (or the error that rejects it), the output a symbol yields in a state,
and which states are final (`halted`).

`Transducer.run` runs a machine over a list and reports where it stopped, what it output and what
it left unread.  Two facts about it carry every later proof:

* `run_halted` — a halted machine reads nothing, so the input after the end of the message is
  handed back untouched;
* `run_append` — running over `p ++ q` is running over `p` and then over `q`, when the run over
  `p` read all of it.  With it a run over a concatenation of framed pieces is assembled from runs
  over the pieces, and, the other way round, a run over a whole stream is cut at any point
  (`run_append_inv`): that is how a decoder that receives the stream in arbitrary slices is
  compared with one run over the stream.
-/

set_option autoImplicit false

/-- A machine reading symbols of `α`, with states `σ`, output `β` and errors `ε`. -/
structure Transducer (σ α β ε : Type) where
  /-- The state after reading a symbol, or the error that rejects it. -/
  next : σ → α → Except ε σ
  /-- What reading a symbol in a state outputs. -/
  emit : σ → α → List β
  /-- The states in which the machine stops reading. -/
  halted : σ → Bool

namespace Transducer

variable {σ α β ε : Type} (T : Transducer σ α β ε)

/-- A run's result with `o` put in front of its output. -/
def prefixOut (o : List β) : Except ε (σ × List β × List α) → Except ε (σ × List β × List α)
  | .ok r => .ok (r.1, o ++ r.2.1, r.2.2)
  | .error e => .error e

/-- Run the machine from `s` over the input: the state it stops in, its output, and the input it
did not read, which is empty unless it halted. -/
def run : σ → List α → Except ε (σ × List β × List α)
  | s, [] => .ok (s, [], [])
  | s, a :: as =>
    if T.halted s then .ok (s, [], a :: as)
    else
      match T.next s a with
      | .ok s' => prefixOut (T.emit s a) (run s' as)
      | .error e => .error e

section prefixOut

variable {o o' : List β} {x : Except ε (σ × List β × List α)}

@[simp]
theorem prefixOut_nil : prefixOut [] x = x := by
  cases x <;> rfl

@[simp]
theorem prefixOut_prefixOut : prefixOut o (prefixOut o' x) = prefixOut (o ++ o') x := by
  cases x <;> simp [prefixOut]

theorem prefixOut_eq_ok {r : σ × List β × List α} :
    prefixOut o x = .ok r ↔ ∃ t out rest, x = .ok (t, out, rest) ∧ r = (t, o ++ out, rest) := by
  cases x with
  | error e => simp [prefixOut]
  | ok r' =>
    obtain ⟨t, out, rest⟩ := r'
    simp only [prefixOut, Except.ok.injEq]
    exact ⟨fun h ↦ ⟨t, out, rest, rfl, h.symm⟩, fun ⟨_, _, _, h, hr⟩ ↦ by cases h; exact hr.symm⟩

end prefixOut

variable {T} {s t : σ} {a : α} {as p q rest : List α} {o : List β}

@[simp]
theorem run_nil (s : σ) : T.run s [] = .ok (s, [], []) := rfl

/-- **A halted machine reads nothing.** -/
theorem run_halted (h : T.halted s) (as : List α) : T.run s as = .ok (s, [], as) := by
  cases as with
  | nil => rfl
  | cons a as => simp [run, h]

theorem run_cons {s' : σ} (h : ¬T.halted s) (hnext : T.next s a = .ok s') :
    T.run s (a :: as) = prefixOut (T.emit s a) (T.run s' as) := by
  simp [run, h, hnext]

theorem run_cons_error {e : ε} (h : ¬T.halted s) (hnext : T.next s a = .error e) :
    T.run s (a :: as) = .error e := by
  simp [run, h, hnext]

/-- **Running over a concatenation.**  Once the run over `p` has read all of it, the run over
`p ++ q` goes on from where it stopped. -/
theorem run_append (hp : T.run s p = .ok (t, o, [])) (q : List α) :
    T.run s (p ++ q) = prefixOut o (T.run t q) := by
  induction p generalizing s o with
  | nil =>
    obtain ⟨rfl, rfl⟩ : s = t ∧ [] = o := by simpa using hp
    simp
  | cons a p ih =>
    have hs : ¬T.halted s := by
      intro h
      simp [run_halted h] at hp
    cases hnext : T.next s a with
    | error e => simp [run_cons_error hs hnext] at hp
    | ok s' =>
      rw [run_cons hs hnext, prefixOut_eq_ok] at hp
      obtain ⟨t', out, rest, hrun, heq⟩ := hp
      obtain ⟨rfl, rfl, rfl⟩ : t' = t ∧ T.emit s a ++ out = o ∧ rest = [] := by simpa using heq.symm
      rw [List.cons_append, run_cons hs hnext, ih hrun, prefixOut_prefixOut]

/-- A run over `p ++ q` that read all of `p` is made of the run over `p` and a run over `q`. -/
theorem run_append_inv (hp : T.run s p = .ok (t, o, [])) {r : σ × List β × List α}
    (h : T.run s (p ++ q) = .ok r) :
    ∃ t' out rest, T.run t q = .ok (t', out, rest) ∧ r = (t', o ++ out, rest) := by
  rwa [run_append hp, prefixOut_eq_ok] at h

theorem run_append_of_ok {t' : σ} {out : List β} (hp : T.run s p = .ok (t, o, []))
    (hq : T.run t q = .ok (t', out, rest)) : T.run s (p ++ q) = .ok (t', o ++ out, rest) := by
  rw [run_append hp, hq, prefixOut]

end Transducer
