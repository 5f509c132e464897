import Mathlib.Data.List.Basic

/-!
# Loops that may fail

A `for` loop whose body may return early with an error is `List.foldlM` in `Except`.  The
induction rule here carries an invariant over the elements processed so far, so a proof about
such a loop states what one iteration keeps (`step`) and gets the whole run from `foldlM_inv`.
`foldlM_sat` also says what the failures are (`Except.Sat`), and `foldlM_agree` runs two such
loops side by side, from related states to alike results (`Except.Agree`).
-/

set_option autoImplicit false

namespace Except

variable {α β ε : Type}

theorem bind_eq_ok {x : Except ε α} {f : α → Except ε β} {b : β} :
    (x >>= f) = .ok b ↔ ∃ a, x = .ok a ∧ f a = .ok b := by
  cases x <;> simp [bind, Except.bind]

theorem mapError_eq_ok {ε' : Type} {x : Except ε α} {f : ε → ε'} {a : α} :
    x.mapError f = .ok a ↔ x = .ok a := by
  cases x <;> simp [Except.mapError]

theorem exists_of_mapError_eq_error {ε' : Type} {x : Except ε α} {f : ε → ε'} {e' : ε'}
    (h : x.mapError f = .error e') : ∃ e, x = .error e := by
  cases x with
  | error e => exact ⟨e, rfl⟩
  | ok a => simp [Except.mapError] at h

/-- `r` is a success that `I` describes or a failure that `E` describes. -/
def Sat (I : α → Prop) (E : ε → Prop) : Except ε α → Prop
  | .ok a => I a
  | .error e => E e

@[simp] theorem sat_ok {I : α → Prop} {E : ε → Prop} {a : α} :
    (Except.ok a : Except ε α).Sat I E ↔ I a := Iff.rfl

@[simp] theorem sat_error {I : α → Prop} {E : ε → Prop} {e : ε} :
    (Except.error e : Except ε α).Sat I E ↔ E e := Iff.rfl

theorem Sat.imp {I I' : α → Prop} {E E' : ε → Prop} {r : Except ε α} (h : r.Sat I E)
    (hI : ∀ a, I a → I' a) (hE : ∀ e, E e → E' e) : r.Sat I' E' := by
  cases r with
  | error e => exact hE e h
  | ok a => exact hI a h

/-- Two results alike: two successes that `R` relates, or two failures that `E` relates. -/
def Agree {α' ε' : Type} (R : α → α' → Prop) (E : ε → ε' → Prop) :
    Except ε α → Except ε' α' → Prop
  | .ok a, .ok a' => R a a'
  | .error e, .error e' => E e e'
  | _, _ => False

@[simp] theorem agree_ok_ok {α' ε' : Type} {R : α → α' → Prop} {E : ε → ε' → Prop} {a : α}
    {a' : α'} : Agree R E (.ok a) (.ok a') ↔ R a a' := Iff.rfl

@[simp] theorem agree_error_error {α' ε' : Type} {R : α → α' → Prop} {E : ε → ε' → Prop} {e : ε}
    {e' : ε'} : Agree R E (.error e : Except ε α) (.error e' : Except ε' α') ↔ E e e' := Iff.rfl

theorem Agree.imp {α' ε' : Type} {R R' : α → α' → Prop} {E E' : ε → ε' → Prop}
    {r : Except ε α} {r' : Except ε' α'} (h : Agree R E r r') (hR : ∀ a a', R a a' → R' a a')
    (hE : ∀ e e', E e e' → E' e e') : Agree R' E' r r' := by
  cases r <;> cases r'
  · exact hE _ _ h
  · exact h.elim
  · exact h.elim
  · exact hR _ _ h

end Except

namespace List

variable {α β ε : Type} {l : List α}

/-- **Invariant rule for a failing fold**: an invariant of the processed prefix that every
successful iteration keeps holds of the whole list when the fold succeeds. -/
theorem foldlM_inv {f : β → α → Except ε β} (I : List α → β → Prop)
    (step : ∀ pre a b b', I pre b → f b a = .ok b' → I (pre ++ [a]) b') :
    ∀ (l pre : List α) {b r : β}, I pre b → l.foldlM f b = .ok r → I (pre ++ l) r
  | [], pre, b, r, hb, h => by
    cases h
    simpa using hb
  | a :: l, pre, b, r, hb, h => by
    rw [List.foldlM_cons, Except.bind_eq_ok] at h
    obtain ⟨b', h1, h2⟩ := h
    simpa using foldlM_inv I step l (pre ++ [a]) (step pre a b b' hb h1) h2

/-- **Invariant rule for a failing fold, failures included**: if an iteration from a state that
`I` describes ends in such a state or in a failure that `E` describes, so does the fold. -/
theorem foldlM_sat {f : β → α → Except ε β} (I : β → Prop) (E : ε → Prop)
    (step : ∀ a b, I b → (f b a).Sat I E) : ∀ (l : List α) {b : β}, I b → (l.foldlM f b).Sat I E
  | [], _, hb => hb
  | a :: l, b, hb => by
    rw [List.foldlM_cons]
    have h := step a b hb
    cases hf : f b a with
    | error e =>
      rw [hf] at h
      exact h
    | ok b' =>
      rw [hf] at h
      exact foldlM_sat I E step l h

/-- **Simulation rule for two failing folds over one list**: if iterations from related states,
at each place of the list, give alike results, the two folds do. -/
theorem foldlM_agree {β' ε' : Type} {f : β → α → Except ε β} {g : β' → α → Except ε' β'}
    (l : List α) (R : List α → β → β' → Prop) (E : ε → ε' → Prop)
    (step : ∀ pre a rest b c, pre ++ a :: rest = l → R pre b c →
      Except.Agree (R (pre ++ [a])) E (f b a) (g c a))
    {b : β} {c : β'} (hinit : R [] b c) :
    Except.Agree (R l) E (l.foldlM f b) (l.foldlM g c) := by
  -- the two folds over what is left, from any point of the list
  suffices h : ∀ (todo pre : List α) (b : β) (c : β'), pre ++ todo = l → R pre b c →
      Except.Agree (R l) E (todo.foldlM f b) (todo.foldlM g c) from h l [] b c rfl hinit
  intro todo
  induction todo with
  | nil =>
    intro pre b c hl hR
    rw [List.append_nil] at hl
    subst hl
    exact hR
  | cons a todo ih =>
    intro pre b c hl hR
    have hstep := step pre a todo b c hl hR
    rw [List.foldlM_cons, List.foldlM_cons]
    cases hf : f b a <;> cases hg : g c a <;> rw [hf, hg] at hstep
    · exact hstep
    · exact hstep.elim
    · exact hstep.elim
    · exact ih (pre ++ [a]) _ _ (by simp [← hl]) hstep

/-- A fold whose every iteration succeeds succeeds. -/
theorem foldlM_ok {f : β → α → Except ε β} (hf : ∀ b, ∀ a ∈ l, ∃ b', f b a = .ok b') :
    ∀ (b : β), ∃ r, l.foldlM f b = .ok r := by
  induction l with
  | nil => exact fun b ↦ ⟨b, rfl⟩
  | cons a l ih =>
    intro b
    obtain ⟨b', hb'⟩ := hf b a mem_cons_self
    obtain ⟨r, hr⟩ := ih (fun b a ha ↦ hf b a (mem_cons_of_mem _ ha)) b'
    exact ⟨r, by rw [List.foldlM_cons, hb']; exact hr⟩

end List
