import Mathlib.Logic.Relation

/-!
# Runs of a transition relation

A run is a path of `Relation.ReflTransGen r`.  Two facts about runs carry most invariant proofs
over a state machine: a property that every step keeps holds at the end of every run that starts
where it holds (`Runs.stable`), and a run from a state where a property fails to one where it
holds has a step that crosses from one to the other (`Runs.exists_crossing`), so that what is
known of the steps that can make a property true is known of every run that makes it true.  The
last such step (`Runs.exists_last_entry`) is one after which the property holds all along.
-/

namespace Runs

open Relation

variable {α : Type*} {r : α → α → Prop}

/-- A property that every step keeps holds at the end of every run from where it holds. -/
theorem stable (P : α → Prop) (hstep : ∀ a b, r a b → P a → P b) {a b : α}
    (h : ReflTransGen r a b) (ha : P a) : P b := by
  induction h with
  | refl => exact ha
  | tail _ hbc ih => exact hstep _ _ hbc ih

/-- A run from where `P` fails to where it holds has a step from a state without `P` to one
with it. -/
theorem exists_crossing (P : α → Prop) {a b : α} (h : ReflTransGen r a b) (ha : ¬P a)
    (hb : P b) : ∃ x y, ReflTransGen r a x ∧ r x y ∧ ¬P x ∧ P y ∧ ReflTransGen r y b := by
  induction h with
  | refl => exact absurd hb ha
  | @tail c d hac hcd ih =>
    by_cases hc : P c
    · -- the crossing is before the last step
      obtain ⟨x, y, hax, hxy, hx, hy, hyc⟩ := ih hc
      exact ⟨x, y, hax, hxy, hx, hy, hyc.tail hcd⟩
    · exact ⟨c, d, hac, hcd, hc, hb, .refl⟩

/-- A run from where `P` fails to where it holds has a last step into `P`: after it, every step
stays in `P`. -/
theorem exists_last_entry (P : α → Prop) {a b : α} (h : ReflTransGen r a b) (ha : ¬P a)
    (hb : P b) :
    ∃ x y, ReflTransGen r a x ∧ r x y ∧ ¬P x ∧ P y ∧ ReflTransGen (fun u v ↦ r u v ∧ P v) y b := by
  induction h with
  | refl => exact absurd hb ha
  | @tail c d hac hcd ih =>
    by_cases hc : P c
    · -- the last entry is before the last step, which stays in `P`
      obtain ⟨x, y, hax, hxy, hx, hy, hyc⟩ := ih hc
      exact ⟨x, y, hax, hxy, hx, hy, hyc.tail ⟨hcd, hb⟩⟩
    · exact ⟨c, d, hac, hcd, hc, hb, .refl⟩

end Runs
