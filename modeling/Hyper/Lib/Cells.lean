import Mathlib.Data.List.Basic

/-!
# Lists as arenas

A list whose cells are named by their index, as the objects of an arena are: a cell is changed
by `set` or `modify` and a new one added by appending it, and every other cell keeps its name and
its value.  The lemmas here say what a lookup finds after each of the three, in the form an
invariant over all cells is proved in: the cell that changed, or one that was there before.
-/

set_option autoImplicit false

namespace List

variable {α : Type*}

/-- A cell after `set` is the new value at its index, or the cell that was there. -/
theorem getElem?_set_eq_some {l : List α} {i j : ℕ} {a x : α} (h : (l.set i a)[j]? = some x) :
    (i = j ∧ x = a) ∨ (i ≠ j ∧ l[j]? = some x) := by
  rw [getElem?_set] at h
  split_ifs at h with hij
  · exact .inl ⟨hij, (Option.some.inj h).symm⟩
  · exact .inr ⟨hij, h⟩

/-- Setting a cell to the value it has changes nothing. -/
theorem set_eq_self {l : List α} {i : ℕ} {a : α} (h : l[i]? = some a) : l.set i a = l := by
  obtain ⟨hi, rfl⟩ := getElem?_eq_some_iff.mp h
  exact set_getElem_self hi

/-- A cell after `modify` is the changed one at its index, or the cell that was there. -/
theorem getElem?_modify_eq_some {l : List α} {f : α → α} {i j : ℕ} {x : α}
    (h : (l.modify i f)[j]? = some x) : ∃ y, l[j]? = some y ∧ x = if i = j then f y else y := by
  rw [getElem?_modify] at h
  rcases hj : l[j]? with _ | y <;> rw [hj] at h
  · cases h
  · exact ⟨y, rfl, (Option.some.inj h).symm⟩

/-- A cell after appending one is the new one at the end, or a cell that was there. -/
theorem getElem?_concat_eq_some {l : List α} {a x : α} {j : ℕ} (h : (l ++ [a])[j]? = some x) :
    (j < l.length ∧ l[j]? = some x) ∨ (j = l.length ∧ x = a) := by
  rcases Nat.lt_or_ge j l.length with hj | hj
  · rw [getElem?_append_left hj] at h
    exact .inl ⟨hj, h⟩
  · rw [getElem?_append_right hj] at h
    rcases Nat.eq_or_lt_of_le hj with rfl | hlt
    · exact .inr ⟨rfl, by simpa using h.symm⟩
    · rw [getElem?_eq_none (by simp; omega)] at h
      cases h

end List
