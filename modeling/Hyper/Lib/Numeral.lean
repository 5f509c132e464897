import Mathlib.Data.Nat.Digits.Defs
import Mathlib.Data.Nat.Digits.Lemmas

/-!
# Positional numerals, read one digit at a time

A parser that reads a numeral left to right keeps one accumulator and, at each digit `d`, replaces
it by `acc * b + d`.  `Numeral.value b acc ds` is what that leaves after the digits `ds`;
`Numeral.value_eq_ofDigits` ties it to Mathlib's `Nat.ofDigits`, which reads the digits the other
way round, and `Numeral.value_render` is the round trip with the printer.

Machine parsers cannot let the accumulator grow without bound.  `Numeral.checked b W` is the same
loop with a guard: it gives up on the first digit that would carry the accumulator to the bound
`W` or past it.  Because the accumulator never decreases (`Numeral.le_value`), giving up at some
digit is the same as the whole numeral being worth at least `W`
(`Numeral.checked_eq_some_iff`): a checked parser accepts exactly the numerals below its bound,
however many leading zeros they carry.

`Numeral.render b sym n` prints `n` in base `b` with the digit symbols `sym`, most significant
digit first and with no leading zero, the way `format!("{:X}", n)` and `itoa` do; its digits are
`Numeral.digitList b n`, so a reader of the printed numeral can be followed digit by digit.
-/

set_option autoImplicit false

namespace Numeral

/-! ## The value of a numeral -/

/-- The accumulator a left-to-right reader holds after the digits `ds`, having started from
`acc`. -/
def value (b acc : ℕ) (ds : List ℕ) : ℕ := ds.foldl (fun a d ↦ a * b + d) acc

variable {b : ℕ}

@[simp]
theorem value_nil (acc : ℕ) : value b acc [] = acc := rfl

@[simp]
theorem value_cons (acc d : ℕ) (ds : List ℕ) : value b acc (d :: ds) = value b (acc * b + d) ds :=
  rfl

theorem value_append (acc : ℕ) (ds es : List ℕ) :
    value b acc (ds ++ es) = value b (value b acc ds) es := by
  simp [value, List.foldl_append]

@[simp]
theorem value_concat (acc d : ℕ) (ds : List ℕ) :
    value b acc (ds ++ [d]) = value b acc ds * b + d := by
  rw [value_append]; rfl

/-- Read left to right, a numeral is worth its prefix shifted past the digits, plus the digits
read right to left by `Nat.ofDigits`. -/
theorem value_eq_ofDigits (acc : ℕ) (ds : List ℕ) :
    value b acc ds = acc * b ^ ds.length + Nat.ofDigits b ds.reverse := by
  induction ds using List.reverseRecOn with
  | nil => simp
  | append_singleton ds d ih =>
    rw [value_concat, ih, List.reverse_append, List.reverse_singleton, List.singleton_append,
      Nat.ofDigits_cons, List.length_append, List.length_singleton, pow_succ]
    ring

/-- The accumulator never decreases. -/
theorem le_value (hb : 1 ≤ b) (acc : ℕ) (ds : List ℕ) : acc ≤ value b acc ds := by
  rw [value_eq_ofDigits]
  calc acc = acc * 1 := (mul_one acc).symm
    _ ≤ acc * b ^ ds.length := Nat.mul_le_mul_left _ (Nat.one_le_pow _ _ hb)
    _ ≤ _ := Nat.le_add_right _ _

/-- Reading the digits of `n`, most significant first, gives back `n`. -/
theorem value_digits (n : ℕ) : value b 0 (Nat.digits b n).reverse = n := by
  rw [value_eq_ofDigits, List.reverse_reverse, Nat.ofDigits_digits, zero_mul, zero_add]

/-! ## Reading against a bound -/

/-- The left-to-right reader that stops with `none` at the first digit that would carry the
accumulator to `W` or past it. -/
def checked (b W acc : ℕ) : List ℕ → Option ℕ
  | [] => some acc
  | d :: ds => if acc * b + d < W then checked b W (acc * b + d) ds else none

variable {W : ℕ}

/-- **A checked reader accepts exactly the numerals below its bound.**  The accumulator only
grows, so no digit can overflow without the whole numeral doing so. -/
theorem checked_eq_some_iff (hb : 1 ≤ b) {acc v : ℕ} (hacc : acc < W) (ds : List ℕ) :
    checked b W acc ds = some v ↔ value b acc ds < W ∧ value b acc ds = v := by
  induction ds generalizing acc with
  | nil => simp [checked, hacc]
  | cons d ds ih =>
    rw [checked, value_cons]
    split
    · exact ih ‹_›
    · rename_i hover
      have hle : acc * b + d ≤ value b (acc * b + d) ds := le_value hb _ ds
      simp only [reduceCtorEq, false_iff, not_and]
      intro hlt
      omega

theorem checked_eq_none_iff (hb : 1 ≤ b) {acc : ℕ} (hacc : acc < W) (ds : List ℕ) :
    checked b W acc ds = none ↔ W ≤ value b acc ds := by
  rw [← not_iff_not, ← ne_eq, Option.ne_none_iff_exists', not_le]
  constructor
  · rintro ⟨v, hv⟩
    exact ((checked_eq_some_iff hb hacc ds).mp hv).1
  · intro h
    exact ⟨_, (checked_eq_some_iff hb hacc ds).mpr ⟨h, rfl⟩⟩

/-! ## Printing -/

/-- The digits of `n` in base `b`, most significant first and with no leading zero; zero is the
single digit `0`. -/
def digitList (b n : ℕ) : List ℕ := if n = 0 then [0] else (Nat.digits b n).reverse

/-- The numeral of `n` in base `b`, each digit spelled by `sym`. -/
def render {α : Type} (b : ℕ) (sym : ℕ → α) (n : ℕ) : List α := (digitList b n).map sym

theorem digitList_ne_nil (n : ℕ) : digitList b n ≠ [] := by
  unfold digitList
  split
  · simp
  · simpa using Nat.digits_ne_nil_iff_ne_zero.mpr ‹_›

theorem lt_of_mem_digitList (hb : 1 < b) {n d : ℕ} (hd : d ∈ digitList b n) : d < b := by
  unfold digitList at hd
  split at hd
  · rw [List.mem_singleton.mp hd]
    omega
  · exact Nat.digits_lt_base hb (List.mem_reverse.mp hd)

/-- **Reading the digits of `n` gives back `n`.** -/
@[simp]
theorem value_digitList (n : ℕ) : value b 0 (digitList b n) = n := by
  unfold digitList
  split
  · subst n
    simp
  · exact value_digits n

/-- A number below `b ^ k` has at most `k` digits (and one, for zero). -/
theorem length_digitList_le (hb : 1 < b) {n k : ℕ} (hk : 1 ≤ k) (hn : n < b ^ k) :
    (digitList b n).length ≤ k := by
  unfold digitList
  split
  · simpa using hk
  · rw [List.length_reverse]
    exact (Nat.digits_length_le_iff hb n).mpr hn

theorem render_ne_nil {α : Type} (sym : ℕ → α) (n : ℕ) : render b sym n ≠ [] := by
  simpa [render] using digitList_ne_nil n

/-- **Round trip.**  Reading a rendered numeral back, through any `val` that inverts `sym` on
the digits, gives the number. -/
theorem value_render {α : Type} (hb : 1 < b) {sym : ℕ → α} {val : α → ℕ}
    (hval : ∀ d < b, val (sym d) = d) (n : ℕ) :
    value b 0 ((render b sym n).map val) = n := by
  have hdig : ((digitList b n).map sym).map val = digitList b n := by
    rw [List.map_map, Function.comp_def,
      List.map_congr_left (g := id) fun d hd ↦ hval d (lt_of_mem_digitList hb hd),
      List.map_id]
  rw [render, hdig, value_digitList]

theorem length_render_le {α : Type} (hb : 1 < b) (sym : ℕ → α) {n k : ℕ} (hk : 1 ≤ k)
    (hn : n < b ^ k) : (render b sym n).length ≤ k := by
  rw [render, List.length_map]
  exact length_digitList_le hb hk hn

end Numeral
