import Hyper.H1.Io

/-!
# The adaptive read size (`ReadStrategy::record`)

A connection asks its transport for `read_buf_strategy.next()` bytes at a time.  Under the
`Adaptive` strategy that number follows the reads: a read that fills it doubles it (saturating at
`usize::MAX`, and capped at `max`), and two reads in a row that bring less than the power of two
below it halve it, never below `INIT_BUFFER_SIZE`.

`Sized` is the invariant of the strategy: adaptive, with `INIT_BUFFER_SIZE ≤ next ≤ max` and
`max` a `usize`, and `next` a power of two unless it is `max`.  `Sized.record` shows that one
record keeps it, and `Sized.recordAll` that every sequence of records does; `sized_with_max`
starts it at every `max` that `set_max_buf_size` admits.

Under the invariant `prev_power_of_two` only ever sees a `next` of at least 4, where the source's
shift by `leading_zeros + 2` stays below the word width and computes the model's power of two
(`shift_prev_power_of_two`).  `Sized.record_next_lt` says when a record lowers `next`: only with a
decrease pending and a short read, and `record_eq_pending` that a decrease is pending only right
after a short read at the same `next`.  `Buffered.sized_poll_read_from_io` carries the invariant
through the reads of a connection.
-/

set_option autoImplicit false

namespace Hyper

namespace H1

namespace ReadStrategy

/-- The strategy after the reads `ns`, each recorded in turn. -/
def recordAll (s : ReadStrategy) (ns : List ℕ) : ReadStrategy := ns.foldl record s

@[simp] theorem recordAll_nil (s : ReadStrategy) : s.recordAll [] = s := rfl

@[simp] theorem recordAll_cons (s : ReadStrategy) (n : ℕ) (ns : List ℕ) :
    s.recordAll (n :: ns) = (s.record n).recordAll ns := rfl

@[simp] theorem recordAll_append_singleton (s : ReadStrategy) (ns : List ℕ) (n : ℕ) :
    s.recordAll (ns ++ [n]) = (s.recordAll ns).record n := by
  rw [recordAll, List.foldl_append, List.foldl_cons, List.foldl_nil, recordAll]

/-! ## Growing and shrinking -/

theorem le_incr_power_of_two {n : ℕ} (h : n ≤ usize_max 64) : n ≤ incr_power_of_two n := by
  rw [incr_power_of_two]
  omega

theorem prev_power_of_two_le {n : ℕ} (h : n ≠ 0) : prev_power_of_two n ≤ n :=
  calc prev_power_of_two n = 2 ^ (n.log2 - 1) := rfl
    _ ≤ 2 ^ n.log2 := Nat.pow_le_pow_right (by norm_num) (Nat.sub_le _ _)
    _ ≤ n := Nat.log2_self_le h

/-- The source computes the power of two by a shift of `usize::MAX`; from 4 on, the shift is
below the word width and gives `prev_power_of_two`. -/
theorem shift_prev_power_of_two {n : ℕ} (h4 : 4 ≤ n) (hn : n ≤ usize_max 64) :
    leading_zeros n + 2 < 64 ∧ usize_max 64 >>> (leading_zeros n + 2) + 1 = prev_power_of_two n := by
  have hlog : 2 ≤ n.log2 := (Nat.le_log2 (by omega)).2 h4
  have hlog' : n.log2 < 64 := (Nat.log2_lt (by omega)).2 (by rw [usize_max] at hn; omega)
  have hlz : leading_zeros n = 63 - n.log2 := leading_zeros_of_ne_zero (by omega)
  refine ⟨by omega, ?_⟩
  have hshift : 64 - (63 - n.log2 + 2) = n.log2 - 1 := by omega
  rw [hlz, usize_max_shiftRight (by omega), hshift, usize_max, prev_power_of_two,
    Nat.sub_add_cancel (Nat.two_pow_pos _)]

/-- Growing keeps the shape: a doubled power of two is one, and a saturated or capped value is
`max`. -/
theorem isPowerOfTwo_grow {next max : ℕ} (hpos : 0 < next) (hmax : max ≤ usize_max 64)
    (h : next.isPowerOfTwo ∨ next = max) :
    (min (incr_power_of_two next) max).isPowerOfTwo ∨ min (incr_power_of_two next) max = max := by
  by_cases hcap : incr_power_of_two next ≤ max
  · rw [min_eq_left hcap]
    by_cases hsat : 2 * next ≤ usize_max 64
    · -- doubled below the cap, so `next` was not `max` itself
      have hdouble : incr_power_of_two next = 2 * next := by
        rw [incr_power_of_two]
        omega
      rw [hdouble] at hcap ⊢
      rcases h with ⟨k, rfl⟩ | rfl
      · exact .inl ⟨k + 1, by rw [pow_succ, Nat.mul_comm]⟩
      · omega
    · -- saturated at `usize::MAX`, which the cap cannot be below
      right
      rw [incr_power_of_two] at hcap ⊢
      omega
  · exact .inr (min_eq_right (by omega))

theorem isPowerOfTwo_shrink (n : ℕ) :
    (Nat.max (prev_power_of_two n) INIT_BUFFER_SIZE).isPowerOfTwo := by
  show (Max.max (prev_power_of_two n) INIT_BUFFER_SIZE).isPowerOfTwo
  rcases Nat.le_total (prev_power_of_two n) INIT_BUFFER_SIZE with h | h
  · rw [Nat.max_eq_right h]
    exact ⟨13, rfl⟩
  · rw [Nat.max_eq_left h]
    exact ⟨_, rfl⟩

/-! ## The invariant -/

/-- The invariant of the adaptive strategy: `next` between `INIT_BUFFER_SIZE` and `max`, a power
of two unless it is `max` itself, and `max` a `usize`. -/
structure Sized (s : ReadStrategy) : Prop where
  adaptive : ∃ decrease_now, s = .Adaptive decrease_now s.next s.max
  init_le : INIT_BUFFER_SIZE ≤ s.next
  le_max : s.next ≤ s.max
  max_le : s.max ≤ usize_max 64
  shape : s.next.isPowerOfTwo ∨ s.next = s.max

theorem sized_adaptive {decrease_now : Bool} {next max : ℕ} (hinit : INIT_BUFFER_SIZE ≤ next)
    (hle : next ≤ max) (hmax : max ≤ usize_max 64) (hshape : next.isPowerOfTwo ∨ next = max) :
    (Adaptive decrease_now next max).Sized :=
  ⟨⟨decrease_now, rfl⟩, hinit, hle, hmax, hshape⟩

theorem sized_with_max {max : ℕ} (hmin : MINIMUM_MAX_BUFFER_SIZE ≤ max)
    (hmax : max ≤ usize_max 64) : (with_max max).Sized :=
  sized_adaptive le_rfl hmin hmax (.inl ⟨13, rfl⟩)

theorem sized_default : default.Sized :=
  sized_with_max (by decide) (by rw [usize_max, DEFAULT_MAX_BUFFER_SIZE]; norm_num)

@[simp] theorem max_record (s : ReadStrategy) (n : ℕ) : (s.record n).max = s.max := by
  cases s with
  | Adaptive d next max =>
    simp only [record]
    split_ifs <;> rfl
  | Exact _ => rfl

/-- **One record keeps the invariant**, whichever of its four branches it takes. -/
theorem Sized.record {s : ReadStrategy} (h : s.Sized) (n : ℕ) : (s.record n).Sized := by
  cases s with
  | Exact _ => exact absurd h.adaptive (by simp)
  | Adaptive d next max =>
    have hinit : INIT_BUFFER_SIZE ≤ next := h.init_le
    have hle : next ≤ max := h.le_max
    have hmax : max ≤ usize_max 64 := h.max_le
    have hpos : 0 < next := lt_of_lt_of_le (by decide) hinit
    simp only [ReadStrategy.record]
    split_ifs with hfull hshort hpending
    · -- a full read doubles `next`, saturating, then caps it at `max`
      have hgrow := le_incr_power_of_two (hle.trans hmax)
      exact sized_adaptive (le_min (hinit.trans hgrow) (hinit.trans hle)) (min_le_right _ _) hmax
        (isPowerOfTwo_grow hpos hmax h.shape)
    · -- the second short read in a row halves it, not below `INIT_BUFFER_SIZE`
      have hprev := prev_power_of_two_le hpos.ne'
      exact sized_adaptive (Nat.le_max_right _ _) (Nat.max_le.mpr ⟨by omega, by omega⟩) hmax
        (.inl (isPowerOfTwo_shrink next))
    all_goals exact sized_adaptive hinit hle hmax h.shape

theorem Sized.recordAll {s : ReadStrategy} (h : s.Sized) (ns : List ℕ) : (s.recordAll ns).Sized := by
  induction ns generalizing s with
  | nil => exact h
  | cons n ns ih => exact ih (h.record n)

@[simp] theorem max_recordAll (s : ReadStrategy) (ns : List ℕ) : (s.recordAll ns).max = s.max := by
  induction ns generalizing s with
  | nil => rfl
  | cons n ns ih => rw [recordAll_cons, ih, max_record]

/-! ## When `next` goes down -/

/-- A decrease is pending only right after a short read that found none pending, at the same
`next`. -/
theorem record_eq_pending {s : ReadStrategy} {n next max : ℕ}
    (h : s.record n = .Adaptive true next max) :
    s = .Adaptive false next max ∧ n < prev_power_of_two next := by
  cases s with
  | Exact _ => cases h
  | Adaptive d next' max' =>
    simp only [ReadStrategy.record] at h
    split_ifs at h with hfull hshort hpending
    · cases h
    · cases h
    · cases h
      rw [Bool.not_eq_true] at hpending
      exact ⟨by rw [hpending], hshort⟩
    · cases h

/-- Under the invariant a record lowers `next` only when a decrease is pending and the read is
short: a full read never lowers it. -/
theorem Sized.record_next_lt {s : ReadStrategy} (h : s.Sized) {n : ℕ}
    (hlt : (s.record n).next < s.next) :
    s = .Adaptive true s.next s.max ∧ n < prev_power_of_two s.next := by
  cases s with
  | Exact _ => exact absurd h.adaptive (by simp)
  | Adaptive d next max =>
    have hle : next ≤ max := h.le_max
    have hmax : max ≤ usize_max 64 := h.max_le
    simp only [ReadStrategy.record] at hlt
    split_ifs at hlt with hfull hshort hpending
    · have hgrow := le_incr_power_of_two (hle.trans hmax)
      exact absurd hlt (not_lt.mpr (le_min hgrow hle))
    · exact ⟨by rw [hpending]; rfl, hshort⟩
    · exact absurd hlt (lt_irrefl _)
    · exact absurd hlt (lt_irrefl _)

/-- **The adaptive read size**: from `with_max max`, after any reads, the strategy is adaptive
with the same `max`, `INIT_BUFFER_SIZE ≤ next ≤ max`, and `next` a power of two or `max`; the
shift of `prev_power_of_two` at `next` stays below the word width; and a record lowers `next`
only as the second of two reads in a row below `prev_power_of_two next`, the first of them made
at the same `next` with no decrease pending. -/
theorem with_max_recordAll_sized {max : ℕ} (hmin : INIT_BUFFER_SIZE ≤ max)
    (hmax : max ≤ usize_max 64) (ns : List ℕ) :
    let s := (with_max max).recordAll ns
    (∃ decrease_now, s = .Adaptive decrease_now s.next max) ∧
      INIT_BUFFER_SIZE ≤ s.next ∧ s.next ≤ max ∧ (s.next.isPowerOfTwo ∨ s.next = max) ∧
      (leading_zeros s.next + 2 < 64 ∧
        usize_max 64 >>> (leading_zeros s.next + 2) + 1 = prev_power_of_two s.next) ∧
      ∀ b, (s.record b).next < s.next →
        ∃ pre a, ns = pre ++ [a] ∧ (with_max max).recordAll pre = .Adaptive false s.next max ∧
          a < prev_power_of_two s.next ∧ b < prev_power_of_two s.next := by
  intro s
  have hsdef : s = (with_max max).recordAll ns := rfl
  have hs : s.Sized := (sized_with_max hmin hmax).recordAll ns
  have hsmax : s.max = max := max_recordAll _ ns
  obtain ⟨⟨d, hd⟩, hinit, hle, -, hshape⟩ := id hs
  rw [hsmax] at hd hle hshape
  refine ⟨⟨d, hd⟩, hinit, hle, hshape, shift_prev_power_of_two (le_trans (by decide) hinit)
    (hle.trans hmax), fun b hlt ↦ ?_⟩
  obtain ⟨hpending, hb⟩ := (hs.record_next_lt hlt)
  -- the pending decrease was set by the last read, so there was one
  rcases List.eq_nil_or_concat ns with rfl | ⟨pre, a, rfl⟩
  · rw [hsdef] at hpending
    simp [with_max] at hpending
  · rw [hsmax] at hpending
    have hlast : ((with_max max).recordAll pre).record a = .Adaptive true s.next max := by
      rw [← recordAll_append_singleton, ← List.concat_eq_append]
      exact hpending
    obtain ⟨hpre, ha⟩ := record_eq_pending hlast
    exact ⟨pre, a, List.concat_eq_append .., hpre, ha, hb⟩

/-- A full read, then two empty ones: `next` doubles to 16384 and comes back down to 8192. -/
theorem default_reads_stay_sized :
    INIT_BUFFER_SIZE ≤ ((with_max DEFAULT_MAX_BUFFER_SIZE).recordAll [8192, 0, 0]).next ∧
      ((with_max DEFAULT_MAX_BUFFER_SIZE).recordAll [8192, 0, 0]).next ≤ DEFAULT_MAX_BUFFER_SIZE :=
  have h := @with_max_recordAll_sized DEFAULT_MAX_BUFFER_SIZE (by decide)
    (by rw [usize_max, DEFAULT_MAX_BUFFER_SIZE]; norm_num) [8192, 0, 0]
  ⟨h.2.1, h.2.2.1⟩

example : (with_max DEFAULT_MAX_BUFFER_SIZE).recordAll [8192, 0] =
    .Adaptive true 16384 DEFAULT_MAX_BUFFER_SIZE := by decide

example : (with_max DEFAULT_MAX_BUFFER_SIZE).recordAll [8192, 0, 0] =
    .Adaptive false 8192 DEFAULT_MAX_BUFFER_SIZE := by decide

end ReadStrategy

namespace Buffered

variable {B : Type}

/-- A read of the transport records what it brought, and nothing else changes the strategy. -/
theorem sized_poll_read_from_io {b : Buffered B} (h : b.read_buf_strategy.Sized) :
    b.poll_read_from_io.2.read_buf_strategy.Sized := by
  rw [poll_read_from_io]
  split
  · exact h.record _
  · exact h
  · exact h

theorem sized_set_max_buf_size {b b' : Buffered B} {max : ℕ}
    (h : b.set_max_buf_size max = some b') (hmax : max ≤ usize_max 64) :
    b'.read_buf_strategy.Sized := by
  rw [set_max_buf_size] at h
  split_ifs at h with hmin
  cases h
  exact ReadStrategy.sized_with_max hmin hmax

end Buffered

end H1

end Hyper
