import Mathlib

/-!
# What the model takes from Rust's standard library

The pieces of `core` and `std` that every module below uses, under their Rust names:

* `Poll` is `core::task::Poll`.  The waker a `Context` carries never matters to what a function
  computes, so the model has no `Context`; a function that would return `Poll::Pending` simply
  returns `Poll.pending` with its state as it left it.
* `IoError` is `std::io::Error`, reduced to what hyper ever reads back out of one: its
  `ErrorKind` and the message it was built with.
* `usize_max w` is `usize::MAX` on a target whose pointers are `w` bits wide, and
  `checked_mul` and `checked_add` are those methods of `u64`: `none` where the result would not
  fit in 64 bits.  `leading_zeros` is that method of a 64-bit `usize`.
* `ascii` spells a byte-string literal (`b"..."`) of the source as the list of its bytes.  All of
  hyper's literals are ASCII, so the characters are the bytes.

Bytes are `UInt8` and byte strings `List UInt8` throughout; the model never needs a `Vec` or a
`Bytes` to be anything more than the bytes it holds.
-/

set_option autoImplicit false

namespace Hyper

/-- `core::task::Poll`: a result, or "not yet". -/
inductive Poll (α : Type) where
  | ready (a : α)
  | pending
  deriving DecidableEq, Repr

/-- The kinds of `std::io::Error` that hyper raises or inspects. -/
inductive ErrorKind where
  | InvalidInput
  | InvalidData
  | UnexpectedEof
  | WriteZero
  | Other
  deriving DecidableEq, Repr

/-- `std::io::Error`: its kind, and the message it was built with. -/
structure IoError where
  kind : ErrorKind
  msg : String
  deriving DecidableEq, Repr

/-- `usize::MAX` on a target with `w`-bit pointers. -/
def usize_max (w : ℕ) : ℕ := 2 ^ w - 1

/-- Shifting the all-ones word right by `s` leaves `w - s` ones. -/
theorem usize_max_shiftRight {w s : ℕ} (hs : s ≤ w) : usize_max w >>> s = usize_max (w - s) := by
  obtain ⟨a, rfl⟩ : ∃ a, w = a + s := ⟨w - s, by omega⟩
  have ha : 0 < 2 ^ a := Nat.two_pow_pos a
  have hb : 0 < 2 ^ s := Nat.two_pow_pos s
  have hab : 0 < 2 ^ a * 2 ^ s := Nat.mul_pos ha hb
  rw [Nat.shiftRight_eq_div_pow, usize_max, usize_max, Nat.add_sub_cancel, pow_add]
  apply Nat.div_eq_of_lt_le
  · rw [Nat.sub_mul, one_mul]
    omega
  · rw [Nat.sub_add_cancel ha]
    omega

/-- `usize::leading_zeros` on a 64-bit target. -/
def leading_zeros (n : ℕ) : ℕ := if n = 0 then 64 else 63 - Nat.log2 n

theorem leading_zeros_of_ne_zero {n : ℕ} (h : n ≠ 0) : leading_zeros n = 63 - n.log2 := if_neg h

/-- `u64::checked_mul`. -/
def checked_mul (a b : ℕ) : Option ℕ := if a * b < 2 ^ 64 then some (a * b) else none

/-- `u64::checked_add`. -/
def checked_add (a b : ℕ) : Option ℕ := if a + b < 2 ^ 64 then some (a + b) else none

section Checked

variable {a b : ℕ}

theorem checked_mul_of_lt (h : a * b < 2 ^ 64) : checked_mul a b = some (a * b) := if_pos h

theorem checked_mul_of_le (h : 2 ^ 64 ≤ a * b) : checked_mul a b = none := if_neg (by omega)

theorem checked_add_of_lt (h : a + b < 2 ^ 64) : checked_add a b = some (a + b) := if_pos h

theorem checked_add_of_le (h : 2 ^ 64 ≤ a + b) : checked_add a b = none := if_neg (by omega)

end Checked

/-- The bytes of an ASCII string literal. -/
def ascii (s : String) : List UInt8 := s.toList.map fun c ↦ c.toNat.toUInt8

/-- The carriage return `b'\r'`. -/
def CR : UInt8 := 13

/-- The line feed `b'\n'`. -/
def LF : UInt8 := 10

example : ascii "0\r\n\r\n" = [48, CR, LF, CR, LF] := by decide

end Hyper
