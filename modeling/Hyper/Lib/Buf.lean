import Mathlib.Data.List.Basic
import Mathlib.Data.List.Infix

/-!
# Byte buffers read from the front

The `Buf` trait of the `bytes` crate describes a buffer that is consumed from the front: its
`chunk` is the next run of bytes it can hand out in one piece, `advance n` drops `n` bytes from
the front, and `remaining` counts what is left.  A buffer may keep its bytes in several pieces —
a chain of two buffers, a queue of them — so `chunk` is in general only a prefix of what is left.

What a buffer *means* is the sequence of bytes it will yield.  `LawfulBuf` names that sequence
`content` and ties the three operations to it: `remaining` is its length, `chunk` a prefix of it
that is empty only at the end, and `advance` drops bytes from its front.  With those laws,
however a writer consumes a buffer — a whole chunk at a time or any shorter part of one, as a
`write` that accepts fewer bytes does — what it takes out, followed by what is left, is the
content it started with (`Buf.content_eq_taken_append`).  That is the sense in which a buffer
neither loses, duplicates nor reorders bytes, and it is the only fact about consumption the rest of
the development needs.

Three buffers of the `bytes` crate are modelled here by their documented behaviour, each with the
proof that it is lawful: a byte string (`&'static [u8]` and `Bytes`), `Chain`, which yields one
buffer and then another, and `Take`, which yields at most a given number of bytes of another.
`Buf.copyOut` is the loop that copies a buffer's chunks into a vector until it is empty, and
`Buf.copy_to_bytes` the crate's default `copy_to_bytes`, which copies a `Take` of the buffer out.
-/

set_option autoImplicit false

/-- The `bytes` crate's `Buf`. -/
class Buf (B : Type) where
  remaining : B → ℕ
  chunk : B → List UInt8
  advance : B → ℕ → B

/-- The laws that make a `Buf` a faithful view of a byte sequence, its `content`. -/
class LawfulBuf (B : Type) [Buf B] where
  content : B → List UInt8
  remaining_eq (b : B) : Buf.remaining b = (content b).length
  chunk_isPrefix_content (b : B) : Buf.chunk b <+: content b
  chunk_ne_nil (b : B) : content b ≠ [] → Buf.chunk b ≠ []
  content_advance (b : B) (n : ℕ) :
    n ≤ Buf.remaining b → content (Buf.advance b n) = (content b).drop n

namespace Buf

open LawfulBuf

variable {B : Type} [Buf B]

/-- Copy a buffer's chunks out until it yields an empty one, with at most `fuel` copies: the
`loop` of `WriteBuf::buffer` under the `Flatten` strategy. -/
def copyOut : ℕ → B → List UInt8
  | 0, _ => []
  | fuel + 1, b => if chunk b = [] then [] else chunk b ++ copyOut fuel (advance b (chunk b).length)

variable [LawfulBuf B]

theorem chunk_length_le (b : B) : (chunk b).length ≤ remaining b := by
  rw [remaining_eq]
  exact (chunk_isPrefix_content b).length_le

/-- **Reading a buffer from the front loses and reorders nothing.**  If a writer takes `n` bytes
of the current chunk, those bytes followed by the content left after `advance n` are the content
the buffer had. -/
theorem content_eq_taken_append (b : B) {n : ℕ} (hn : n ≤ (chunk b).length) :
    content b = (chunk b).take n ++ content (advance b n) := by
  obtain ⟨rest, hrest⟩ := chunk_isPrefix_content b
  rw [content_advance b n (hn.trans (chunk_length_le b)), ← hrest, List.drop_append_of_le_length hn,
    ← List.append_assoc, List.take_append_drop]

/-- Copying chunks out until the buffer is empty yields its content, given a copy for each of its
bytes. -/
theorem copyOut_eq_content (b : B) {fuel : ℕ} (hfuel : remaining b ≤ fuel) :
    copyOut fuel b = content b := by
  induction fuel generalizing b with
  | zero =>
    rw [remaining_eq, Nat.le_zero, List.length_eq_zero_iff] at hfuel
    rw [copyOut, hfuel]
  | succ fuel ih =>
    rw [copyOut]
    split
    · rename_i hnil
      by_contra hne
      exact chunk_ne_nil b (Ne.symm hne) hnil
    · rename_i hne
      have hpos : 0 < (chunk b).length := List.length_pos_iff.mpr hne
      have hle := chunk_length_le b
      have hadv : remaining (advance b (chunk b).length) ≤ fuel := by
        rw [remaining_eq, content_advance b _ hle, List.length_drop, ← remaining_eq]
        omega
      rw [ih _ hadv, content_eq_taken_append b (le_refl _), List.take_length]

end Buf

/-! ## Byte strings -/

instance : Buf (List UInt8) where
  remaining := List.length
  chunk b := b
  advance b n := b.drop n

instance : LawfulBuf (List UInt8) where
  content b := b
  remaining_eq _ := rfl
  chunk_isPrefix_content b := List.prefix_refl b
  chunk_ne_nil _ h := h
  content_advance _ _ _ := rfl

/-! ## `Chain` -/

/-- `bytes::buf::Chain`: all of `a`, then all of `b`. -/
structure Chain (A C : Type) where
  a : A
  b : C

namespace Chain

variable {A C : Type} [Buf A] [Buf C]

/-- `Chain::advance`: past the rest of `a` first, then into `b`. -/
def advance (x : Chain A C) (n : ℕ) : Chain A C :=
  if Buf.remaining x.a ≠ 0 then
    if n ≤ Buf.remaining x.a then ⟨Buf.advance x.a n, x.b⟩
    else ⟨Buf.advance x.a (Buf.remaining x.a), Buf.advance x.b (n - Buf.remaining x.a)⟩
  else ⟨x.a, Buf.advance x.b n⟩

instance : Buf (Chain A C) where
  remaining x := Buf.remaining x.a + Buf.remaining x.b
  chunk x := if Buf.remaining x.a ≠ 0 then Buf.chunk x.a else Buf.chunk x.b
  advance := advance

variable [LawfulBuf A] [LawfulBuf C]

open LawfulBuf

omit [Buf C] [LawfulBuf C] in
theorem content_a_eq_nil {x : Chain A C} (ha : ¬Buf.remaining x.a ≠ 0) : content x.a = [] := by
  rwa [not_not, remaining_eq, List.length_eq_zero_iff] at ha

theorem content_advance_chain (x : Chain A C) (n : ℕ)
    (hn : n ≤ Buf.remaining x.a + Buf.remaining x.b) :
    content (advance x n).a ++ content (advance x n).b = (content x.a ++ content x.b).drop n := by
  unfold advance
  by_cases ha : Buf.remaining x.a ≠ 0
  · rw [if_pos ha]
    by_cases hle : n ≤ Buf.remaining x.a
    · rw [if_pos hle, content_advance x.a n hle,
        List.drop_append_of_le_length (by rwa [← remaining_eq])]
    · have hall : content (Buf.advance x.a (Buf.remaining x.a)) = [] := by
        rw [content_advance x.a _ (le_refl _), remaining_eq, List.drop_length]
      have hrest : content (Buf.advance x.b (n - Buf.remaining x.a)) =
          (content x.b).drop (n - (content x.a).length) := by
        rw [content_advance x.b _ (by omega), remaining_eq]
      have hnone : (content x.a).drop n = [] :=
        List.drop_eq_nil_of_le (by rw [← remaining_eq]; omega)
      rw [if_neg hle, hall, hrest, List.nil_append, List.drop_append, hnone, List.nil_append]
  · rw [if_neg ha, content_advance x.b n (by omega), content_a_eq_nil ha, List.nil_append,
      List.nil_append]

instance : LawfulBuf (Chain A C) where
  content x := content x.a ++ content x.b
  remaining_eq x := by
    show Buf.remaining x.a + Buf.remaining x.b = _
    rw [remaining_eq, remaining_eq, List.length_append]
  chunk_isPrefix_content x := by
    show (if Buf.remaining x.a ≠ 0 then Buf.chunk x.a else Buf.chunk x.b) <+: _
    split
    · exact (chunk_isPrefix_content x.a).trans (List.prefix_append _ _)
    · rw [content_a_eq_nil ‹_›, List.nil_append]
      exact chunk_isPrefix_content x.b
  chunk_ne_nil x hne := by
    show (if Buf.remaining x.a ≠ 0 then Buf.chunk x.a else Buf.chunk x.b) ≠ []
    split
    · rename_i ha
      rw [remaining_eq, ne_eq, List.length_eq_zero_iff] at ha
      exact chunk_ne_nil x.a ha
    · rename_i ha
      exact chunk_ne_nil x.b (by simpa [content_a_eq_nil ha] using hne)
  content_advance x n hn := content_advance_chain x n hn

end Chain

/-! ## `Take` -/

/-- `bytes::buf::Take`: at most `limit` bytes of `inner`. -/
structure Take (A : Type) where
  inner : A
  limit : ℕ

namespace Take

variable {A : Type} [Buf A]

instance : Buf (Take A) where
  remaining x := min (Buf.remaining x.inner) x.limit
  chunk x := (Buf.chunk x.inner).take x.limit
  advance x n := ⟨Buf.advance x.inner n, x.limit - n⟩

variable [LawfulBuf A]

open LawfulBuf in
instance : LawfulBuf (Take A) where
  content x := (content x.inner).take x.limit
  remaining_eq x := by
    show min (Buf.remaining x.inner) x.limit = _
    rw [remaining_eq, List.length_take, Nat.min_comm]
  chunk_isPrefix_content x := (chunk_isPrefix_content x.inner).take x.limit
  chunk_ne_nil x hne := by
    show (Buf.chunk x.inner).take x.limit ≠ []
    rw [ne_eq, List.take_eq_nil_iff, not_or] at hne ⊢
    exact ⟨hne.1, chunk_ne_nil x.inner hne.2⟩
  content_advance x n hn := by
    change n ≤ min (Buf.remaining x.inner) x.limit at hn
    show (content (Buf.advance x.inner n)).take (x.limit - n) = _
    rw [content_advance x.inner n (le_trans hn (Nat.min_le_left _ _)), List.drop_take]

end Take

/-! ## Buffers lawful on an invariant, and `copy_to_bytes` -/

namespace Buf

variable {B : Type} [Buf B]

/-- The laws of `LawfulBuf` on the states of a buffer that satisfy `P`, a property `advance`
keeps: a queue of buffers is lawful only while none of them is empty. -/
structure LawfulOn (P : B → Prop) (content : B → List UInt8) : Prop where
  remaining_eq : ∀ b, P b → remaining b = (content b).length
  chunk_isPrefix_content : ∀ b, P b → chunk b <+: content b
  chunk_ne_nil : ∀ b, P b → content b ≠ [] → chunk b ≠ []
  content_advance : ∀ b n, P b → n ≤ remaining b → content (advance b n) = (content b).drop n
  advance_mem : ∀ b n, P b → n ≤ remaining b → P (advance b n)

theorem lawfulOn_true [LawfulBuf B] : LawfulOn (fun _ : B ↦ True) LawfulBuf.content where
  remaining_eq b _ := LawfulBuf.remaining_eq b
  chunk_isPrefix_content b _ := LawfulBuf.chunk_isPrefix_content b
  chunk_ne_nil b _ := LawfulBuf.chunk_ne_nil b
  content_advance b n _ := LawfulBuf.content_advance b n
  advance_mem _ _ _ _ := trivial

/-- `BytesMut::put`: the chunks of the source copied out while it has bytes remaining, with at
most `fuel` rounds.  `none` is a loop that has not ended: one whose chunk is empty while bytes
remain never does. -/
def put : ℕ → B → Option (List UInt8 × B)
  | 0, b => if remaining b = 0 then some ([], b) else none
  | fuel + 1, b =>
    if remaining b = 0 then some ([], b)
    else (put fuel (advance b (chunk b).length)).map fun r ↦ (chunk b ++ r.1, r.2)

/-- `Buf::copy_to_bytes` as the `bytes` crate provides it: `self.take(len)` put into a new
buffer, which advances the buffer under the `Take`; a `len` over `remaining` fails its
assertion. -/
def copy_to_bytes (b : B) (len : ℕ) : Option (List UInt8 × B) :=
  if len ≤ remaining b then (put len (Take.mk b len)).map fun r ↦ (r.1, r.2.inner) else none

section LawfulOn

variable {P : B → Prop} {content : B → List UInt8}

/-- The chunk of a `Take` is the front of the content, as long as the chunk and the limit. -/
theorem LawfulOn.take_chunk (hl : LawfulOn P content) {b : B} (hb : P b) (lim : ℕ) :
    (chunk b).take lim = (content b).take ((chunk b).take lim).length :=
  List.prefix_iff_eq_take.mp ((List.take_prefix lim _).trans (hl.chunk_isPrefix_content b hb))

/-- **Putting `take(lim)` copies the first `lim` bytes** and advances the buffer under the
`Take` past them, given `lim` rounds. -/
theorem LawfulOn.put_take (hl : LawfulOn P content) :
    ∀ (fuel : ℕ) (b : B) (lim : ℕ), P b → lim ≤ remaining b → lim ≤ fuel →
      ∃ t, put fuel (Take.mk b lim) = some ((content b).take lim, t) ∧ P t.inner ∧
        content t.inner = (content b).drop lim := by
  intro fuel
  induction fuel with
  | zero =>
    intro b lim hb _ hfuel
    obtain rfl : lim = 0 := Nat.le_zero.mp hfuel
    have hzero : remaining (Take.mk b 0) = 0 := Nat.min_zero _
    exact ⟨_, by rw [put, if_pos hzero]; rfl, hb, List.drop_zero.symm⟩
  | succ fuel ih =>
    intro b lim hb hlim hfuel
    have hrem : remaining (Take.mk b lim) = min (remaining b) lim := rfl
    by_cases hzero : remaining (Take.mk b lim) = 0
    · -- nothing is left under the limit
      obtain rfl : lim = 0 := by omega
      exact ⟨_, by rw [put, if_pos hzero]; rfl, hb, List.drop_zero.symm⟩
    · -- one round copies the chunk under the limit, which is not empty
      have hne : content b ≠ [] := by
        rw [← List.length_pos_iff, ← hl.remaining_eq b hb]
        omega
      have hchunk : chunk (Take.mk b lim) = (chunk b).take lim := rfl
      have hk : 0 < ((chunk b).take lim).length := by
        rw [List.length_pos_iff, ne_eq, List.take_eq_nil_iff, not_or]
        exact ⟨by omega, hl.chunk_ne_nil b hb hne⟩
      have hkle : ((chunk b).take lim).length ≤ remaining b := by
        rw [hl.remaining_eq b hb]
        exact ((hl.chunk_isPrefix_content b hb).take lim).length_le.trans
          (List.length_take_le' lim _)
      have hklim : ((chunk b).take lim).length ≤ lim := List.length_take_le lim _
      set k := ((chunk b).take lim).length with hkdef
      have hadv : advance (Take.mk b lim) k = Take.mk (advance b k) (lim - k) := rfl
      have hcontent := hl.content_advance b k hb hkle
      have hrest : lim - k ≤ remaining (advance b k) := by
        rw [hl.remaining_eq _ (hl.advance_mem b k hb hkle), hcontent, List.length_drop,
          ← hl.remaining_eq b hb]
        omega
      obtain ⟨t, ht, hP, htc⟩ :=
        ih (advance b k) (lim - k) (hl.advance_mem b k hb hkle) hrest (by omega)
      have hsplit : (content b).take lim = (content b).take k ++ ((content b).drop k).take (lim - k) := by
        rw [← List.take_add, Nat.add_sub_cancel' hklim]
      refine ⟨t, ?_, hP, ?_⟩
      · rw [put, if_neg hzero, hchunk, hadv, ht, Option.map_some, hcontent, hl.take_chunk hb lim,
          hsplit]
      · rw [htc, hcontent, List.drop_drop, Nat.add_sub_cancel' hklim]

/-- `copy_to_bytes` takes the first `len` bytes of the content and leaves the rest. -/
theorem LawfulOn.copy_to_bytes (hl : LawfulOn P content) {b : B} (hb : P b) {len : ℕ}
    (hlen : len ≤ remaining b) :
    ∃ b', copy_to_bytes b len = some ((content b).take len, b') ∧ P b' ∧
      content b' = (content b).drop len := by
  obtain ⟨t, ht, hP, htc⟩ := hl.put_take len b len hb hlen le_rfl
  exact ⟨t.inner, by rw [Buf.copy_to_bytes, if_pos hlen, ht, Option.map_some], hP, htc⟩

end LawfulOn

end Buf
