import Hyper.H1.Decode
import Hyper.Lib.Transducer

/-!
# The decoder under any delivery of its input

`decode` reads its body through a reader that may answer `Pending`, cut a read short, or hand
the bytes out in pieces of any size, and the slices it returns depend on those answers.  This
module shows that nothing else does: what the decoder makes of a stream is what one machine makes
of it reading the stream a byte at a time.

`ChunkedState.bytes` is that machine for the chunked coding, a `Transducer` over configurations
`(state, size)`: a byte moves it as the reader of its state would (`ChunkedState.next`), a byte
read in `Body` is data and is passed on, and it halts at `End`.  Where `decode` reads the data of
a chunk in slices, the machine reads it a byte at a time; `ChunkedState.run_body` shows the two
agree.

`Decoder.read_async` is the loop a consumer of the body runs, the test suite's `read_async`: call
`decode` again while it is `Pending`, keep every slice, stop at the empty one.  Over a `Feed`
with any plan:

* `read_async_chunked`: if the machine, run over the feed's bytes, reaches `End` having passed on
  `out` and leaving `rest` unread, then the slices `decode` returns make up `out`, it stops at
  `End` with the machine's size, and the feed is left holding exactly `rest`;
* `read_async_length`: a `Length` decoder returns the first `L` bytes and leaves the others.

Both rest on one induction, `read_async_of_progress`: each call of `decode` is `Pending` having
used up an answer of the plan, or returns the next part of the output having read it, or ends
(`Progress`).  The chunked decoder goes round its loop inside one call for every byte of the
framing, so its `Progress` lemma is itself an induction over the feed (`chunked_progress`).
-/

set_option autoImplicit false

namespace Hyper.H1

open MemRead

/-! ## Reading a `Feed` -/

/-- What a `Feed` has left to give: bytes, and answers of its plan. -/
def Feed.weight (f : Feed) : ℕ := f.data.length + f.plan.length

@[simp]
theorem Feed.read_mem_eq (f : Feed) (len : ℕ) : read_mem f len = f.read_mem len := rfl

/-- **Every answer of a `Feed`** to a read of at least one byte: `Pending`, which uses up an
answer of the plan, or the first `n` bytes of the data, at least one of them while any are
left. -/
theorem Feed.read_mem_cases (f : Feed) {len : ℕ} (hlen : 0 < len) :
    (∃ plan', plan'.length < f.plan.length ∧ f.read_mem len = (.pending, ⟨f.data, plan'⟩)) ∨
    (∃ n plan', n ≤ len ∧ n ≤ f.data.length ∧ (f.data ≠ [] → 0 < n) ∧
      plan'.length ≤ f.plan.length ∧
      f.read_mem len = (.ready (.ok (f.data.take n)), ⟨f.data.drop n, plan'⟩)) := by
  obtain ⟨data, plan⟩ := f
  -- a read gets `min len remaining` bytes, or `min (k + 1) len` of them under `upTo k`
  have hpos : ∀ m, 0 < m → data ≠ [] → 0 < min m data.length := fun m hm hne ↦ by
    have := List.length_pos_iff.mpr hne
    omega
  match plan with
  | [] =>
    refine .inr ⟨min len data.length, [], Nat.min_le_left _ _, Nat.min_le_right _ _,
      hpos len hlen, Nat.le_refl _, ?_⟩
    rw [← List.take_eq_take_min, ← List.drop_eq_drop_min]
    rfl
  | .pending :: plan => exact .inl ⟨plan, by simp, rfl⟩
  | .upTo k :: plan =>
    refine .inr ⟨min (min (k + 1) len) data.length, plan, ?_, Nat.min_le_right _ _,
      hpos _ (by omega), by simp, ?_⟩
    · exact Nat.le_trans (Nat.min_le_left _ _) (Nat.min_le_right _ _)
    · rw [← List.take_eq_take_min, ← List.drop_eq_drop_min]
      rfl

/-! ## The chunked coding, a byte at a time -/

namespace ChunkedState

/-- One byte of the chunked coding, read in the configuration `(state, size)`: in `Body` it is a
byte of data and one fewer is owed; in any other state it goes to that state's reader.  `Body`
with nothing owed is never reached; there `read_body` asks for no bytes, gets none and fails with
`IncompleteBody`. -/
def next : ChunkedState × ℕ → UInt8 → Except IoError (ChunkedState × ℕ)
  | (Body, 0), _ => .error incompleteBody
  | (Body, size + 1), _ => .ok (if size > 0 then Body else BodyCr, size)
  | (st, size), b => (st.onByte size b).1.map fun st' ↦ (st', (st.onByte size b).2)

/-- The chunked coding as a machine that reads a byte at a time: the bytes read in `Body` are its
output, and it halts at `End`. -/
def bytes : Transducer (ChunkedState × ℕ) UInt8 UInt8 IoError where
  next := next
  emit c b := if c.1 = Body then [b] else []
  halted c := c.1 = End

variable {st st' : ChunkedState} {size size' : ℕ} {b : UInt8} {as : List UInt8}

theorem next_byte (hb : st ≠ Body) :
    next (st, size) b = (st.onByte size b).1.map fun st' ↦ (st', (st.onByte size b).2) := by
  cases st <;> first | rfl | contradiction

theorem run_end (as : List UInt8) : bytes.run (End, size) as = .ok ((End, size), [], as) :=
  Transducer.run_halted (by simp [bytes]) as

/-- A byte of the framing that the state's reader accepts moves the machine on and is not
output. -/
theorem run_byte (hb : st ≠ Body) (he : st ≠ End) (h : st.onByte size b = (.ok st', size')) :
    bytes.run (st, size) (b :: as) = bytes.run (st', size') as := by
  have hnext : bytes.next (st, size) b = .ok (st', size') := by
    simp only [bytes, next_byte hb, h]
    rfl
  rw [Transducer.run_cons (by simpa [bytes] using he) hnext]
  simp [bytes, hb]

/-- A byte of the framing that the state's reader rejects stops the machine with its error. -/
theorem run_byte_error {e : IoError} (hb : st ≠ Body) (he : st ≠ End)
    (h : (st.onByte size b).1 = .error e) : bytes.run (st, size) (b :: as) = .error e := by
  have hnext : bytes.next (st, size) b = .error e := by
    simp only [bytes, next_byte hb, h]
    rfl
  exact Transducer.run_cons_error (by simpa [bytes] using he) hnext

/-- Short of `End` and with no input, the machine stops where it is. -/
theorem run_nil_ne_end (he : st ≠ End) {s' : ℕ} {out rest : List UInt8} :
    bytes.run (st, size) [] ≠ .ok ((End, s'), out, rest) := by
  simp [he]

/-- **A slice of data is read as its bytes.**  Reading the first `n` bytes in `Body`, where
`decode` would return them as one slice, passes them on and leaves `size - n` owed, in `Body`
while that is not zero. -/
theorem run_body (data : List UInt8) :
    ∀ {n size : ℕ}, 0 < n → n ≤ size → n ≤ data.length →
      bytes.run (Body, size) (data.take n) =
        .ok ((if size - n > 0 then Body else BodyCr, size - n), data.take n, [])
  | 0, _, hn, _, _ => absurd hn (Nat.lt_irrefl 0)
  | n + 1, 0, _, hle, _ => absurd hle (Nat.not_succ_le_zero n)
  | n + 1, size + 1, _, hle, hd => by
    obtain ⟨b, data', rfl⟩ := List.exists_cons_of_length_pos (Nat.lt_of_lt_of_le n.succ_pos hd)
    have hnext : bytes.next (Body, size + 1) b = .ok (if size > 0 then Body else BodyCr, size) := rfl
    rw [List.take_succ_cons, Transducer.run_cons (by simp [bytes]) hnext]
    cases n with
    | zero => simp [bytes, Transducer.prefixOut]
    | succ n =>
      -- more bytes of the slice follow, so at least one more is owed and the state stays `Body`
      have hsize : size > 0 := by omega
      have hrem : size + 1 - (n + 1 + 1) = size - (n + 1) := Nat.add_sub_add_right size 1 (n + 1)
      rw [if_pos hsize, run_body data' n.succ_pos (by omega) (by simpa using hd), hrem]
      simp [bytes, Transducer.prefixOut]

end ChunkedState

/-! ## The consumer's loop -/

namespace Decoder

variable {R : Type} [MemRead R]

/-- The loop of the test suite's `read_async`, over any reader: `decode` again while it is
`Pending`, keep each slice it returns, and stop at the first empty one, with the slices, the
decoder and the reader as they are then.  `none` if `decode` fails (the test's `expect`) or the
fuel runs out. -/
def read_async (w : ℕ) : ℕ → Decoder → R → Option (List (List UInt8) × Decoder × R)
  | 0, _, _ => none
  | fuel + 1, d, r =>
    match d.decode w r with
    | (.pending, d', r') => read_async w fuel d' r'
    | (.ready (.ok []), d', r') => some ([], d', r')
    | (.ready (.ok buf), d', r') => (read_async w fuel d' r').map fun x ↦ (buf :: x.1, x.2)
    | (.ready (.error _), _, _) => none

/-- Every slice the loop keeps is non-empty: an empty one ends it. -/
theorem read_async_nonempty {w : ℕ} :
    ∀ {fuel : ℕ} {d d' : Decoder} {r r' : R} {ss : List (List UInt8)},
      read_async w fuel d r = some (ss, d', r') → ∀ s ∈ ss, s ≠ []
  | 0, _, _, _, _, _, h => by simp [read_async] at h
  | fuel + 1, d, d', r, r', ss, h => by
    rw [read_async] at h
    rcases hdec : d.decode w r with ⟨⟨e | _ | ⟨b, bs⟩⟩ | _, d'', r''⟩ <;> simp only [hdec] at h
    · cases h
    · -- the empty slice: no slice kept
      obtain ⟨rfl, -⟩ := Prod.mk.inj (Option.some.inj h)
      simp
    · -- a slice: kept in front of the others
      obtain ⟨⟨ss', d''', r'''⟩, hrun, hx⟩ := Option.map_eq_some_iff.mp h
      obtain ⟨rfl, -⟩ := Prod.mk.inj hx
      intro s hs
      rcases List.mem_cons.mp hs with rfl | hs
      · exact List.cons_ne_nil b bs
      · exact read_async_nonempty hrun s hs
    · exact read_async_nonempty h

/-! ## Progress, and the loop it drives to the end -/

section Progress

variable (P : Decoder → Feed → List UInt8 → Prop) (dEnd : Decoder) (rest : List UInt8)

/-- One call of `decode`, with result `x`, makes progress towards returning `out` and stopping at
`dEnd` with `rest` left: it is `Pending`, or returns a non-empty first part of `out`, with the
feed lighter than `n` and `P` owing what is left in both cases; or it returns the empty slice,
stopped where expected. -/
def Progress (n : ℕ) (out : List UInt8) (x : Poll (Except IoError (List UInt8)) × Decoder × Feed) :
    Prop :=
  (x.1 = .pending ∧ x.2.2.weight < n ∧ P x.2.1 x.2.2 out) ∨
  (∃ buf out', buf ≠ [] ∧ x.1 = .ready (.ok buf) ∧ out = buf ++ out' ∧ x.2.2.weight < n ∧
    P x.2.1 x.2.2 out') ∨
  (x.1 = .ready (.ok []) ∧ out = [] ∧ x.2.1 = dEnd ∧ x.2.2.data = rest)

variable {P dEnd rest}

theorem Progress.mono {n m : ℕ} {out : List UInt8} {x : Poll (Except IoError (List UInt8)) × Decoder × Feed}
    (h : Progress P dEnd rest n out x) (hnm : n ≤ m) : Progress P dEnd rest m out x := by
  rcases h with ⟨h1, hlt, hP⟩ | ⟨buf, out', hne, h1, hout, hlt, hP⟩ | h
  · exact .inl ⟨h1, by omega, hP⟩
  · exact .inr (.inl ⟨buf, out', hne, h1, hout, by omega, hP⟩)
  · exact .inr (.inr h)

/-- **The loop runs to the end.**  If every call of `decode` from a state `P` makes progress, the
consumer's loop started in such a state, with more fuel than the feed has left to give, returns
slices that make up what `P` owed, stops at `dEnd` and leaves exactly `rest` unread. -/
theorem read_async_of_progress {w : ℕ}
    (hstep : ∀ d f out, P d f out → Progress P dEnd rest f.weight out (d.decode w f)) :
    ∀ (fuel : ℕ) (d : Decoder) (f : Feed) (out : List UInt8), P d f out → f.weight < fuel →
      ∃ ss plan', d.read_async w fuel f = some (ss, dEnd, ⟨rest, plan'⟩) ∧ ss.flatten = out
  | 0, _, _, _, _, hfuel => absurd hfuel (Nat.not_lt_zero _)
  | fuel + 1, d, f, out, hP, hfuel => by
    have hprog := hstep d f out hP
    generalize hx : d.decode w f = x at hprog
    obtain ⟨res, d', f'⟩ := x
    rcases hprog with ⟨h1, hlt, hP'⟩ | ⟨buf, out', hne, h1, rfl, hlt, hP'⟩ | ⟨h1, rfl, h2, hdata⟩
    · -- `Pending`: the loop polls again
      obtain ⟨ss, plan', hrun, hflat⟩ :=
        read_async_of_progress hstep fuel d' f' out hP' (by simp only at hlt; omega)
      refine ⟨ss, plan', ?_, hflat⟩
      simp only at h1
      rw [read_async, hx, h1]
      exact hrun
    · -- a slice: the loop keeps it and goes on
      obtain ⟨ss, plan', hrun, hflat⟩ :=
        read_async_of_progress hstep fuel d' f' out' hP' (by simp only at hlt; omega)
      refine ⟨buf :: ss, plan', ?_, by rw [List.flatten_cons, hflat]⟩
      simp only at h1
      obtain ⟨b, bs, rfl⟩ := List.exists_cons_of_ne_nil hne
      rw [read_async, hx, h1]
      simp [hrun]
    · -- the empty slice: the loop stops
      simp only at h1 h2 hdata
      refine ⟨[], f'.plan, ?_, rfl⟩
      rw [read_async, hx, h1, h2, ← hdata]

end Progress

/-! ## The chunked decoder -/

/-- A chunked decoder that owes `out`: the machine, run from its configuration over the feed's
bytes, reaches `End` with size `s'`, having passed on `out` and leaving `rest`. -/
def ChunkedOwes (s' : ℕ) (rest : List UInt8) (d : Decoder) (f : Feed) (out : List UInt8) : Prop :=
  ∃ st size, d = ⟨.Chunked st size⟩ ∧
    ChunkedState.bytes.run (st, size) f.data = .ok ((.End, s'), out, rest)

section Chunked

open ChunkedState

variable {w s' : ℕ} {rest : List UInt8}

/-- At `End`, `decode` returns the empty slice and reads nothing. -/
theorem chunked_progress_end {size : ℕ} {f : Feed} {out : List UInt8}
    (hrun : bytes.run (End, size) f.data = .ok ((.End, s'), out, rest)) :
    Progress (ChunkedOwes s' rest) ⟨.Chunked .End s'⟩ rest f.weight out
      (decode w ⟨.Chunked .End size⟩ f) := by
  rw [run_end] at hrun
  obtain ⟨rfl, rfl, rfl⟩ : size = s' ∧ [] = out ∧ f.data = rest := by simpa using hrun
  exact .inr (.inr ⟨rfl, rfl, rfl, rfl⟩)

/-- In `Body`, `decode` returns the slice the feed hands out, never more than is owed. -/
theorem chunked_progress_body (hw : 0 < w) {size : ℕ} {f : Feed} {out : List UInt8}
    (hrun : bytes.run (Body, size) f.data = .ok ((.End, s'), out, rest)) :
    Progress (ChunkedOwes s' rest) ⟨.Chunked .End s'⟩ rest f.weight out
      (decode w ⟨.Chunked .Body size⟩ f) := by
  -- `read_body` asks for at least one byte and at most `size`
  set cap := if size > usize_max w then usize_max w else size with hcap
  have hmax : 0 < usize_max w := by
    have := Nat.one_lt_two_pow (Nat.pos_iff_ne_zero.mp hw)
    simp only [usize_max]
    omega
  have hdata : f.data ≠ [] := by
    intro h
    rw [h] at hrun
    exact run_nil_ne_end (by decide) hrun
  have hsize : 0 < size := by
    obtain ⟨b, bs, hbs⟩ := List.exists_cons_of_ne_nil hdata
    rcases Nat.eq_zero_or_pos size with rfl | h
    · rw [hbs, Transducer.run_cons_error (e := incompleteBody) (by simp [bytes]) rfl] at hrun
      cases hrun
    · exact h
  have hcap_pos : 0 < cap := by rw [hcap]; split <;> omega
  have hcap_le : cap ≤ size := by rw [hcap]; split <;> omega
  rcases f.read_mem_cases hcap_pos with ⟨plan', hplan, hread⟩ | ⟨n, plan', hn, hnd, hpos, hplan, hread⟩
  · -- `Pending`: nothing read, the decoder where it was
    have hstep : (Body.step w f size) = ⟨.pending, size, none, ⟨f.data, plan'⟩⟩ :=
      read_body_pending hread
    refine .inl ⟨?_, ?_, ?_⟩ <;> rw [decode_chunked_pending (by rw [hstep])] <;> simp only [hstep]
    · simp [Feed.weight, hplan]
    · exact ⟨Body, size, rfl, hrun⟩
  · -- a slice of `n` bytes, all of them data
    have hn0 : 0 < n := hpos hdata
    have hlen : (f.data.take n).length = n := List.length_take_of_le hnd
    have hslice : f.data.take n ≠ [] := List.ne_nil_of_length_pos (by omega)
    have hstep : Body.step w f size =
        ⟨.ready (.ok (if size - n > 0 then Body else BodyCr)), size - n, some (f.data.take n),
          ⟨f.data.drop n, plan'⟩⟩ := by
      rw [step_body, read_body_slice hread hslice, hlen]
    have hne : (if size - n > 0 then Body else BodyCr) ≠ End := by split <;> decide
    have hsplit := f.data.take_append_drop n
    rw [← hsplit] at hrun
    obtain ⟨t', out', rest', hrun', heq⟩ :=
      Transducer.run_append_inv (run_body f.data hn0 (by omega) hnd) hrun
    obtain ⟨rfl, rfl, rfl⟩ : t' = (.End, s') ∧ out = f.data.take n ++ out' ∧ rest' = rest := by
      simpa [and_comm, eq_comm] using heq
    refine .inr (.inl ⟨f.data.take n, out', hslice, ?_, rfl, ?_, ?_⟩) <;>
      rw [decode_chunked_slice (by rw [hstep]) hne (by rw [hstep])] <;> simp only [hstep]
    · simp only [Feed.weight, List.length_drop]
      omega
    · exact ⟨_, _, rfl, hrun'⟩

/-- **One call of the chunked `decode` makes progress.**  The induction is over what the feed
has left to give: a byte of the framing that does not end the body sends `decode` round its loop
again, over a lighter feed. -/
theorem chunked_progress (hw : 0 < w) :
    ∀ (f : Feed) (st : ChunkedState) (size : ℕ) (out : List UInt8),
      bytes.run (st, size) f.data = .ok ((.End, s'), out, rest) →
      Progress (ChunkedOwes s' rest) ⟨.Chunked .End s'⟩ rest f.weight out
        (decode w ⟨.Chunked st size⟩ f) := by
  intro f
  induction hwt : f.weight using Nat.strongRecOn generalizing f with
  | ind n ih =>
  intro st size out hrun
  by_cases hb : st = Body
  · subst hb
    exact hwt ▸ chunked_progress_body hw hrun
  by_cases he : st = End
  · subst he
    exact hwt ▸ chunked_progress_end hrun
  have hdata : f.data ≠ [] := by
    intro h
    rw [h] at hrun
    exact run_nil_ne_end he hrun
  rcases f.read_mem_cases Nat.one_pos with ⟨plan', hplan, hread⟩ |
    ⟨m, plan', hm, hmd, hpos, hplan, hread⟩
  · -- `Pending`: the state is kept
    have hstep : st.step w f size = ⟨.pending, size, none, ⟨f.data, plan'⟩⟩ := by
      rw [step_byte hb he, withByte_pending hread]
    refine .inl ⟨?_, ?_, ?_⟩ <;> rw [decode_chunked_pending (by rw [hstep])] <;> simp only [hstep]
    · simp [← hwt, Feed.weight, hplan]
    · exact ⟨st, size, rfl, hrun⟩
  · -- one byte of the framing
    obtain ⟨b, data', hbs⟩ := List.exists_cons_of_ne_nil hdata
    obtain rfl : m = 1 := by have := hpos hdata; omega
    rw [hbs] at hread hrun
    have hstep : st.step w f size =
        ⟨.ready (st.onByte size b).1, (st.onByte size b).2, none, ⟨data', plan'⟩⟩ := by
      rw [step_byte hb he, withByte_byte hread]
      rfl
    have hlight : Feed.weight ⟨data', plan'⟩ < n := by
      simp only [← hwt, Feed.weight, hbs, List.length_cons]
      omega
    rcases hbyte : st.onByte size b with ⟨e | st', size'⟩
    · rw [run_byte_error hb he (by rw [hbyte])] at hrun
      cases hrun
    rw [run_byte hb he hbyte] at hrun
    rw [hbyte] at hstep
    by_cases hend : st' = End
    · -- the byte ends the body
      subst hend
      rw [decode_chunked_end (by rw [hstep])]
      rw [run_end] at hrun
      obtain ⟨rfl, rfl, rfl⟩ : size' = s' ∧ [] = out ∧ data' = rest := by simpa using hrun
      exact .inr (.inr ⟨rfl, rfl, by simp only [hstep], by simp only [hstep]⟩)
    · -- the loop goes round again, over a lighter feed
      rw [decode_chunked_next (by rw [hstep]) hend (by rw [hstep])]
      simp only [hstep]
      exact (ih _ hlight ⟨data', plan'⟩ rfl st' size' out hrun).mono (by omega)

/-- **The chunked decoder under any delivery.**  Whatever the plan of the feed, if the byte
machine reads its bytes to `End` with output `out`, the consumer's loop returns slices that make
up `out`, leaves the decoder at `End` with the machine's size, and leaves exactly the bytes the
machine did not read. -/
theorem read_async_chunked (hw : 0 < w) {f : Feed} {st : ChunkedState} {size : ℕ}
    {out : List UInt8} (hrun : bytes.run (st, size) f.data = .ok ((.End, s'), out, rest))
    {fuel : ℕ} (hfuel : f.weight < fuel) :
    ∃ ss plan', read_async w fuel ⟨.Chunked st size⟩ f = some (ss, ⟨.Chunked .End s'⟩, ⟨rest, plan'⟩) ∧
      ss.flatten = out := by
  refine read_async_of_progress (P := ChunkedOwes s' rest) ?_ fuel _ f out ⟨st, size, rfl, hrun⟩ hfuel
  rintro d f out ⟨st, size, rfl, hrun⟩
  exact chunked_progress hw f st size out hrun

end Chunked

/-! ## The length decoder -/

/-- A length decoder that owes the first `L` bytes of the feed and will leave the rest. -/
def LengthOwes (w : ℕ) (rest : List UInt8) (d : Decoder) (f : Feed) (out : List UInt8) : Prop :=
  ∃ L, d = length L ∧ L < 2 ^ w ∧ L ≤ f.data.length ∧ out = f.data.take L ∧ f.data.drop L = rest

theorem length_progress {w : ℕ} {rest : List UInt8} {d : Decoder} {f : Feed} {out : List UInt8}
    (h : LengthOwes w rest d f out) :
    Progress (LengthOwes w rest) (length 0) rest f.weight out (d.decode w f) := by
  obtain ⟨L, rfl, hw, hL, rfl, rfl⟩ := h
  rcases Nat.eq_zero_or_pos L with rfl | hL0
  · exact .inr (.inr ⟨rfl, by simp, rfl, by simp [decode_length_zero]⟩)
  have hmod : L % 2 ^ w = L := Nat.mod_eq_of_lt hw
  rcases f.read_mem_cases (hmod ▸ hL0) with ⟨plan', hplan, hread⟩ |
    ⟨n, plan', hn, hnd, hpos, hplan, hread⟩
  · -- `Pending`
    rw [decode_length_pending hL0 hread]
    refine .inl ⟨rfl, by simp [Feed.weight, hplan], L, rfl, hw, hL, rfl, rfl⟩
  · -- the first `n` bytes
    have hdata : f.data ≠ [] := by
      intro h
      simp [h] at hL
      omega
    have hn0 : 0 < n := hpos hdata
    rw [hmod] at hn
    have hlen : (f.data.take n).length = n := List.length_take_of_le hnd
    have hslice : f.data.take n ≠ [] := List.ne_nil_of_length_pos (by omega)
    rw [decode_length_slice hL0 hread hslice (by omega), hlen]
    refine .inr (.inl ⟨f.data.take n, (f.data.drop n).take (L - n), hslice, rfl, ?_, ?_,
      L - n, rfl, by omega, by simp; omega, rfl, ?_⟩)
    · -- `L` bytes are the `n` returned and the `L - n` still owed
      rw [← List.take_add]
      congr 1
      omega
    · simp only [Feed.weight, List.length_drop]
      omega
    · simp only [List.drop_drop]
      congr 1
      omega

/-- **The length decoder under any delivery.**  Over a feed of at least `L` bytes, whatever its
plan, the consumer's loop returns slices that make up the first `L` bytes, leaves the decoder at
its end and leaves the other bytes unread. -/
theorem read_async_length {w L : ℕ} (hL : L < 2 ^ w) {f : Feed} (hlen : L ≤ f.data.length)
    {fuel : ℕ} (hfuel : f.weight < fuel) :
    ∃ ss plan', read_async w fuel (length L) f = some (ss, length 0, ⟨f.data.drop L, plan'⟩) ∧
      ss.flatten = f.data.take L :=
  read_async_of_progress (fun _ _ _ h ↦ length_progress h) fuel _ f _
    ⟨L, rfl, hL, hlen, rfl, rfl⟩ hfuel

end Decoder

end Hyper.H1
