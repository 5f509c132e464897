import Hyper.H1.Io

/-!
# The two write strategies hand out the same bytes (`WriteBuf`, `BufList`)

A connection's `WriteBuf` collects a head in its cursor and bodies either copied into the cursor
(`Flatten`) or queued as they are (`Queue`), and a flush writes out a prefix of what it offers and
advances past it.  Here a write buffer is driven by any sequence of `WriteOp`s, each under the
guard the source asserts: bytes written into the cursor only while nothing is queued, a buffer
appended only with bytes in it, and no more written out than remains.  A `Stream` keeps, beside
the buffer, the bytes put in and the bytes written out, in order.

`Stream.Inv` says that what was written out, followed by what the buffer still holds, is what was
put in; `Stream.Inv.step` shows that every operation keeps it, for either strategy and whatever
`maybe_unshift` does.  `Agree` relates a `Flatten` stream to a `Queue` stream with the same bytes
in and out, and `Agree.step` shows that a `Flatten` buffer can follow every step of a `Queue` one,
so that over a whole run (`Agree.run`) the two strategies write out the same bytes.

`write_buf_strategies` gathers this with the facts about the pieces that `H1/Io.lean` proves:
`maybe_unshift` hands out what it did, `BufList::advance` drops what it passes, and
`BufList::copy_to_bytes` takes the next bytes and leaves the rest (`BufList.copy_to_bytes_spec`).
-/

set_option autoImplicit false

namespace Hyper

namespace H1

namespace WriteBuf

variable {B : Type} [Buf B] [LawfulBuf B]

/-- Advancing the write buffer advances its queue, which keeps it free of empty buffers. -/
theorem nonemptyBufs_advance {wb : WriteBuf B} (hq : wb.queue.NonemptyBufs) (n : ℕ) :
    (Buf.advance wb n : WriteBuf B).queue.NonemptyBufs := by
  rw [advance_def]
  split_ifs
  · exact hq
  · exact hq
  · exact BufList.nonemptyBufs_advanceBufs _ _ hq

theorem nonemptyBufs_buffer {wb : WriteBuf B} (hq : wb.queue.NonemptyBufs) {buf : B}
    (hbuf : LawfulBuf.content buf ≠ []) : (wb.buffer buf).queue.NonemptyBufs := by
  rw [buffer]
  split
  · exact hq
  · intro b hb
    rcases List.mem_append.mp hb with hb | hb
    · exact hq b hb
    · rw [List.mem_singleton.mp hb]
      exact hbuf

end WriteBuf

variable {B : Type} [Buf B]

/-- What is done to a write buffer: bytes written into the cursor (`headers_mut().bytes`), a
buffer appended (`WriteBuf::buffer`, with the spare capacity of the cursor's vector that decides
`maybe_unshift`), or `n` bytes written out of what `chunks_vectored` offered, then `advance`. -/
inductive WriteOp (B : Type) where
  | headers (bs : List UInt8)
  | buffer (buf : B) (spare : ℕ)
  | advance (n : ℕ)

/-- A write buffer, with the bytes put into it and the bytes written out of it, in order. -/
structure Stream (B : Type) where
  wb : WriteBuf B
  written : List UInt8
  sent : List UInt8

namespace Stream

/-- A new write buffer, with nothing put in or written out. -/
def new (strategy : WriteStrategy) : Stream B := ⟨WriteBuf.new strategy, [], []⟩

variable [LawfulBuf B]

/-- One operation, under the guard the source asserts: the cursor is written only while nothing
is queued (`headers_mut`), a buffer appended only with bytes in it (`buffer`), and no more written
out than remains. -/
def step : WriteOp B → Stream B → Option (Stream B)
  | .headers bs, s =>
    if Buf.remaining s.wb.queue = 0 then some ⟨s.wb.extend_headers bs, s.written ++ bs, s.sent⟩
    else none
  | .buffer buf spare, s =>
    if Buf.remaining buf ≠ 0 then
      some ⟨(s.wb.unshiftFor buf spare).buffer buf, s.written ++ LawfulBuf.content buf, s.sent⟩
    else none
  | .advance n, s =>
    if n ≤ Buf.remaining s.wb then
      some ⟨Buf.advance s.wb n, s.written, s.sent ++ s.wb.content.take n⟩
    else none

/-- The operations `ops` in order; `none` when one of them fails its guard. -/
def run (s : Stream B) : List (WriteOp B) → Option (Stream B)
  | [] => some s
  | op :: ops => (step op s).bind fun s' ↦ s'.run ops

theorem run_cons (s : Stream B) (op : WriteOp B) (ops : List (WriteOp B)) :
    s.run (op :: ops) = (step op s).bind fun s' ↦ s'.run ops := rfl

/-- What one operation can do, guard included. -/
theorem step_cases {op : WriteOp B} {s s' : Stream B} (h : step op s = some s') :
    (∃ bs, op = .headers bs ∧ Buf.remaining s.wb.queue = 0 ∧
        s' = ⟨s.wb.extend_headers bs, s.written ++ bs, s.sent⟩) ∨
      (∃ buf spare, op = .buffer buf spare ∧ Buf.remaining buf ≠ 0 ∧
        s' = ⟨(s.wb.unshiftFor buf spare).buffer buf, s.written ++ LawfulBuf.content buf, s.sent⟩) ∨
      (∃ n, op = .advance n ∧ n ≤ Buf.remaining s.wb ∧
        s' = ⟨Buf.advance s.wb n, s.written, s.sent ++ s.wb.content.take n⟩) := by
  cases op with
  | headers bs =>
    simp only [step, Option.ite_none_right_eq_some, Option.some.injEq] at h
    exact .inl ⟨bs, rfl, h.1, h.2.symm⟩
  | buffer buf spare =>
    simp only [step, Option.ite_none_right_eq_some, Option.some.injEq] at h
    exact .inr (.inl ⟨buf, spare, rfl, h.1, h.2.symm⟩)
  | advance n =>
    simp only [step, Option.ite_none_right_eq_some, Option.some.injEq] at h
    exact .inr (.inr ⟨n, rfl, h.1, h.2.symm⟩)

theorem strategy_step {op : WriteOp B} {s s' : Stream B} (h : step op s = some s') :
    s'.wb.strategy = s.wb.strategy := by
  rcases step_cases h with ⟨bs, -, -, rfl⟩ | ⟨buf, spare, -, -, rfl⟩ | ⟨n, -, -, rfl⟩
  · exact WriteBuf.strategy_extend_headers _ _
  · rw [WriteBuf.strategy_buffer, WriteBuf.strategy_unshiftFor]
  · exact WriteBuf.strategy_advance _ _

/-! ## The bytes in and out -/

/-- The invariant of a stream: a well-formed buffer whose queue has no empty buffer, and the bytes
written out followed by those the buffer still holds are the bytes put in. -/
structure Inv (s : Stream B) : Prop where
  wellFormed : s.wb.WellFormed
  nonempty : s.wb.queue.NonemptyBufs
  stream : s.sent ++ s.wb.content = s.written

theorem inv_new (strategy : WriteStrategy) : (new strategy : Stream B).Inv :=
  ⟨WriteBuf.wellFormed_new strategy, fun _ hb ↦ absurd hb List.not_mem_nil, rfl⟩

/-- `remaining` counts the bytes put in and not yet written out. -/
theorem Inv.remaining_eq {s : Stream B} (h : s.Inv) :
    Buf.remaining s.wb = s.written.length - s.sent.length := by
  rw [WriteBuf.remaining_eq, ← h.stream, List.length_append]
  omega

/-- **Every operation keeps the invariant**: writing into the cursor while nothing is queued and
appending a buffer add at the end, unshifting moves nothing, and a write takes from the front. -/
theorem Inv.step {op : WriteOp B} {s s' : Stream B} (h : s.Inv) (hs : step op s = some s') :
    s'.Inv := by
  rcases step_cases hs with ⟨bs, -, hq, rfl⟩ | ⟨buf, spare, -, hbuf, rfl⟩ | ⟨n, -, hn, rfl⟩
  · -- the queue is empty, so the new bytes follow the cursor's at the end
    have hqnil : s.wb.queue.content = [] := by
      rwa [← List.length_eq_zero_iff, ← BufList.remaining_eq]
    refine ⟨WriteBuf.wellFormed_extend_headers h.wellFormed bs, h.nonempty, ?_⟩
    rw [WriteBuf.content_extend_headers h.wellFormed, hqnil, ← h.stream, WriteBuf.content, hqnil]
    simp only [List.append_nil, List.append_assoc]
  · have hne : LawfulBuf.content buf ≠ [] := by
      rwa [ne_eq, ← List.length_eq_zero_iff, ← LawfulBuf.remaining_eq]
    have hwf := WriteBuf.wellFormed_unshiftFor h.wellFormed buf spare
    refine ⟨WriteBuf.wellFormed_buffer hwf buf, ?_, ?_⟩
    · exact WriteBuf.nonemptyBufs_buffer (by rw [WriteBuf.queue_unshiftFor]; exact h.nonempty) hne
    · rw [WriteBuf.content_buffer hwf, WriteBuf.content_unshiftFor, ← h.stream, List.append_assoc]
  · refine ⟨WriteBuf.wellFormed_advance h.wellFormed n, WriteBuf.nonemptyBufs_advance h.nonempty n,
      ?_⟩
    rw [WriteBuf.content_advance _ hn, List.append_assoc, List.take_append_drop, h.stream]

theorem Inv.run {s s' : Stream B} (h : s.Inv) (ops : List (WriteOp B)) (hrun : s.run ops = some s') :
    s'.Inv := by
  induction ops generalizing s with
  | nil =>
    cases hrun
    exact h
  | cons op ops ih =>
    rw [run_cons, Option.bind_eq_some_iff] at hrun
    obtain ⟨s₁, hs₁, hrest⟩ := hrun
    exact ih (h.step hs₁) hrest

/-- A writer that takes `k` bytes of the chunk takes the first `k` bytes still to be written. -/
theorem take_chunk_eq (wb : WriteBuf B) {k : ℕ} (hk : k ≤ (Buf.chunk wb).length) :
    (Buf.chunk wb).take k = wb.content.take k := by
  obtain ⟨rest, hrest⟩ := wb.chunk_isPrefix_content
  rw [← hrest, List.take_append_of_le_length hk]

/-! ## `Flatten` follows `Queue` -/

/-- A `Flatten` stream and a `Queue` stream with the same bytes put in and written out. -/
structure Agree (f q : Stream B) : Prop where
  written : f.written = q.written
  sent : f.sent = q.sent
  flatten : f.wb.strategy = .Flatten
  queue : q.wb.strategy = .Queue

/-- Two streams with the invariant and the same bytes in and out hold the same bytes. -/
theorem Agree.content_eq {f q : Stream B} (ha : f.Agree q) (hf : f.Inv) (hq : q.Inv) :
    f.wb.content = q.wb.content := by
  have h := hf.stream.trans (ha.written.trans hq.stream.symm)
  rw [ha.sent] at h
  exact List.append_cancel_left h

/-- **A `Flatten` buffer follows every step of a `Queue` buffer**: its guards hold whenever the
queue's do (nothing is ever queued under `Flatten`), and it writes out the same bytes. -/
theorem Agree.step {f q q' : Stream B} {op : WriteOp B} (ha : f.Agree q) (hf : f.Inv) (hq : q.Inv)
    (hs : step op q = some q') : ∃ f', step op f = some f' ∧ f'.Agree q' := by
  have hcontent := ha.content_eq hf hq
  have hrem : Buf.remaining f.wb = Buf.remaining q.wb := by
    rw [WriteBuf.remaining_eq, WriteBuf.remaining_eq, hcontent]
  have hstrat := strategy_step hs
  rcases step_cases hs with ⟨bs, rfl, -, rfl⟩ | ⟨buf, spare, rfl, hbuf, rfl⟩ | ⟨n, rfl, hn, rfl⟩
  · -- the cursor of a `Flatten` buffer can always be written
    have hqf : Buf.remaining f.wb.queue = 0 := by
      show ((f.wb.queue.bufs).map Buf.remaining).sum = 0
      rw [hf.wellFormed.flatten ha.flatten, List.map_nil, List.sum_nil]
    refine ⟨_, by rw [Stream.step, if_pos hqf], ?_⟩
    exact ⟨by rw [ha.written], ha.sent, ha.flatten, by rw [← ha.queue]; exact hstrat⟩
  · refine ⟨_, by rw [Stream.step, if_pos hbuf], ?_⟩
    refine ⟨by rw [ha.written], ha.sent, ?_, by rw [← ha.queue]; exact hstrat⟩
    rw [WriteBuf.strategy_buffer, WriteBuf.strategy_unshiftFor, ha.flatten]
  · refine ⟨_, by rw [Stream.step, if_pos (hrem ▸ hn)], ?_⟩
    refine ⟨ha.written, by rw [ha.sent, hcontent], ?_, by rw [← ha.queue]; exact hstrat⟩
    rw [WriteBuf.strategy_advance, ha.flatten]

theorem Agree.run {f q q' : Stream B} (ha : f.Agree q) (hf : f.Inv) (hq : q.Inv)
    (ops : List (WriteOp B)) (hrun : q.run ops = some q') :
    ∃ f', f.run ops = some f' ∧ f'.Agree q' := by
  induction ops generalizing f q with
  | nil =>
    cases hrun
    exact ⟨f, rfl, ha⟩
  | cons op ops ih =>
    rw [run_cons, Option.bind_eq_some_iff] at hrun
    obtain ⟨q₁, hq₁, hrest⟩ := hrun
    obtain ⟨f₁, hf₁, ha₁⟩ := ha.step hf hq hq₁
    obtain ⟨f', hf', ha'⟩ := ih ha₁ (hf.step hf₁) (hq.step hq₁) hrest
    exact ⟨f', by rw [run_cons, hf₁, Option.bind_some, hf'], ha'⟩

omit [Buf B] [LawfulBuf B] in
theorem agree_new : (new .Flatten : Stream B).Agree (new .Queue) := ⟨rfl, rfl, rfl, rfl⟩

end Stream

/-- **The write strategies hand out the bytes written, in order.**  For every sequence of
operations under their guards, from a new buffer of either strategy: the bytes written out,
followed by those still buffered, are the bytes put in; `remaining` is the bytes put in less those
written out; a writer that takes part of the chunk takes the front of what is still buffered; and
whatever runs under `Queue` runs under `Flatten` with the same bytes written out.  `maybe_unshift`
changes nothing of what the cursor hands out, `BufList::advance` drops exactly the bytes it passes,
and `BufList::copy_to_bytes` on a queue of non-empty buffers returns the next `len` bytes and
leaves the rest. -/
theorem write_buf_strategies [LawfulBuf B] (ops : List (WriteOp B)) :
    (∀ (strategy : WriteStrategy) (s : Stream B), (Stream.new strategy).run ops = some s →
      s.sent ++ s.wb.content = s.written ∧
      Buf.remaining s.wb = s.written.length - s.sent.length ∧
      ∀ k ≤ (Buf.chunk s.wb).length, (Buf.chunk s.wb).take k = s.wb.content.take k) ∧
    (∀ s : Stream B, (Stream.new .Queue).run ops = some s →
      ∃ s' : Stream B, (Stream.new .Flatten).run ops = some s' ∧ s'.sent = s.sent ∧
        s'.written = s.written) ∧
    (∀ (c : Cursor) (additional spare : ℕ),
      LawfulBuf.content (c.maybe_unshift additional spare) = LawfulBuf.content c) ∧
    (∀ (q : BufList B) (n : ℕ), n ≤ Buf.remaining q → (Buf.advance q n).content = q.content.drop n) ∧
    ∀ q : BufList B, q.NonemptyBufs → ∀ len ≤ Buf.remaining q,
      ∃ q', q.copy_to_bytes len = some (q.content.take len, q') ∧ q'.content = q.content.drop len := by
  refine ⟨fun strategy s hrun ↦ ?_, fun s hrun ↦ ?_, Cursor.content_maybe_unshift,
    fun q _ hn ↦ BufList.content_advance q hn, fun q hq len hlen ↦ ?_⟩
  · have hinv := (Stream.inv_new strategy).run ops hrun
    exact ⟨hinv.stream, hinv.remaining_eq, fun k hk ↦ Stream.take_chunk_eq s.wb hk⟩
  · obtain ⟨s', hs', ha⟩ :=
      Stream.agree_new.run (Stream.inv_new _) (Stream.inv_new _) ops hrun
    exact ⟨s', hs', ha.sent, ha.written⟩
  · obtain ⟨q', hcopy, -, hrest⟩ := BufList.copy_to_bytes_spec hq hlen
    exact ⟨q', hcopy, hrest⟩

end H1

end Hyper
