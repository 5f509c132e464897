import Hyper.H1.Decode
import Hyper.H1.Role.ServerEncode

/-!
# The buffered transport of an HTTP/1 connection (`proto/h1/io.rs`, `common/buf.rs`)

`Buffered` sits between a connection and its transport.  Incoming bytes are read into
`read_buf`, from which the role's parser takes heads and the decoder takes body bytes.  Outgoing
bytes are collected in a `WriteBuf` until a flush hands them to the transport.

A `WriteBuf` holds a `headers` cursor and a `queue` of buffers, and hands out the rest of the
cursor before the queue (`Buf for WriteBuf`).  Under the `Flatten` strategy every buffer is copied
into the cursor; under `Queue` bodies are queued, and a head may only be written into the cursor
when the queue is empty (`can_headers_buf`).  What a `WriteBuf` will hand out is its `content`;
`WriteBuf.content_advance` shows that a flush of `n` bytes takes exactly the first `n` of it.

The transport is a `Transport`: the bytes that will arrive, a plan of how reads are answered
(`Pending`, a read cut short, or an error) and, once the plan is spent, reads of as many bytes as
asked for; and the bytes written so far, with a plan of how writes are answered.  A transport's
`poll_flush` has nothing to do here: writes are taken at once.

Capacities are not modelled: a read from the transport asks for `read_buf_strategy.next()`
bytes, which `reserve` guarantees as spare capacity, and `Cursor::maybe_unshift`, which only
moves the unread bytes of the cursor to its front, is left out.  A vectored write is offered the
whole content of the buffer, of which it writes a prefix, as `chunks_vectored` does.  The header
read timeout of the `runtime` feature is added over `Buffered.parse` in `H1/HeaderTimeout.lean`.
-/

set_option autoImplicit false

namespace Hyper

/-- The kinds of `crate::Error` a connection raises. -/
inductive Error where
  | Parse (p : Parse)
  | User (u : User)
  | Io (e : IoError)
  | IncompleteMessage
  | UnexpectedMessage
  deriving DecidableEq, Repr

namespace H1

/-! ## The transport -/

/-- How the transport answers one call: not yet, at most `k + 1` bytes, or an error. -/
inductive IoEvent where
  | pending
  | upTo (k : ℕ)
  | fail (e : IoError)
  deriving DecidableEq, Repr

/-- The transport under a connection. -/
structure Transport where
  incoming : List UInt8
  reads : List IoEvent
  written : List UInt8
  writes : List IoEvent
  deriving DecidableEq, Repr

namespace Transport

/-- `poll_read` into a buffer with `cap` bytes of room; an empty read is the end of the stream. -/
def poll_read (t : Transport) (cap : ℕ) : Poll (Except IoError (List UInt8)) × Transport :=
  match t.reads with
  | [] => (.ready (.ok (t.incoming.take cap)), { t with incoming := t.incoming.drop cap })
  | .pending :: reads => (.pending, { t with reads })
  | .upTo k :: reads =>
    (.ready (.ok (t.incoming.take (min (k + 1) cap))),
      { t with incoming := t.incoming.drop (min (k + 1) cap), reads })
  | .fail e :: reads => (.ready (.error e), { t with reads })

/-- `poll_write`: how many of the bytes offered were written. -/
def poll_write (t : Transport) (bs : List UInt8) : Poll (Except IoError ℕ) × Transport :=
  match t.writes with
  | [] => (.ready (.ok bs.length), { t with written := t.written ++ bs })
  | .pending :: writes => (.pending, { t with writes })
  | .upTo k :: writes =>
    (.ready (.ok (min (k + 1) bs.length)), { t with written := t.written ++ bs.take (k + 1), writes })
  | .fail e :: writes => (.ready (.error e), { t with writes })

/-- A read takes bytes from the front of what will arrive. -/
theorem poll_read_ok {t t' : Transport} {cap : ℕ} {bs : List UInt8}
    (h : t.poll_read cap = (.ready (.ok bs), t')) :
    ∃ m, bs = t.incoming.take m ∧ t'.incoming = t.incoming.drop m := by
  unfold poll_read at h
  split at h <;> simp only [Prod.mk.injEq, Poll.ready.injEq, Except.ok.injEq, reduceCtorEq,
    false_and] at h
  · obtain ⟨rfl, rfl⟩ := h
    exact ⟨cap, rfl, rfl⟩
  · obtain ⟨rfl, rfl⟩ := h
    exact ⟨_, rfl, rfl⟩

/-- A write appends to what was written the bytes it reports, from the front of those offered. -/
theorem poll_write_ok {t t' : Transport} {bs : List UInt8} {n : ℕ}
    (h : t.poll_write bs = (.ready (.ok n), t')) : t'.written = t.written ++ bs.take n := by
  unfold poll_write at h
  split at h <;> simp only [Prod.mk.injEq, Poll.ready.injEq, Except.ok.injEq, reduceCtorEq,
    false_and] at h
  · obtain ⟨rfl, rfl⟩ := h
    simp
  · obtain ⟨rfl, rfl⟩ := h
    simp [Nat.min_comm]

end Transport

/-! ## `Cursor` -/

/-- `Cursor<Vec<u8>>`: bytes, of which the first `pos` have been handed out. -/
structure Cursor where
  bytes : List UInt8
  pos : ℕ
  deriving DecidableEq, Repr

namespace Cursor

/-- `Cursor::reset`. -/
def reset : Cursor := ⟨[], 0⟩

/-- `extend_from_slice` on the cursor's vector. -/
def extend (c : Cursor) (bs : List UInt8) : Cursor := { c with bytes := c.bytes ++ bs }

/-- `Cursor::maybe_unshift`: bytes already handed out are drained from the front of the vector
when its spare capacity `spare` (`capacity() - len()`, which the model does not track) is below
`additional`. -/
def maybe_unshift (c : Cursor) (additional spare : ℕ) : Cursor :=
  if c.pos = 0 then c
  else if spare ≥ additional then c
  else ⟨c.bytes.drop c.pos, 0⟩

instance : Buf Cursor where
  remaining c := c.bytes.length - c.pos
  chunk c := c.bytes.drop c.pos
  advance c n := { c with pos := c.pos + n }

instance : LawfulBuf Cursor where
  content c := c.bytes.drop c.pos
  remaining_eq _ := (List.length_drop ..).symm
  chunk_isPrefix_content _ := List.prefix_refl _
  chunk_ne_nil _ h := h
  content_advance c n _ := by
    show c.bytes.drop (c.pos + n) = (c.bytes.drop c.pos).drop n
    rw [List.drop_drop]

@[simp] theorem content_reset : LawfulBuf.content reset = [] := rfl

/-- Extending a cursor that has not been advanced past its bytes adds to what it hands out. -/
theorem content_extend {c : Cursor} (hc : c.pos ≤ c.bytes.length) (bs : List UInt8) :
    LawfulBuf.content (c.extend bs) = LawfulBuf.content c ++ bs :=
  List.drop_append_of_le_length hc

/-- Unshifting moves bytes in the vector and changes nothing of what the cursor hands out. -/
@[simp] theorem content_maybe_unshift (c : Cursor) (additional spare : ℕ) :
    LawfulBuf.content (c.maybe_unshift additional spare) = LawfulBuf.content c := by
  rw [maybe_unshift]
  split_ifs
  · rfl
  · rfl
  · exact List.drop_zero

theorem pos_le_maybe_unshift {c : Cursor} (hc : c.pos ≤ c.bytes.length) (additional spare : ℕ) :
    (c.maybe_unshift additional spare).pos ≤ (c.maybe_unshift additional spare).bytes.length := by
  rw [maybe_unshift]
  split_ifs
  · exact hc
  · exact hc
  · exact Nat.zero_le _

end Cursor

/-! ## `BufList` -/

/-- `BufList`: a queue of buffers, handed out in order. -/
structure BufList (B : Type) where
  bufs : List B

namespace BufList

variable {B : Type} [Buf B]

/-- `BufList::push`. -/
def push (q : BufList B) (b : B) : BufList B := ⟨q.bufs ++ [b]⟩

/-- `BufList::bufs_cnt`. -/
def bufs_cnt (q : BufList B) : ℕ := q.bufs.length

/-- The `while` loop of `BufList::advance`: a front buffer with more than `cnt` bytes is advanced,
and one with no more is popped.  Running out of buffers is the index panic, which a count within
`remaining` never reaches. -/
def advanceBufs : List B → ℕ → List B
  | bufs, 0 => bufs
  | [], _ + 1 => []
  | front :: rest, cnt + 1 =>
    if Buf.remaining front > cnt + 1 then Buf.advance front (cnt + 1) :: rest
    else advanceBufs rest (cnt + 1 - Buf.remaining front)

instance : Buf (BufList B) where
  remaining q := (q.bufs.map Buf.remaining).sum
  chunk q :=
    match q.bufs with
    | [] => []
    | front :: _ => Buf.chunk front
  advance q n := ⟨advanceBufs q.bufs n⟩

/-- `BufList::copy_to_bytes`: from the front buffer alone when it holds `len` bytes or more
(popping it when it holds exactly `len`), and otherwise by `Buf::copy_to_bytes` of the whole
queue. -/
def copy_to_bytes (q : BufList B) (len : ℕ) : Option (List UInt8 × BufList B) :=
  match q.bufs with
  | front :: rest =>
    if Buf.remaining front = len then (Buf.copy_to_bytes front len).map fun r ↦ (r.1, ⟨rest⟩)
    else if Buf.remaining front > len then
      (Buf.copy_to_bytes front len).map fun r ↦ (r.1, ⟨r.2 :: rest⟩)
    else Buf.copy_to_bytes q len
  | [] => Buf.copy_to_bytes q len

variable [LawfulBuf B]

/-- What the queue will hand out: its buffers' contents in order. -/
def content (q : BufList B) : List UInt8 := (q.bufs.map LawfulBuf.content).flatten

theorem remaining_eq (q : BufList B) : Buf.remaining q = q.content.length := by
  show (q.bufs.map Buf.remaining).sum = ((q.bufs.map LawfulBuf.content).flatten).length
  rw [List.length_flatten, List.map_map]
  exact congrArg List.sum (List.map_congr_left fun b _ ↦ LawfulBuf.remaining_eq b)

/-- Advancing the queue drops bytes from the front of its content, across buffers. -/
theorem content_advanceBufs : ∀ (bufs : List B) (n : ℕ), n ≤ (bufs.map Buf.remaining).sum →
    ((advanceBufs bufs n).map LawfulBuf.content).flatten =
      ((bufs.map LawfulBuf.content).flatten).drop n
  | bufs, 0, _ => by simp [advanceBufs]
  | [], _ + 1, h => by simp at h
  | front :: rest, cnt + 1, h => by
    have hrem := LawfulBuf.remaining_eq front
    rw [advanceBufs]
    split_ifs with hgt
    · -- the front buffer keeps some of its bytes
      simp only [List.map_cons, List.flatten_cons]
      rw [LawfulBuf.content_advance front _ hgt.le,
        List.drop_append_of_le_length (by omega)]
    · -- the front buffer is used up and popped
      have hrest := content_advanceBufs rest (cnt + 1 - Buf.remaining front)
        (by simp only [List.map_cons, List.sum_cons] at h; omega)
      have hnil : (LawfulBuf.content front).drop (cnt + 1) = [] := List.drop_eq_nil_of_le (by omega)
      rw [hrest, List.map_cons, List.flatten_cons, List.drop_append, hnil, List.nil_append, hrem]

theorem content_advance (q : BufList B) {n : ℕ} (hn : n ≤ Buf.remaining q) :
    (Buf.advance q n).content = q.content.drop n :=
  content_advanceBufs q.bufs n hn

@[simp] theorem content_push (q : BufList B) (b : B) :
    (q.push b).content = q.content ++ LawfulBuf.content b := by
  simp [push, content]

/-- No buffer of the queue is empty: `push` asserts it of each buffer, and `advance` pops a
buffer as soon as it is used up. -/
def NonemptyBufs (q : BufList B) : Prop := ∀ b ∈ q.bufs, LawfulBuf.content b ≠ []

theorem nonemptyBufs_advanceBufs : ∀ (bufs : List B) (n : ℕ),
    (∀ b ∈ bufs, LawfulBuf.content b ≠ []) → ∀ b ∈ advanceBufs bufs n, LawfulBuf.content b ≠ []
  | bufs, 0, h => by rw [advanceBufs]; exact h
  | [], _ + 1, _ => by rw [advanceBufs]; exact fun _ hb ↦ absurd hb List.not_mem_nil
  | front :: rest, cnt + 1, h => by
    rw [advanceBufs]
    split_ifs with hgt
    · -- the front buffer keeps some of its bytes
      intro b hb
      rcases List.mem_cons.mp hb with rfl | hb
      · rw [LawfulBuf.content_advance front _ hgt.le, ne_eq, List.drop_eq_nil_iff,
          ← LawfulBuf.remaining_eq]
        omega
      · exact h b (List.mem_cons_of_mem _ hb)
    · exact nonemptyBufs_advanceBufs rest _ fun b hb ↦ h b (List.mem_cons_of_mem _ hb)

theorem chunk_isPrefix_content (q : BufList B) : Buf.chunk q <+: q.content := by
  show (match q.bufs with | [] => [] | front :: _ => Buf.chunk front) <+: _
  rw [content]
  cases q.bufs with
  | nil => exact List.nil_prefix
  | cons front rest =>
    rw [List.map_cons, List.flatten_cons]
    exact (LawfulBuf.chunk_isPrefix_content front).trans (List.prefix_append _ _)

/-- A queue without empty buffers is a lawful buffer: its chunk, the front buffer's, is empty only
when the queue is. -/
theorem lawfulOn_nonemptyBufs : Buf.LawfulOn (NonemptyBufs (B := B)) content where
  remaining_eq q _ := remaining_eq q
  chunk_isPrefix_content q _ := chunk_isPrefix_content q
  chunk_ne_nil q hq hne := by
    show (match q.bufs with | [] => [] | front :: _ => Buf.chunk front) ≠ []
    rw [content] at hne
    cases hbufs : q.bufs with
    | nil => simp [hbufs] at hne
    | cons front rest =>
      exact LawfulBuf.chunk_ne_nil front (hq front (by simp [hbufs]))
  content_advance q n _ hn := content_advance q hn
  advance_mem q n hq _ := nonemptyBufs_advanceBufs q.bufs n hq

/-- **`copy_to_bytes` takes the next `len` bytes of the queue and leaves exactly the rest**, in
each of its three branches, when no buffer of the queue is empty. -/
theorem copy_to_bytes_spec {q : BufList B} (hq : q.NonemptyBufs) {len : ℕ}
    (hlen : len ≤ Buf.remaining q) :
    ∃ q', q.copy_to_bytes len = some (q.content.take len, q') ∧ q'.NonemptyBufs ∧
      q'.content = q.content.drop len := by
  -- the branch through the whole queue
  have hall : Buf.copy_to_bytes q len = copy_to_bytes q len ∨
      ∃ front rest, q.bufs = front :: rest ∧ len ≤ Buf.remaining front := by
    rw [copy_to_bytes]
    split
    · rename_i front rest hbufs
      split_ifs with heq hgt
      · exact .inr ⟨front, rest, hbufs, heq.ge⟩
      · exact .inr ⟨front, rest, hbufs, hgt.le⟩
      · exact .inl rfl
    · exact .inl rfl
  rcases hall with hall | ⟨front, rest, hbufs, hfront⟩
  · rw [← hall]
    exact lawfulOn_nonemptyBufs.copy_to_bytes hq hlen
  -- the front buffer alone
  have hcontent : q.content = LawfulBuf.content front ++ (⟨rest⟩ : BufList B).content := by
    rw [content, hbufs, List.map_cons, List.flatten_cons, content]
  have hrest : (⟨rest⟩ : BufList B).NonemptyBufs := fun b hb ↦ hq b (by rw [hbufs]; simp [hb])
  have hlen' : len ≤ (LawfulBuf.content front).length := by rwa [← LawfulBuf.remaining_eq]
  obtain ⟨front', hcopy, -, hfront'⟩ := Buf.lawfulOn_true.copy_to_bytes trivial hfront
  rw [copy_to_bytes, hbufs, hcontent, List.take_append_of_le_length hlen',
    List.drop_append_of_le_length hlen']
  simp only
  split_ifs with heq hgt
  · -- exactly the front buffer: it is popped
    have hnil : (LawfulBuf.content front).drop len = [] := by
      rw [List.drop_eq_nil_iff, ← LawfulBuf.remaining_eq, heq]
    refine ⟨⟨rest⟩, by rw [hcopy, Option.map_some], hrest, by rw [hnil, List.nil_append]⟩
  · -- part of the front buffer: it stays, advanced
    refine ⟨⟨front' :: rest⟩, by rw [hcopy, Option.map_some], fun b hb ↦ ?_, ?_⟩
    · rcases List.mem_cons.mp hb with rfl | hb
      · rw [hfront', ne_eq, List.drop_eq_nil_iff, ← LawfulBuf.remaining_eq]
        omega
      · exact hrest b hb
    · rw [content, List.map_cons, List.flatten_cons, hfront']
      rfl
  · omega

end BufList

/-! ## `WriteBuf` -/

/-- `WriteStrategy`. -/
inductive WriteStrategy where
  | Flatten
  | Queue
  deriving DecidableEq, Repr

/-- `INIT_BUFFER_SIZE`. -/
def INIT_BUFFER_SIZE : ℕ := 8192

/-- `MINIMUM_MAX_BUFFER_SIZE`. -/
def MINIMUM_MAX_BUFFER_SIZE : ℕ := INIT_BUFFER_SIZE

/-- `DEFAULT_MAX_BUFFER_SIZE`. -/
def DEFAULT_MAX_BUFFER_SIZE : ℕ := 8192 + 4096 * 100

/-- `MAX_BUF_LIST_BUFFERS`. -/
def MAX_BUF_LIST_BUFFERS : ℕ := 16

/-- `WriteBuf`: the head bytes (and, under `Flatten`, all bytes), then the queued buffers. -/
structure WriteBuf (B : Type) where
  headers : Cursor
  max_buf_size : ℕ
  queue : BufList B
  strategy : WriteStrategy

namespace WriteBuf

variable {B : Type} [Buf B]

/-- `WriteBuf::new`. -/
def new (strategy : WriteStrategy) : WriteBuf B :=
  ⟨Cursor.reset, DEFAULT_MAX_BUFFER_SIZE, ⟨[]⟩, strategy⟩

/-- `WriteBuf::buffer`: copied into the cursor chunk by chunk, or queued. -/
def buffer (wb : WriteBuf B) (buf : B) : WriteBuf B :=
  match wb.strategy with
  | .Flatten => { wb with headers := wb.headers.extend (Buf.copyOut (Buf.remaining buf) buf) }
  | .Queue => { wb with queue := wb.queue.push buf }

/-- The first statement of the `Flatten` arm of `WriteBuf::buffer`,
`head.maybe_unshift(buf.remaining())`, with the spare capacity `spare` of the cursor's vector;
`buffer` is the copy loop that follows it. -/
def unshiftFor (wb : WriteBuf B) (buf : B) (spare : ℕ) : WriteBuf B :=
  match wb.strategy with
  | .Flatten => { wb with headers := wb.headers.maybe_unshift (Buf.remaining buf) spare }
  | .Queue => wb

/-- Bytes written into `headers_mut().bytes`. -/
def extend_headers (wb : WriteBuf B) (bs : List UInt8) : WriteBuf B :=
  { wb with headers := wb.headers.extend bs }

instance : Buf (WriteBuf B) where
  remaining wb := Buf.remaining wb.headers + Buf.remaining wb.queue
  chunk wb := if Buf.chunk wb.headers ≠ [] then Buf.chunk wb.headers else Buf.chunk wb.queue
  advance wb cnt :=
    let hrem := Buf.remaining wb.headers
    if hrem = cnt then { wb with headers := Cursor.reset }
    else if hrem > cnt then { wb with headers := Buf.advance wb.headers cnt }
    else { wb with headers := Cursor.reset, queue := Buf.advance wb.queue (cnt - hrem) }

/-- `WriteBuf::can_buffer`. -/
def can_buffer (wb : WriteBuf B) : Bool :=
  match wb.strategy with
  | .Flatten => Buf.remaining wb < wb.max_buf_size
  | .Queue => wb.queue.bufs_cnt < MAX_BUF_LIST_BUFFERS && Buf.remaining wb < wb.max_buf_size

@[simp] theorem strategy_buffer (wb : WriteBuf B) (buf : B) :
    (wb.buffer buf).strategy = wb.strategy := by
  rw [buffer]
  split <;> rfl

omit [Buf B] in
@[simp] theorem strategy_extend_headers (wb : WriteBuf B) (bs : List UInt8) :
    (wb.extend_headers bs).strategy = wb.strategy := rfl

@[simp] theorem strategy_unshiftFor (wb : WriteBuf B) (buf : B) (spare : ℕ) :
    (wb.unshiftFor buf spare).strategy = wb.strategy := by
  rw [unshiftFor]
  split <;> rfl

@[simp] theorem queue_unshiftFor (wb : WriteBuf B) (buf : B) (spare : ℕ) :
    (wb.unshiftFor buf spare).queue = wb.queue := by
  rw [unshiftFor]
  split <;> rfl

variable [LawfulBuf B]

/-- What the buffer will hand out: the rest of the cursor, then the queue. -/
def content (wb : WriteBuf B) : List UInt8 := LawfulBuf.content wb.headers ++ wb.queue.content

/-- The cursor is never advanced past its bytes, and nothing is queued under `Flatten`. -/
structure WellFormed (wb : WriteBuf B) : Prop where
  pos_le : wb.headers.pos ≤ wb.headers.bytes.length
  flatten : wb.strategy = .Flatten → wb.queue.bufs = []

omit [LawfulBuf B] [Buf B] in
theorem wellFormed_new (strategy : WriteStrategy) : (new strategy : WriteBuf B).WellFormed :=
  ⟨Nat.zero_le _, fun _ ↦ rfl⟩

theorem remaining_eq (wb : WriteBuf B) : Buf.remaining wb = wb.content.length := by
  show Buf.remaining wb.headers + Buf.remaining wb.queue = _
  rw [LawfulBuf.remaining_eq, BufList.remaining_eq, content, List.length_append]

omit [LawfulBuf B] in
theorem advance_def (wb : WriteBuf B) (cnt : ℕ) :
    (Buf.advance wb cnt : WriteBuf B) =
      if Buf.remaining wb.headers = cnt then { wb with headers := Cursor.reset }
      else if Buf.remaining wb.headers > cnt then { wb with headers := Buf.advance wb.headers cnt }
      else { wb with
        headers := Cursor.reset, queue := Buf.advance wb.queue (cnt - Buf.remaining wb.headers) } :=
  rfl

omit [LawfulBuf B] in
@[simp] theorem strategy_advance (wb : WriteBuf B) (n : ℕ) :
    (Buf.advance wb n : WriteBuf B).strategy = wb.strategy := by
  rw [advance_def]
  split_ifs <;> rfl

/-- **A write of `n` bytes takes the first `n` of the content**, whichever way `advance` goes. -/
theorem content_advance (wb : WriteBuf B) {n : ℕ} (hn : n ≤ Buf.remaining wb) :
    (Buf.advance wb n : WriteBuf B).content = wb.content.drop n := by
  have hh := LawfulBuf.remaining_eq wb.headers
  change n ≤ Buf.remaining wb.headers + Buf.remaining wb.queue at hn
  rw [advance_def]
  split_ifs with heq hgt
  · -- the cursor is used up exactly
    have hnil : (LawfulBuf.content wb.headers).drop n = [] := List.drop_eq_nil_of_le (by omega)
    simp only [content, Cursor.content_reset, List.nil_append]
    rw [List.drop_append, hnil, List.nil_append, ← hh, heq, Nat.sub_self, List.drop_zero]
  · rw [content, content, LawfulBuf.content_advance _ _ hgt.le,
      List.drop_append_of_le_length (by omega)]
  · -- past the cursor, into the queue
    have hnil : (LawfulBuf.content wb.headers).drop n = [] := List.drop_eq_nil_of_le (by omega)
    simp only [content, Cursor.content_reset, List.nil_append]
    rw [BufList.content_advance _ (by omega), List.drop_append, hnil, List.nil_append, hh]

omit [LawfulBuf B] in
theorem wellFormed_advance {wb : WriteBuf B} (hwf : wb.WellFormed) (n : ℕ) :
    (Buf.advance wb n : WriteBuf B).WellFormed := by
  have hq := hwf.flatten
  have hpos := hwf.pos_le
  rw [advance_def]
  split_ifs
  · exact ⟨Nat.zero_le _, hq⟩
  · rename_i hgt
    have hrem : Buf.remaining wb.headers = wb.headers.bytes.length - wb.headers.pos := rfl
    exact ⟨by show wb.headers.pos + n ≤ wb.headers.bytes.length; omega, hq⟩
  · -- under `Flatten` the queue it advances is empty
    refine ⟨Nat.zero_le _, fun hflat ↦ ?_⟩
    show BufList.advanceBufs wb.queue.bufs _ = []
    rw [hq hflat]
    cases n - Buf.remaining wb.headers <;> rfl

theorem content_extend_headers {wb : WriteBuf B} (hwf : wb.WellFormed) (bs : List UInt8) :
    (wb.extend_headers bs).content = LawfulBuf.content wb.headers ++ bs ++ wb.queue.content := by
  rw [extend_headers, content, Cursor.content_extend hwf.pos_le]

omit [LawfulBuf B] [Buf B] in
theorem wellFormed_extend_headers {wb : WriteBuf B} (hwf : wb.WellFormed) (bs : List UInt8) :
    (wb.extend_headers bs).WellFormed :=
  ⟨by simp only [extend_headers, Cursor.extend, List.length_append]; exact le_add_right hwf.pos_le,
    hwf.flatten⟩

/-- Buffering appends to the content: under `Flatten` the queue is empty, so the copy at the end
of the cursor is the end of the content. -/
theorem content_buffer {wb : WriteBuf B} (hwf : wb.WellFormed) (buf : B) :
    (wb.buffer buf).content = wb.content ++ LawfulBuf.content buf := by
  unfold buffer
  split
  · rename_i hflat
    have hq : wb.queue.content = [] := by simp [BufList.content, hwf.flatten hflat]
    rw [content, content, Cursor.content_extend hwf.pos_le, hq,
      Buf.copyOut_eq_content buf (le_refl _)]
    simp
  · simp [content]

omit [LawfulBuf B] in
theorem wellFormed_buffer {wb : WriteBuf B} (hwf : wb.WellFormed) (buf : B) :
    (wb.buffer buf).WellFormed := by
  unfold buffer
  split
  · exact ⟨by simp only [Cursor.extend, List.length_append]; exact le_add_right hwf.pos_le,
      hwf.flatten⟩
  · rename_i hq
    exact ⟨hwf.pos_le, fun h ↦ absurd (h.symm.trans hq) (by decide)⟩

@[simp] theorem content_unshiftFor (wb : WriteBuf B) (buf : B) (spare : ℕ) :
    (wb.unshiftFor buf spare).content = wb.content := by
  rw [unshiftFor]
  split
  · rw [content, content, Cursor.content_maybe_unshift]
  · rfl

omit [LawfulBuf B] in
theorem wellFormed_unshiftFor {wb : WriteBuf B} (hwf : wb.WellFormed) (buf : B) (spare : ℕ) :
    (wb.unshiftFor buf spare).WellFormed := by
  rw [unshiftFor]
  split
  · exact ⟨Cursor.pos_le_maybe_unshift hwf.pos_le _ _, hwf.flatten⟩
  · exact hwf

/-- The chunk a writer is offered is the front of the content: the cursor's, or once the cursor
is used up, the queue's. -/
theorem chunk_isPrefix_content (wb : WriteBuf B) : Buf.chunk wb <+: wb.content := by
  show (if Buf.chunk wb.headers ≠ [] then Buf.chunk wb.headers else Buf.chunk wb.queue) <+: _
  rw [content]
  split_ifs with h
  · exact (LawfulBuf.chunk_isPrefix_content wb.headers).trans (List.prefix_append _ _)
  · -- the cursor's chunk is all it hands out
    have hnil : LawfulBuf.content wb.headers = [] := not_not.mp h
    rw [hnil, List.nil_append]
    exact wb.queue.chunk_isPrefix_content

end WriteBuf

/-! ## The read strategy -/

/-- `ReadStrategy`: how many bytes the next read asks for, adapting to how much reads bring. -/
inductive ReadStrategy where
  | Adaptive (decrease_now : Bool) (next max : ℕ)
  | Exact (n : ℕ)
  deriving DecidableEq, Repr

namespace ReadStrategy

/-- `ReadStrategy::with_max`. -/
def with_max (max : ℕ) : ReadStrategy := .Adaptive false INIT_BUFFER_SIZE max

/-- `ReadStrategy::default`. -/
def default : ReadStrategy := with_max DEFAULT_MAX_BUFFER_SIZE

/-- `ReadStrategy::next`. -/
def next : ReadStrategy → ℕ
  | .Adaptive _ next _ => next
  | .Exact n => n

/-- `ReadStrategy::max`. -/
def max : ReadStrategy → ℕ
  | .Adaptive _ _ max => max
  | .Exact n => n

/-- `incr_power_of_two`: `saturating_mul(2)` on a 64-bit `usize`. -/
def incr_power_of_two (n : ℕ) : ℕ := min (2 * n) (usize_max 64)

/-- `prev_power_of_two`: the power of two below the highest bit of `n`, for `n ≥ 4`. -/
def prev_power_of_two (n : ℕ) : ℕ := 2 ^ (Nat.log2 n - 1)

/-- `ReadStrategy::record`: grow after a full read, shrink after two short ones in a row. -/
def record : ReadStrategy → ℕ → ReadStrategy
  | .Adaptive decrease_now next max, bytes_read =>
    if bytes_read ≥ next then .Adaptive false (min (incr_power_of_two next) max) max
    else
      let decr_to := prev_power_of_two next
      if bytes_read < decr_to then
        if decrease_now then .Adaptive false (Nat.max decr_to INIT_BUFFER_SIZE) max
        else .Adaptive true next max
      else .Adaptive false next max
  | .Exact n, _ => .Exact n

end ReadStrategy

/-! ## `Buffered` -/

/-- `Buffered`: the transport, the read buffer and the write buffer. -/
structure Buffered (B : Type) where
  flush_pipeline : Bool
  io : Transport
  read_blocked : Bool
  read_buf : List UInt8
  read_buf_strategy : ReadStrategy
  write_buf : WriteBuf B

namespace Buffered

variable {B : Type} [Buf B]

/-- `Buffered::new`, with the write strategy `is_write_vectored` picks. -/
def new (io : Transport) (strategy : WriteStrategy) : Buffered B :=
  ⟨false, io, false, [], ReadStrategy.default, WriteBuf.new strategy⟩

/-- `Buffered::set_max_buf_size`; its assertion is the `none`. -/
def set_max_buf_size (b : Buffered B) (max : ℕ) : Option (Buffered B) :=
  if max ≥ MINIMUM_MAX_BUFFER_SIZE then
    some { b with
      read_buf_strategy := ReadStrategy.with_max max,
      write_buf := { b.write_buf with max_buf_size := max } }
  else none

/-- `Buffered::can_headers_buf`: nothing of an earlier body is still queued. -/
def can_headers_buf (b : Buffered B) : Bool := Buf.remaining b.write_buf.queue = 0

/-- Bytes written through `Buffered::headers_buf`. -/
def headers_buf (b : Buffered B) (bs : List UInt8) : Buffered B :=
  { b with write_buf := b.write_buf.extend_headers bs }

/-- `Buffered::buffer`. -/
def buffer (b : Buffered B) (buf : B) : Buffered B := { b with write_buf := b.write_buf.buffer buf }

/-- `Buffered::can_buffer`. -/
def can_buffer (b : Buffered B) : Bool := b.flush_pipeline || b.write_buf.can_buffer

/-- `Buffered::consume_leading_lines`: drop the `\r` and `\n` bytes at the front. -/
def consume_leading_lines (b : Buffered B) : Buffered B :=
  if b.read_buf ≠ [] then { b with read_buf := b.read_buf.dropWhile fun c ↦ c = CR ∨ c = LF }
  else b

/-- `Buffered::poll_read_from_io`: one read of the transport into `read_buf`. -/
def poll_read_from_io (b : Buffered B) : Poll (Except IoError ℕ) × Buffered B :=
  match b.io.poll_read b.read_buf_strategy.next with
  | (.ready (.ok bs), io) =>
    (.ready (.ok bs.length), { b with
      io, read_blocked := false, read_buf := b.read_buf ++ bs,
      read_buf_strategy := b.read_buf_strategy.record bs.length })
  | (.pending, io) => (.pending, { b with io, read_blocked := true })
  | (.ready (.error e), io) => (.ready (.error e), { b with io, read_blocked := false })

/-- `Buffered::into_inner`: the transport and the bytes read but not consumed. -/
def into_inner (b : Buffered B) : Transport × List UInt8 := (b.io, b.read_buf)

omit [Buf B] in
/-- A read moves bytes from the front of the transport's stream to the end of `read_buf`. -/
theorem poll_read_from_io_ok {b b' : Buffered B} {n : ℕ}
    (h : b.poll_read_from_io = (.ready (.ok n), b')) :
    ∃ m, b'.read_buf = b.read_buf ++ b.io.incoming.take m ∧ n = (b.io.incoming.take m).length ∧
      b'.io.incoming = b.io.incoming.drop m := by
  unfold poll_read_from_io at h
  split at h
  · rename_i bs io hr
    simp only [Prod.mk.injEq, Poll.ready.injEq, Except.ok.injEq] at h
    obtain ⟨rfl, rfl⟩ := h
    obtain ⟨m, rfl, hio⟩ := Transport.poll_read_ok hr
    exact ⟨m, rfl, rfl, hio⟩
  · simp at h
  · simp at h

/-- `impl MemRead for Buffered`: from `read_buf` if it holds anything, else after one read. -/
def read_mem (b : Buffered B) (len : ℕ) : Poll (Except IoError (List UInt8)) × Buffered B :=
  if b.read_buf ≠ [] then
    (.ready (.ok (b.read_buf.take (min len b.read_buf.length))),
      { b with read_buf := b.read_buf.drop (min len b.read_buf.length) })
  else
    match b.poll_read_from_io with
    | (.ready (.ok n), b') =>
      (.ready (.ok (b'.read_buf.take (min len n))), { b' with read_buf := b'.read_buf.drop (min len n) })
    | (.ready (.error e), b') => (.ready (.error e), b')
    | (.pending, b') => (.pending, b')

/-- What the connection will still read: `read_buf`, then the transport's stream. -/
def supply (b : Buffered B) : ℕ := b.read_buf.length + b.io.incoming.length

omit [Buf B] in
theorem supply_lt {b b' : Buffered B} {len : ℕ} {bs : List UInt8}
    (h : b.read_mem len = (.ready (.ok bs), b')) (hne : bs ≠ []) : b'.supply < b.supply := by
  unfold read_mem at h
  split_ifs at h with hbuf
  · simp only [Prod.mk.injEq, Poll.ready.injEq, Except.ok.injEq] at h
    obtain ⟨rfl, rfl⟩ := h
    have hpos : 0 < min len b.read_buf.length := by
      by_contra h0
      exact hne (by simp [show min len b.read_buf.length = 0 by omega])
    simp only [supply, List.length_drop]
    omega
  · rw [not_not] at hbuf
    rcases hr : b.poll_read_from_io with ⟨_ | _, b''⟩
    · rename_i res
      rcases res with e | n
      · simp [hr] at h
      obtain ⟨m, hbuf', rfl, hio⟩ := poll_read_from_io_ok hr
      simp only [hr, Prod.mk.injEq, Poll.ready.injEq, Except.ok.injEq] at h
      obtain ⟨rfl, rfl⟩ := h
      -- the read brought `m'` bytes, of which a non-empty part was handed out
      rw [hbuf, List.nil_append] at hbuf'
      have hpos : 0 < min len (b.io.incoming.take m).length := by
        by_contra h0
        have hzero : min len (b.io.incoming.take m).length = 0 := by omega
        exact hne (by rw [hzero, List.take_zero])
      simp only [supply, hbuf', hio, List.length_drop, List.length_take, hbuf, List.length_nil] at hpos ⊢
      omega
    · simp [hr] at h

instance : MemRead (Buffered B) where
  read_mem := read_mem
  supply := supply
  supply_lt := supply_lt

omit [Buf B] in
/-- `Buffered` hands a decoder at most the bytes it asks for. -/
theorem readsAtMost (b : Buffered B) : Decoder.ReadsAtMost b := by
  intro len bs b' h
  change Buffered.read_mem b len = _ at h
  unfold Buffered.read_mem at h
  split_ifs at h
  · obtain ⟨hbs, -⟩ := Prod.mk.inj h
    simp only [Poll.ready.injEq, Except.ok.injEq] at hbs
    subst hbs
    simp [List.length_take]
  · split at h
    · obtain ⟨hbs, -⟩ := Prod.mk.inj h
      simp only [Poll.ready.injEq, Except.ok.injEq] at hbs
      subst hbs
      simp [List.length_take]
    · simp at h
    · simp at h

omit [Buf B] in
/-- Writing a head into `headers_buf` changes nothing a read looks at, so a body is decoded
alike before and after it. -/
theorem headers_buf_readsAlike (bs : List UInt8) :
    Decoder.ReadsAlike (fun b : Buffered B ↦ b.headers_buf bs) := by
  refine ⟨fun b len ↦ ?_, fun b ↦ rfl⟩
  change read_mem (b.headers_buf bs) len = ((read_mem b len).1, (read_mem b len).2.headers_buf bs)
  unfold read_mem poll_read_from_io headers_buf
  dsimp only
  split_ifs
  · rfl
  · rcases b.io.poll_read b.read_buf_strategy.next with ⟨(e | bs') | _, io⟩ <;> rfl

/-- The `loop` of `Buffered::parse`, with `fuel` rounds: parse what is buffered, and read more
while it is an incomplete head that is not too long. -/
def parseLoop {T : Type} (parse : List UInt8 → Except Parse (Option (ParsedMessage T)) × List UInt8) :
    ℕ → Buffered B → Poll (Except Error (ParsedMessage T)) × Buffered B
  | 0, b => (.pending, b)
  | fuel + 1, b =>
    match parse_headers parse b.read_buf with
    | (.error e, buf) => (.ready (.error (.Parse e)), { b with read_buf := buf })
    | (.ok (some msg), buf) => (.ready (.ok msg), { b with read_buf := buf })
    | (.ok none, buf) =>
      let b := { b with read_buf := buf }
      if b.read_buf.length ≥ b.read_buf_strategy.max then (.ready (.error (.Parse .TooLarge)), b)
      else
        match b.poll_read_from_io with
        | (.pending, b) => (.pending, b)
        | (.ready (.error e), b) => (.ready (.error (.Io e)), b)
        | (.ready (.ok n), b) =>
          if n = 0 then (.ready (.error .IncompleteMessage), b) else parseLoop parse fuel b

/-- `Buffered::parse`: each round that goes on reads a byte, so one round more than the bytes
still to arrive is enough. -/
def parse {T : Type} (parse : List UInt8 → Except Parse (Option (ParsedMessage T)) × List UInt8)
    (b : Buffered B) : Poll (Except Error (ParsedMessage T)) × Buffered B :=
  parseLoop parse (b.io.incoming.length + 1) b

/-- `io::ErrorKind::WriteZero.into()`. -/
def writeZero : IoError := ⟨.WriteZero, ""⟩

/-- `poll_flush_flattened`, with `fuel` writes: the cursor's chunk, until it is all written. -/
def flushFlattened : ℕ → Buffered B → Poll (Except IoError Unit) × Buffered B
  | 0, b => (.pending, b)
  | fuel + 1, b =>
    match b.io.poll_write (Buf.chunk b.write_buf.headers) with
    | (.pending, io) => (.pending, { b with io })
    | (.ready (.error e), io) => (.ready (.error e), { b with io })
    | (.ready (.ok n), io) =>
      let headers := Buf.advance b.write_buf.headers n
      if Buf.remaining headers = 0 then
        (.ready (.ok ()), { b with io, write_buf := { b.write_buf with headers := Cursor.reset } })
      else if n = 0 then (.ready (.error writeZero), { b with io, write_buf := { b.write_buf with headers } })
      else flushFlattened fuel { b with io, write_buf := { b.write_buf with headers } }

variable [LawfulBuf B]

/-- The vectored loop of `Buffered::poll_flush`, with `fuel` writes. -/
def flushQueued : ℕ → Buffered B → Poll (Except IoError Unit) × Buffered B
  | 0, b => (.pending, b)
  | fuel + 1, b =>
    match b.io.poll_write b.write_buf.content with
    | (.pending, io) => (.pending, { b with io })
    | (.ready (.error e), io) => (.ready (.error e), { b with io })
    | (.ready (.ok n), io) =>
      let b := { b with io, write_buf := Buf.advance b.write_buf n }
      if Buf.remaining b.write_buf = 0 then (.ready (.ok ()), b)
      else if n = 0 then (.ready (.error writeZero), b)
      else flushQueued fuel b

/-- `Buffered::poll_flush`: each write that goes on takes a byte, so one more write than the
bytes buffered is enough. -/
def poll_flush (b : Buffered B) : Poll (Except IoError Unit) × Buffered B :=
  if b.flush_pipeline && b.read_buf ≠ [] then (.ready (.ok ()), b)
  else if Buf.remaining b.write_buf = 0 then (.ready (.ok ()), b)
  else
    match b.write_buf.strategy with
    | .Flatten => flushFlattened (Buf.remaining b.write_buf + 1) b
    | .Queue => flushQueued (Buf.remaining b.write_buf + 1) b

end Buffered

end H1

end Hyper
