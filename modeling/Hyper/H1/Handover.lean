import Hyper.H1.Dispatch

/-!
# Handing a connection over (`common/io/rewind.rs`, `Connection::upgrade_h2`)

When an HTTP/1 connection stops being one, the bytes it has read but not used must reach
whatever takes the transport over.  `Conn::into_inner` returns the transport and `read_buf`, and
`Rewind` replays `read_buf` before the transport's own bytes: for an upgrade (`Upgraded` is a
`Rewind`), and for a server that finds the HTTP/2 preface and falls back to HTTP/2
(`upgrade_h2`).

What is still to be read, in order, is `Buffered.unread` on the connection's side and
`Rewind.content` on the other, and `into_inner` followed by `Rewind.new_buffered` or
`Rewind.rewind` carries the one to the other (`content_upgrade_h2`).  Every read of a `Rewind`
takes bytes from the front of its content, whatever room the caller gives it
(`content_poll_read`), so a run of reads with any capacities delivers the content in order, with
nothing lost or repeated (`content_readAll`).  On the connection's side, reading from the
transport only moves bytes into `read_buf`, and a parse error leaves them where they are
(`unread_poll_read_from_io`, `unread_parseLoop_error`).

Whether a server falls back to HTTP/2 at all depends on how the preface was split into reads.
`httparse` rejects the version of `PRI * HTTP/2.0` as soon as the `2` is buffered, and
`on_parse_error` only reports `VersionH2` when 24 bytes are buffered.  In
`preface_split_read_answers_400` the same bytes arrive once in one read, and once with a first
read of twelve bytes: the first connection reports `VersionH2` and hands the whole stream over,
the second answers `400 Bad Request` and closes its read side.
-/

set_option autoImplicit false

namespace Hyper.H1

/-- The bytes a read delivered. -/
def delivered : Poll (Except IoError (List UInt8)) → List UInt8
  | .ready (.ok bs) => bs
  | _ => []

namespace Transport

/-- A read takes from the front of what will arrive exactly the bytes it delivers. -/
theorem incoming_poll_read (t : Transport) (cap : ℕ) :
    t.incoming = delivered (t.poll_read cap).1 ++ (t.poll_read cap).2.incoming := by
  unfold poll_read
  split <;> simp [delivered]

end Transport

/-! ## `Rewind` -/

/-- `Rewind`: bytes read ahead, replayed before the transport's. -/
structure Rewind where
  pre : Option (List UInt8)
  inner : Transport

namespace Rewind

/-- `Rewind::new`. -/
def new (io : Transport) : Rewind := ⟨none, io⟩

/-- `Rewind::new_buffered`. -/
def new_buffered (io : Transport) (buf : List UInt8) : Rewind := ⟨some buf, io⟩

/-- `Rewind::rewind`. -/
def rewind (r : Rewind) (bs : List UInt8) : Rewind := { r with pre := some bs }

/-- `Rewind::into_inner`. -/
def into_inner (r : Rewind) : Transport × List UInt8 := (r.inner, r.pre.getD [])

/-- `poll_read` into a buffer with room for `cap` bytes: from the bytes read ahead while there
are any, and from the transport after. -/
def poll_read (r : Rewind) (cap : ℕ) : Poll (Except IoError (List UInt8)) × Rewind :=
  match r.pre with
  | some bs =>
    if bs ≠ [] then
      let copy_len := min bs.length cap
      (.ready (.ok (bs.take copy_len)),
        { r with pre := if bs.drop copy_len ≠ [] then some (bs.drop copy_len) else none })
    else
      -- the empty buffer is dropped
      let (res, inner) := r.inner.poll_read cap
      (res, ⟨none, inner⟩)
  | none =>
    let (res, inner) := r.inner.poll_read cap
    (res, { r with inner })

/-- What is still to be read, in order. -/
def content (r : Rewind) : List UInt8 := r.pre.getD [] ++ r.inner.incoming

/-- A read takes from the front of the content exactly the bytes it delivers. -/
theorem content_poll_read (r : Rewind) (cap : ℕ) :
    r.content = delivered (r.poll_read cap).1 ++ (r.poll_read cap).2.content := by
  have hinner := r.inner.incoming_poll_read cap
  unfold poll_read
  split
  · rename_i bs hpre
    by_cases hne : bs = []
    · -- an empty buffer is dropped, and the transport read
      rw [if_neg (not_not.mpr hne)]
      simp only [content, hpre, hne, Option.getD_some, Option.getD_none, List.nil_append]
      exact hinner
    rw [if_pos hne]
    have hsplit := List.take_append_drop (min bs.length cap) bs
    by_cases hrest : bs.drop (min bs.length cap) = []
    · -- all of them are delivered
      rw [hrest, List.append_nil] at hsplit
      simp only [content, hpre, delivered, hrest, ne_eq, not_true_eq_false, if_false, Option.getD_some,
        Option.getD_none, List.nil_append, hsplit]
    · -- part of them is left for the next read
      simp only [content, hpre, delivered, ne_eq, hrest, not_false_eq_true, if_true, Option.getD_some,
        ← List.append_assoc, hsplit]
  · rename_i hpre
    simp only [content, hpre, Option.getD_none, List.nil_append]
    exact hinner

/-- Reads with the capacities `caps` in turn: the bytes they deliver, and the `Rewind` after. -/
def readAll : List ℕ → Rewind → List UInt8 × Rewind
  | [], r => ([], r)
  | cap :: caps, r =>
    let (rest, r') := readAll caps (r.poll_read cap).2
    (delivered (r.poll_read cap).1 ++ rest, r')

/-- **Nothing is lost or repeated**: whatever the capacities and however the transport answers,
the reads deliver the front of the content, and the rest is still to be read. -/
theorem content_readAll (caps : List ℕ) (r : Rewind) :
    r.content = (readAll caps r).1 ++ (readAll caps r).2.content := by
  induction caps generalizing r with
  | nil => simp [readAll]
  | cons cap caps ih =>
    simp only [readAll, List.append_assoc]
    rw [← ih, ← content_poll_read]

end Rewind

/-! ## From the connection to the `Rewind` -/

namespace Buffered

variable {B : Type}

/-- What the connection has still to read, in order: [read_buf], then the transport's stream. -/
def unread (b : Buffered B) : List UInt8 := b.read_buf ++ b.io.incoming

/-- Reading from the transport only moves bytes into [read_buf]. -/
theorem unread_poll_read_from_io (b : Buffered B) : b.poll_read_from_io.2.unread = b.unread := by
  have hin := b.io.incoming_poll_read b.read_buf_strategy.next
  unfold poll_read_from_io
  split <;> rename_i hr <;> rw [hr] at hin <;> simp only [unread, hin, delivered, List.nil_append, List.append_assoc]

end Buffered

namespace Conn

variable {B : Type}

/-- [Conn::into_inner]: the transport, and what was read of it but not used. -/
def into_inner (c : Conn B) : Transport × List UInt8 := c.io.into_inner

/-- The transport of an upgraded connection: [Upgraded] wraps [Rewind::new_buffered]. -/
def upgraded (c : Conn B) : Rewind := Rewind.new_buffered c.into_inner.1 c.into_inner.2

/-- [Connection::upgrade_h2]: the transport, with the bytes read so far rewound into it. -/
def upgrade_h2 (c : Conn B) : Rewind := (Rewind.new c.into_inner.1).rewind c.into_inner.2

/-- Both hand over exactly what the connection had still to read. -/
theorem content_upgraded (c : Conn B) : c.upgraded.content = c.io.unread := rfl

theorem content_upgrade_h2 (c : Conn B) : c.upgrade_h2.content = c.io.unread := rfl

end Conn

/-! ## The preface, split -/

/-- What [httparse] returns on the bytes of the HTTP/2 preface: [Partial] until the first digit of
the version is buffered, and a version error from then on. -/
def prefaceParser : RequestParser := fun buf ↦
  if (ascii "PRI * HTTP/2").isPrefixOf buf then .error ⟨.Version, true⟩ else .ok .Partial

/-- A server that falls back to HTTP/2. -/
def prefaceServer : Transaction RequestLine StatusCode :=
  .server prefaceParser (fun path ↦ some ⟨path⟩) (fun _ ↦ none) (ascii "Sun, 06 Nov 1994 08:49:37 GMT")

/-- The preface, followed by bytes of the HTTP/2 connection. -/
def prefaceStream : List UInt8 := H2_PREFACE ++ ascii "frames"

section

-- the outcome of [poll_read_head] is compared whole, and its equality instance is a large one
set_option synthInstance.maxSize 512

theorem preface_split_read_answers_400 :
    ∃ c₁ c₂,
      (Conn.new ⟨prefaceStream, [], [], []⟩ .Queue : Conn (List UInt8)).poll_read_head prefaceServer =
        some (.ready (some (.error (.Parse .VersionH2))), c₁) ∧
      c₁.upgrade_h2.content = prefaceStream ∧
      (Conn.new ⟨prefaceStream, [.upTo 11], [], []⟩ .Queue : Conn (List UInt8)).poll_read_head prefaceServer =
        some (.pending, c₂) ∧
      (ascii "HTTP/1.1 400").isPrefixOf c₂.io.write_buf.content ∧ c₂.state.reading = .Closed := by
  have h₁ : ((Conn.new ⟨prefaceStream, [], [], []⟩ .Queue : Conn (List UInt8)).poll_read_head
      prefaceServer).map (fun p ↦ (p.1, p.2.upgrade_h2.content)) =
      some (.ready (some (.error (.Parse .VersionH2))), prefaceStream) := by decide +kernel
  have h₂ : ((Conn.new ⟨prefaceStream, [.upTo 11], [], []⟩ .Queue : Conn (List UInt8)).poll_read_head
      prefaceServer).map (fun p ↦ (p.1, (ascii "HTTP/1.1 400").isPrefixOf p.2.io.write_buf.content,
        p.2.state.reading)) =
      some (.pending, true, .Closed) := by decide +kernel
  obtain ⟨⟨r₁, c₁⟩, hc₁, hv₁⟩ := Option.map_eq_some_iff.mp h₁
  obtain ⟨⟨r₂, c₂⟩, hc₂, hv₂⟩ := Option.map_eq_some_iff.mp h₂
  simp only [Prod.mk.injEq] at hv₁ hv₂
  obtain ⟨rfl, hcontent⟩ := hv₁
  obtain ⟨rfl, h400, hclosed⟩ := hv₂
  exact ⟨c₁, c₂, hc₁, hcontent, hc₂, h400, hclosed⟩

end

end Hyper.H1
