import Hyper.Proto

/-!
# Collecting a body (`body::to_bytes`, `body/to_bytes.rs`)

`to_bytes` polls the body for a first and a second frame; with fewer it returns what it has.
With two it reserves `first.remaining() + second.remaining() + size_hint().lower() as usize` bytes
and appends every further frame.  A body is seen here as what `to_bytes` reads of it
(`Frames`): the frames `data()` yields until `None`, and the lower bound of the size hint after
the first two.  The sums are `usize` ones, wrapping at the word size `w`, and
`Vec::with_capacity` panics ("capacity overflow") on more than `isize::MAX` bytes.

## What is here

* `collect` — what collecting a body means: the chunks joined, or the first error.
* `to_bytes_eq_some_collect` — whenever `to_bytes` returns, it returns `collect` of the frames.
* `to_bytes_eq_none_iff` — it panics exactly when there are two chunks and the capacity is past
  `isize::MAX`.
* `Chan` — the body of a connection (`Kind::Chan`), whose hint is the exact remaining length of
  the declared `Content-Length` (`Body::size_hint`, `DecodedLength::sub_if`).  A peer that
  declares `2^63 + 2` bytes and sends two one-byte chunks makes `to_bytes` panic on a 64-bit
  target (`to_bytes_capacity_overflow`), whatever follows.
-/

set_option autoImplicit false

namespace Hyper

namespace DecodedLength

/-- `DecodedLength::into_opt`. -/
def into_opt (d : DecodedLength) : Option ℕ :=
  if d = CHUNKED ∨ d = CLOSE_DELIMITED then none else some d.val

/-- `DecodedLength::sub_if`; `*known -= amt` is a `u64` subtraction of `chunk.len() as u64`. -/
def sub_if (d : DecodedLength) (amt : ℕ) : DecodedLength :=
  if d = CHUNKED ∨ d = CLOSE_DELIMITED then d else ⟨(d.val + 2 ^ 64 - amt % 2 ^ 64) % 2 ^ 64⟩

end DecodedLength

namespace Body

/-- `http_body::SizeHint`. -/
structure SizeHint where
  lower : UInt64
  upper : Option UInt64
  deriving DecidableEq, Repr

/-- `SizeHint::default`. -/
def SizeHint.default : SizeHint := ⟨0, none⟩

/-- `SizeHint::with_exact`. -/
def SizeHint.with_exact (n : UInt64) : SizeHint := ⟨n, some n⟩

/-- A body as `to_bytes` reads it: the frames `data()` yields before `None`, and the lower bound
`size_hint()` reports once the first two are taken. -/
structure Frames (E : Type) where
  frames : List (Except E (List UInt8))
  lower_after_two : UInt64

variable {E : Type}

/-- `to_bytes` on a `w`-bit target; `none` is the panic of `Vec::with_capacity`. -/
def to_bytes (w : ℕ) (body : Frames E) : Option (Except E (List UInt8)) :=
  match body.frames with
  | [] => some (.ok [])
  | .error e :: _ => some (.error e)
  | [.ok first] => some (.ok first)
  | .ok _ :: .error e :: _ => some (.error e)
  | .ok first :: .ok second :: rest =>
    let cap := (first.length + second.length + body.lower_after_two.toNat % 2 ^ w) % 2 ^ w
    if 2 ^ (w - 1) ≤ cap then none
    else some (rest.foldlM (fun vec buf ↦ buf.map (vec ++ ·)) (first ++ second))

/-! ## What `to_bytes` returns -/

/-- The chunks of a body joined, or its first error. -/
def collect : List (Except E (List UInt8)) → Except E (List UInt8)
  | [] => .ok []
  | .error e :: _ => .error e
  | .ok chunk :: rest => (collect rest).map (chunk ++ ·)

/-- A body of chunks alone collects to their concatenation. -/
theorem collect_map_ok (chunks : List (List UInt8)) :
    collect (chunks.map (.ok : List UInt8 → Except E (List UInt8))) = .ok chunks.flatten := by
  induction chunks with
  | nil => rfl
  | cons chunk chunks ih => simp [collect, ih, Except.map]

/-- The loop after the second frame appends the collected rest to what it holds. -/
theorem foldlM_append_collect (rest : List (Except E (List UInt8))) (vec : List UInt8) :
    rest.foldlM (fun vec buf ↦ buf.map (vec ++ ·)) vec = (collect rest).map (vec ++ ·) := by
  induction rest generalizing vec with
  | nil =>
    simp only [List.foldlM_nil, collect, Except.map, List.append_nil]
    rfl
  | cons buf rest ih =>
    cases buf with
    | error e => rfl
    | ok chunk =>
      rw [List.foldlM_cons, collect]
      show rest.foldlM _ (vec ++ chunk) = _
      rw [ih]
      cases collect rest <;> simp [Except.map]

/-- **Whenever `to_bytes` returns**, it returns the chunks joined, or the first error unchanged. -/
theorem to_bytes_eq_some_collect {w : ℕ} {body : Frames E} {r : Except E (List UInt8)}
    (h : to_bytes w body = some r) : r = collect body.frames := by
  unfold to_bytes at h
  split at h
  case h_5 first second rest hframes =>
    dsimp only at h
    split_ifs at h
    obtain rfl := Option.some.inj h
    rw [hframes, foldlM_append_collect]
    simp only [collect]
    cases collect rest <;> simp [Except.map]
  all_goals
    obtain rfl := Option.some.inj h
    simp_all [collect, Except.map]

/-- **`to_bytes` panics** exactly when the body has two chunks and the capacity they and the
hint ask for is past `isize::MAX`. -/
theorem to_bytes_eq_none_iff (w : ℕ) (body : Frames E) :
    to_bytes w body = none ↔ ∃ first second rest,
      body.frames = .ok first :: .ok second :: rest ∧
        2 ^ (w - 1) ≤ (first.length + second.length + body.lower_after_two.toNat % 2 ^ w) % 2 ^ w := by
  unfold to_bytes
  split
  case h_5 first second rest hframes =>
    dsimp only
    split_ifs with hcap
    · exact iff_of_true rfl ⟨first, second, rest, hframes, hcap⟩
    · refine iff_of_false (by simp) ?_
      rintro ⟨first', second', rest', hframes', hcap'⟩
      rw [hframes] at hframes'
      simp only [List.cons.injEq, Except.ok.injEq] at hframes'
      obtain ⟨rfl, rfl, rfl⟩ := hframes'
      exact hcap hcap'
  all_goals
    refine iff_of_false (by simp) ?_
    rintro ⟨first', second', rest', hframes', -⟩
    simp_all

/-! ## The body of a connection -/

/-- A `Kind::Chan` body: the length still declared, and the frames still to come on `data_rx`. -/
structure Chan (E : Type) where
  content_length : DecodedLength
  data_rx : List (Except E (List UInt8))

namespace Chan

/-- `Body::poll_inner` on a channel: a chunk is taken off the declared length. -/
def poll_inner (c : Chan E) : Option (Except E (List UInt8)) × Chan E :=
  match c.data_rx with
  | [] => (none, c)
  | .ok chunk :: rest => (some (.ok chunk), ⟨c.content_length.sub_if chunk.length, rest⟩)
  | .error e :: rest => (some (.error e), ⟨c.content_length, rest⟩)

/-- The `opt_len!` macro of `Body::size_hint`: exact when the length is known. -/
def opt_len (content_length : DecodedLength) : SizeHint :=
  match content_length.into_opt with
  | some content_length => SizeHint.with_exact content_length.toUInt64
  | none => SizeHint.default

/-- `Body::size_hint` on a channel. -/
def size_hint (c : Chan E) : SizeHint := opt_len c.content_length

/-- What `to_bytes` reads of a channel: its frames, and the hint after two polls. -/
def frames (c : Chan E) : Frames E :=
  ⟨c.data_rx, c.poll_inner.2.poll_inner.2.size_hint.lower⟩

/-- After two chunks the hint is what is left of the declared length. -/
theorem frames_lower_after_two (d : DecodedLength) (first second : List UInt8)
    (rest : List (Except E (List UInt8))) :
    (frames ⟨d, .ok first :: .ok second :: rest⟩).lower_after_two =
      (opt_len ((d.sub_if first.length).sub_if second.length)).lower := rfl

end Chan

theorem to_bytes_capacity_overflow :
    (2 ^ 63 + 2 ≤ DecodedLength.MAX_LEN) ∧
    (∀ rest : List (Except E (List UInt8)),
      to_bytes 64 (Chan.frames ⟨⟨2 ^ 63 + 2⟩, .ok [0] :: .ok [0] :: rest⟩) = none) ∧
    (∀ rest : List (Except E (List UInt8)), to_bytes 64 ⟨.ok [0] :: .ok [0] :: rest, 2 ^ 63⟩ = none) ∧
    (∀ rest : List (Except E (List UInt8)), to_bytes 32 ⟨.ok [0] :: .ok [0] :: rest, 2 ^ 31⟩ = none) := by
  refine ⟨by unfold DecodedLength.MAX_LEN; omega, fun rest ↦ ?_, fun rest ↦ ?_, fun rest ↦ ?_⟩
  · refine (to_bytes_eq_none_iff 64 _).mpr ⟨[0], [0], rest, rfl, ?_⟩
    rw [Chan.frames_lower_after_two]
    decide +kernel
  · exact (to_bytes_eq_none_iff 64 _).mpr ⟨[0], [0], rest, rfl, by dsimp only; decide +kernel⟩
  · exact (to_bytes_eq_none_iff 32 _).mpr ⟨[0], [0], rest, rfl, by dsimp only; decide +kernel⟩

end Body

end Hyper
