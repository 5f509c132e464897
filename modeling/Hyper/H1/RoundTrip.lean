import Hyper.H1.DecodeRun
import Hyper.H1.Encode

/-!
# Encoding a body and decoding it again

A streamed body goes out as the pieces its writer hands over, each framed by `Encoder::encode`,
followed by what `Encoder::end` produces; the peer's `Decoder` reads it back.  This module shows
that the two framings of hyper agree with themselves, whatever the pieces and however the bytes
reach the decoder.

`Encoder.encodeAll` frames pieces one after another.  What it emits is computed once for each
kind (`wire_chunked`, `wire_length`), from the pieces' content: under the chunked coding every
piece becomes its chunk, `chunkOf`; under `Length L` the pieces are cut after `L` bytes in all.

The decoder's side is the byte machine of `Hyper.H1.DecodeRun`.  `run_chunkOf` runs it over one
chunk: the hex size line is read digit by digit back to the size (`run_hex`, with
`Numeral.value_digitList` for the arithmetic), the data is passed on, and the machine is back at
the start of a size line.  The terminator takes it to `End` (`run_last_chunk`), where it stops
reading.  `read_async_chunked` then carries the run over to `decode` under any delivery.
-/

set_option autoImplicit false

namespace Hyper.H1

open LawfulBuf

/-! ## What the encoder emits -/

namespace Encoder

variable {B : Type} [Buf B]

/-- The pieces of a body framed one after another, as the connection's `write_body` does for a
streamed body: the framed pieces, and the encoder after the last. -/
def encodeAll : Encoder → List B → List (EncodedBuf B) × Encoder
  | e, [] => ([], e)
  | e, m :: ms =>
    let x := e.encode m
    let y := encodeAll x.2 ms
    (x.1 :: y.1, y.2)

variable [LawfulBuf B]

/-- The bytes the framed pieces hand to the transport. -/
def wire (bufs : List (EncodedBuf B)) : List UInt8 := (bufs.map content).flatten

/-- The chunk that carries the bytes `c`: their size in hex, CRLF, the bytes, CRLF. -/
def chunkOf (c : List UInt8) : List UInt8 := fmt_upper_hex c.length ++ [CR, LF] ++ c ++ [CR, LF]

section Chunked

variable {e : Encoder} (he : e.kind = .Chunked)
include he

omit [LawfulBuf B] in
theorem encode_chunked (m : B) :
    e.encode m = (⟨.Chunked ⟨⟨ChunkSize.new (Buf.remaining m), m⟩, ascii "\r\n"⟩⟩, e) := by
  simp [encode, he]

/-- **Chunked framing.**  Under the chunked coding every piece becomes its chunk, and the
encoder does not change. -/
theorem wire_chunked (ms : List B) :
    wire (e.encodeAll ms).1 = (ms.map fun m ↦ chunkOf (content m)).flatten ∧
      (e.encodeAll ms).2 = e := by
  induction ms with
  | nil => exact ⟨rfl, rfl⟩
  | cons m ms ih =>
    obtain ⟨hwire, henc⟩ := ih
    simp only [encodeAll, encode_chunked he, wire, List.map_cons, List.flatten_cons] at hwire ⊢
    refine ⟨?_, henc⟩
    rw [hwire, EncodedBuf.content_chunked, ChunkSize.content_new, remaining_eq]
    rfl

omit [Buf B] [LawfulBuf B] in
theorem end_chunked : (e.end : Except NotEof (Option (EncodedBuf B))) =
    .ok (some ⟨.ChunkedEnd (ascii "0\r\n\r\n")⟩) := by
  simp [Encoder.end, he]

end Chunked

/-- **Length framing.**  A `Length L` encoder lets through the first `L` bytes of the pieces and
nothing after them, and is left owing whatever of `L` they did not reach. -/
theorem wire_length (ms : List B) :
    ∀ (L : ℕ) (last : Bool),
      wire (encodeAll ⟨.Length L, last⟩ ms).1 = (ms.map content).flatten.take L ∧
        (encodeAll ⟨.Length L, last⟩ ms).2 = ⟨.Length (L - ((ms.map content).flatten).length), last⟩ := by
  induction ms with
  | nil => intro L last; simp [encodeAll, wire]
  | cons m ms ih =>
    intro L last
    simp only [List.map_cons, List.flatten_cons, List.length_append]
    by_cases hgt : Buf.remaining m > L
    · -- the piece overruns `L`: it is cut, and nothing is let through after it
      have hcut : encode ⟨.Length L, last⟩ m = (⟨.Limited ⟨m, L⟩⟩, ⟨.Length 0, last⟩) := by
        simp [encode, hgt]
      obtain ⟨hwire, henc⟩ := ih 0 last
      rw [remaining_eq] at hgt
      simp only [encodeAll, hcut, wire, List.map_cons, List.flatten_cons] at hwire henc ⊢
      rw [hwire, henc, EncodedBuf.content_limited, List.take_zero, List.append_nil,
        List.take_append_of_le_length (by omega)]
      exact ⟨rfl, by congr 2; omega⟩
    · -- the piece fits: it goes through whole, and `L` shrinks by its length
      have hfit : encode ⟨.Length L, last⟩ m =
          (⟨.Exact m⟩, ⟨.Length (L - Buf.remaining m), last⟩) := by
        simp only [encode]
        rw [if_neg hgt]
      rw [remaining_eq] at hfit hgt
      obtain ⟨hwire, henc⟩ := ih (L - (content m).length) last
      simp only [encodeAll, hfit, wire, List.map_cons, List.flatten_cons] at hwire henc ⊢
      rw [hwire, henc, EncodedBuf.content_exact, List.take_append, Nat.sub_sub,
        List.take_of_length_le (l := content m) (by omega)]
      exact ⟨rfl, rfl⟩

omit [Buf B] [LawfulBuf B] in
/-- `end` succeeds on a `Length` encoder exactly when it owes nothing more. -/
theorem end_length_ok_iff {n : ℕ} {last : Bool} :
    (∃ x, (Encoder.end ⟨.Length n, last⟩ : Except NotEof (Option (EncodedBuf B))) = .ok x) ↔
      n = 0 := by
  cases n with
  | zero => simp [Encoder.end]
  | succ n => simp [Encoder.end]

end Encoder

/-! ## What the decoder makes of it -/

namespace ChunkedState

open Numeral

theorem read_size_hexSym (size : ℕ) {d : ℕ} (hd : d < 16) :
    read_size size (hexSym d) = accumulate size d := by
  rcases hexSym_cases d hd with ⟨h1, h2, h3⟩ | ⟨h1, h2, h3, h4⟩
  · rw [read_size, if_pos ⟨h1, h2⟩, h3]
  · rw [read_size, if_neg h1, if_neg h2, if_pos h3, h4]

/-- **A size line's digits are read back to the size**, as long as it fits a `u64`. -/
theorem run_hex : ∀ (ds : List ℕ) (a : ℕ), (∀ d ∈ ds, d < 16) → value 16 a ds < 2 ^ 64 →
    bytes.run (Size, a) (ds.map hexSym) = .ok ((Size, value 16 a ds), [], [])
  | [], _, _, _ => rfl
  | d :: ds, a, hds, hv => by
    -- the size only grows, so the digits so far fit too
    have hfit : a * 16 + d < 2 ^ 64 := lt_of_le_of_lt (le_value (by norm_num) _ ds) hv
    have hbyte : Size.onByte a (hexSym d) = (.ok Size, a * 16 + d) := by
      rw [onByte, read_size_hexSym a (hds d (by simp)), accumulate_ok hfit]
    rw [List.map_cons, run_byte (by decide) (by decide) hbyte]
    exact run_hex ds _ (fun d' hd' ↦ hds d' (by simp [hd'])) hv

/-- The size line of a chunk of `n` bytes takes the machine from the start of a size line to
`Body`, owing `n`. -/
theorem run_size_line {n : ℕ} (hn0 : 0 < n) (hn : n < 2 ^ 64) :
    bytes.run (Size, 0) (fmt_upper_hex n ++ [CR, LF]) = .ok ((Body, n), [], []) := by
  have hdigits : bytes.run (Size, 0) (fmt_upper_hex n) = .ok ((Size, n), [], []) := by
    have h := run_hex (digitList 16 n) 0 (fun d hd ↦ lt_of_mem_digitList (by norm_num) hd)
      (by simpa using hn)
    rwa [value_digitList] at h
  have hcr : Size.onByte n CR = (.ok SizeLf, n) := by
    simp [onByte, read_size, CR]
  have hlf : SizeLf.onByte n LF = (.ok Body, n) := by
    simp [onByte, read_size_lf, Nat.pos_iff_ne_zero.mp hn0]
  have hline : bytes.run (Size, n) [CR, LF] = .ok ((Body, n), [], []) := by
    rw [run_byte (by decide) (by decide) hcr, run_byte (by decide) (by decide) hlf]
    rfl
  simpa using Transducer.run_append_of_ok hdigits hline

/-- **One chunk.**  The machine reads a chunk of the bytes `c` from the start of a size line,
passes `c` on, and is back at the start of a size line. -/
theorem run_chunkOf {c : List UInt8} (hc0 : c ≠ []) (hc : c.length < 2 ^ 64) :
    bytes.run (Size, 0) (Encoder.chunkOf c) = .ok ((Size, 0), c, []) := by
  have hlen : 0 < c.length := List.length_pos_iff.mpr hc0
  have hbody : bytes.run (Body, c.length) c = .ok ((BodyCr, 0), c, []) := by
    have := run_body c hlen (Nat.le_refl _) (Nat.le_refl _)
    rwa [List.take_length, Nat.sub_self, if_neg (Nat.lt_irrefl 0)] at this
  have hcrlf : bytes.run (BodyCr, 0) [CR, LF] = .ok ((Size, 0), [], []) := by
    have hcr : BodyCr.onByte 0 CR = (.ok BodyLf, 0) := rfl
    have hlf : BodyLf.onByte 0 LF = (.ok Size, 0) := rfl
    rw [run_byte (by decide) (by decide) hcr, run_byte (by decide) (by decide) hlf]
    rfl
  have h := Transducer.run_append_of_ok (run_size_line hlen hc)
    (Transducer.run_append_of_ok hbody hcrlf)
  simpa [Encoder.chunkOf, List.append_assoc] using h

/-- Chunks one after another: their bytes, in order. -/
theorem run_chunks (cs : List (List UInt8)) (hcs : ∀ c ∈ cs, c ≠ [] ∧ c.length < 2 ^ 64)
    (tail : List UInt8) :
    bytes.run (Size, 0) ((cs.map Encoder.chunkOf).flatten ++ tail) =
      Transducer.prefixOut cs.flatten (bytes.run (Size, 0) tail) := by
  induction cs with
  | nil => simp
  | cons c cs ih =>
    obtain ⟨hc0, hc⟩ := hcs c (by simp)
    rw [List.map_cons, List.flatten_cons, List.append_assoc,
      Transducer.run_append (run_chunkOf hc0 hc), ih (fun c' hc' ↦ hcs c' (by simp [hc'])),
      Transducer.prefixOut_prefixOut, List.flatten_cons]

/-- **The last chunk.**  `0\r\n\r\n` ends the body, and nothing after it is read. -/
theorem run_last_chunk (rest : List UInt8) :
    bytes.run (Size, 0) (ascii "0\r\n\r\n" ++ rest) = .ok ((End, 0), [], rest) := by
  have hlast : bytes.run (Size, 0) (ascii "0\r\n\r\n") = .ok ((End, 0), [], []) := by decide
  rw [Transducer.run_append_of_ok hlast (run_end rest)]
  rfl

end ChunkedState

/-! ## The round trip -/

section RoundTrip

open ChunkedState Encoder

variable {B : Type} [Buf B] [LawfulBuf B]

/-- **Chunked round trip.**  The chunks `encode` makes of non-empty pieces, and the last chunk
`end` makes, read back through any delivery plan: the decoder returns non-empty slices that make
up the pieces' bytes, ends with `is_eof`, and leaves exactly the bytes that follow. -/
theorem chunked_round_trip (ms : List B)
    (hms : ∀ m ∈ ms, content m ≠ [] ∧ (content m).length < 2 ^ 64)
    (rest : List UInt8) (plan : List Delivery) :
    ∃ last : EncodedBuf B, (chunked.encodeAll ms).2.end = .ok (some last) ∧
      ∀ fuel, (wire (chunked.encodeAll ms).1 ++ content last ++ rest).length + plan.length < fuel →
        ∃ ss d plan', Decoder.chunked.read_async 64 fuel
            (⟨wire (chunked.encodeAll ms).1 ++ content last ++ rest, plan⟩ : Feed) =
            some (ss, d, (⟨rest, plan'⟩ : Feed)) ∧
          ss.flatten = (ms.map content).flatten ∧ (∀ s ∈ ss, s ≠ []) ∧ d.is_eof = true := by
  obtain ⟨hwire, henc⟩ := wire_chunked (e := chunked) rfl ms
  refine ⟨⟨.ChunkedEnd (ascii "0\r\n\r\n")⟩, by rw [henc]; exact end_chunked rfl, ?_⟩
  intro fuel hfuel
  have hcs : ∀ c ∈ ms.map content, c ≠ [] ∧ c.length < 2 ^ 64 := by
    simpa using hms
  have hrun : bytes.run (Size, 0) (wire (chunked.encodeAll ms).1 ++
      content (⟨.ChunkedEnd (ascii "0\r\n\r\n")⟩ : EncodedBuf B) ++ rest) =
      .ok ((End, 0), (ms.map content).flatten, rest) := by
    have hchunks : ms.map (fun m ↦ chunkOf (content m)) = (ms.map content).map chunkOf := by
      rw [List.map_map]
      rfl
    rw [hwire, EncodedBuf.content_chunkedEnd, List.append_assoc, hchunks, run_chunks _ hcs,
      run_last_chunk, Transducer.prefixOut, List.append_nil]
  obtain ⟨ss, plan', hread, hflat⟩ := Decoder.read_async_chunked (w := 64) (f := ⟨_, plan⟩) (by norm_num) hrun hfuel
  exact ⟨ss, _, plan', hread, hflat, Decoder.read_async_nonempty hread, rfl⟩

/-- **Length round trip.**  A `Length L` encoder emits the first `L` bytes of the pieces; its `end`
succeeds exactly when the pieces reached `L`; and then `Decoder::length(L)` reads those bytes back
through any delivery plan, ends with `is_eof`, and leaves exactly the bytes that follow. -/
theorem length_round_trip {L : ℕ} (hL : L < 2 ^ 64) (ms : List B) (rest : List UInt8)
    (plan : List Delivery) :
    wire ((length L).encodeAll ms).1 = (ms.map content).flatten.take L ∧
      ((∃ x, ((length L).encodeAll ms).2.end = (.ok x : Except NotEof (Option (EncodedBuf B)))) ↔
        L ≤ (ms.map content).flatten.length) ∧
      (L ≤ (ms.map content).flatten.length → ∀ fuel,
        (wire ((length L).encodeAll ms).1 ++ rest).length + plan.length < fuel →
        ∃ ss d plan', (Decoder.length L).read_async 64 fuel
            (⟨wire ((length L).encodeAll ms).1 ++ rest, plan⟩ : Feed) =
            some (ss, d, (⟨rest, plan'⟩ : Feed)) ∧
          ss.flatten = wire ((length L).encodeAll ms).1 ∧ (∀ s ∈ ss, s ≠ []) ∧
          d.is_eof = true) := by
  obtain ⟨hwire, henc⟩ := wire_length ms L false
  refine ⟨hwire, ?_, ?_⟩
  · rw [show length L = ⟨.Length L, false⟩ from rfl, henc, end_length_ok_iff]
    omega
  · intro htotal fuel hfuel
    have hlen : (wire ((length L).encodeAll ms).1).length = L := by
      rw [show length L = ⟨.Length L, false⟩ from rfl, hwire, List.length_take]
      omega
    obtain ⟨ss, plan', hread, hflat⟩ :=
      Decoder.read_async_length (w := 64) hL (f := ⟨wire ((length L).encodeAll ms).1 ++ rest, plan⟩)
        (by simp [hlen]) hfuel
    rw [List.drop_left' hlen] at hread
    rw [List.take_left' hlen] at hflat
    exact ⟨ss, _, plan', hread, hflat, Decoder.read_async_nonempty hread, rfl⟩

/-- **Framing round trip**, chunked and by length. -/
theorem framing_round_trip (ms : List B)
    (hms : ∀ m ∈ ms, content m ≠ [] ∧ (content m).length < 2 ^ 64) (L : ℕ) (hL : L < 2 ^ 64)
    (ns : List B) (rest : List UInt8) (plan : List Delivery) :
    (∃ last : EncodedBuf B, (chunked.encodeAll ms).2.end = .ok (some last) ∧
      ∀ fuel, (wire (chunked.encodeAll ms).1 ++ content last ++ rest).length + plan.length < fuel →
        ∃ ss d plan', Decoder.chunked.read_async 64 fuel
            (⟨wire (chunked.encodeAll ms).1 ++ content last ++ rest, plan⟩ : Feed) =
            some (ss, d, (⟨rest, plan'⟩ : Feed)) ∧
          ss.flatten = (ms.map content).flatten ∧ (∀ s ∈ ss, s ≠ []) ∧ d.is_eof = true) ∧
    (wire ((length L).encodeAll ns).1 = (ns.map content).flatten.take L ∧
      ((∃ x, ((length L).encodeAll ns).2.end = (.ok x : Except NotEof (Option (EncodedBuf B)))) ↔
        L ≤ (ns.map content).flatten.length) ∧
      (L ≤ (ns.map content).flatten.length → ∀ fuel,
        (wire ((length L).encodeAll ns).1 ++ rest).length + plan.length < fuel →
        ∃ ss d plan', (Decoder.length L).read_async 64 fuel
            (⟨wire ((length L).encodeAll ns).1 ++ rest, plan⟩ : Feed) =
            some (ss, d, (⟨rest, plan'⟩ : Feed)) ∧
          ss.flatten = wire ((length L).encodeAll ns).1 ∧ (∀ s ∈ ss, s ≠ []) ∧
          d.is_eof = true)) :=
  ⟨chunked_round_trip ms hms rest plan, length_round_trip hL ns rest plan⟩

theorem framing_round_trip_one_byte :
    (∀ m ∈ [[(65 : UInt8)]], content m ≠ [] ∧ (content m).length < 2 ^ 64) ∧ 1 < 2 ^ 64 ∧
    ((∃ last : EncodedBuf (List UInt8), (chunked.encodeAll [[(65 : UInt8)]]).2.end = .ok (some last) ∧
      ∀ fuel, (wire (chunked.encodeAll [[(65 : UInt8)]]).1 ++ content last ++ []).length + 0 < fuel →
        ∃ ss d plan', Decoder.chunked.read_async 64 fuel
            (⟨wire (chunked.encodeAll [[(65 : UInt8)]]).1 ++ content last ++ [], []⟩ : Feed) =
            some (ss, d, (⟨[], plan'⟩ : Feed)) ∧
          ss.flatten = ([[(65 : UInt8)]].map content).flatten ∧ (∀ s ∈ ss, s ≠ []) ∧
          d.is_eof = true) ∧
    (wire ((length 1).encodeAll [[(65 : UInt8)]]).1 = ([[(65 : UInt8)]].map content).flatten.take 1 ∧
      ((∃ x, ((length 1).encodeAll [[(65 : UInt8)]]).2.end =
          (.ok x : Except NotEof (Option (EncodedBuf (List UInt8))))) ↔
        1 ≤ ([[(65 : UInt8)]].map content).flatten.length) ∧
      (1 ≤ ([[(65 : UInt8)]].map content).flatten.length → ∀ fuel,
        (wire ((length 1).encodeAll [[(65 : UInt8)]]).1 ++ []).length + 0 < fuel →
        ∃ ss d plan', (Decoder.length 1).read_async 64 fuel
            (⟨wire ((length 1).encodeAll [[(65 : UInt8)]]).1 ++ [], []⟩ : Feed) =
            some (ss, d, (⟨[], plan'⟩ : Feed)) ∧
          ss.flatten = wire ((length 1).encodeAll [[(65 : UInt8)]]).1 ∧ (∀ s ∈ ss, s ≠ []) ∧
          d.is_eof = true))) :=
  ⟨by decide, by norm_num, framing_round_trip [[65]] (by decide) 1 (by norm_num) [[65]] [] []⟩

end RoundTrip

end Hyper.H1
