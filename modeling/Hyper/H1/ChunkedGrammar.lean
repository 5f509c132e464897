import Hyper.H1.Decode

/-!
# The chunked-body grammar, and a size line with no digits

RFC 7230 §4.1 gives the chunked transfer coding as a grammar:

    chunked-body = *chunk last-chunk trailer-part CRLF
    chunk        = chunk-size [ chunk-ext ] CRLF chunk-data CRLF
    chunk-size   = 1*HEXDIG
    last-chunk   = 1*("0") [ chunk-ext ] CRLF

`IsChunkedBody` states it over bytes, with the liberties `decode` takes on purpose: blanks after
the size, an extension read as any bytes up to the CR, and trailer lines read as any non-empty
run of bytes other than CR.  It is the specification the decoder is measured against.

The decoder does not demand the one hex digit that `chunk-size` requires.  `read_size` goes to
`SizeLf` on a CR whatever it has read before, and `read_size_lf` takes a size of zero for the
last chunk, so a size line that is only `CRLF` — or only blanks, or only an extension — ends the
body.  `sizeless_last_chunk_ends_body` runs the decoder on `CRLF CRLF`: it returns the empty
slice of a finished body although no prefix of the input is a chunked body.  A peer that frames
the same bytes by the grammar disagrees with hyper about where the body ends.
-/

set_option autoImplicit false

namespace Hyper.H1

/-! ## The grammar -/

/-- `HEXDIG`, either case. -/
def IsHexDigit (b : UInt8) : Prop := (48 ≤ b ∧ b ≤ 57) ∨ (97 ≤ b ∧ b ≤ 102) ∨ (65 ≤ b ∧ b ≤ 70)

instance (b : UInt8) : Decidable (IsHexDigit b) := inferInstanceAs (Decidable (_ ∨ _))

/-- The value of a hex digit. -/
def hexValue (b : UInt8) : ℕ :=
  if b ≤ 57 then b.toNat - 48 else if b ≤ 70 then b.toNat - 55 else b.toNat - 87

/-- The value of a run of hex digits, most significant first. -/
def hexNumber (ds : List UInt8) : ℕ := ds.foldl (fun a d ↦ a * 16 + hexValue d) 0

/-- What may follow the size on its line: blanks, then optionally `;` and an extension that holds
no CR or LF. -/
def IsSizeTail (t : List UInt8) : Prop :=
  ∃ ws ext, t = ws ++ ext ∧ (∀ b ∈ ws, b = 32 ∨ b = 9) ∧
    (ext = [] ∨ ∃ e, ext = 59 :: e ∧ ∀ b ∈ e, b ≠ CR ∧ b ≠ LF)

/-- `chunk`: a size of one or more hex digits worth more than zero and less than `2 ^ 64`, its
line, and exactly that many bytes of data followed by CRLF. -/
def IsChunk (x : List UInt8) : Prop :=
  ∃ ds t data, x = ds ++ t ++ [CR, LF] ++ data ++ [CR, LF] ∧ ds ≠ [] ∧ (∀ d ∈ ds, IsHexDigit d) ∧
    IsSizeTail t ∧ 0 < hexNumber ds ∧ hexNumber ds < 2 ^ 64 ∧ data.length = hexNumber ds

/-- `last-chunk`: one or more `0`s and the rest of the size line. -/
def IsLastChunk (x : List UInt8) : Prop :=
  ∃ zs t, x = zs ++ t ++ [CR, LF] ∧ zs ≠ [] ∧ (∀ z ∈ zs, z = 48) ∧ IsSizeTail t

/-- A trailer line: a non-empty run of bytes other than CR, and CRLF. -/
def IsTrailerLine (x : List UInt8) : Prop := ∃ l, x = l ++ [CR, LF] ∧ l ≠ [] ∧ CR ∉ l

/-- `chunked-body`: chunks, the last chunk, trailer lines, and the final CRLF. -/
def IsChunkedBody (x : List UInt8) : Prop :=
  ∃ (cs : List (List UInt8)) (last : List UInt8) (ts : List (List UInt8)),
    x = cs.flatten ++ last ++ ts.flatten ++ [CR, LF] ∧ (∀ c ∈ cs, IsChunk c) ∧
    IsLastChunk last ∧ ∀ t ∈ ts, IsTrailerLine t

/-! ## Every chunked body starts with a digit -/

theorem IsChunk.head {x : List UInt8} (h : IsChunk x) : ∃ d rest, x = d :: rest ∧ IsHexDigit d := by
  obtain ⟨ds, t, data, rfl, hne, hhex, -⟩ := h
  obtain ⟨d, ds', rfl⟩ := List.exists_cons_of_ne_nil hne
  exact ⟨d, ds' ++ t ++ [CR, LF] ++ data ++ [CR, LF], by simp, hhex d (by simp)⟩

theorem IsLastChunk.head {x : List UInt8} (h : IsLastChunk x) : ∃ rest, x = 48 :: rest := by
  obtain ⟨zs, t, rfl, hne, hz, -⟩ := h
  obtain ⟨z, zs', rfl⟩ := List.exists_cons_of_ne_nil hne
  exact ⟨zs' ++ t ++ [CR, LF], by simp [hz z (by simp)]⟩

/-- A chunked body begins with a hex digit: with its first chunk's size, or with the `0` of the
last chunk. -/
theorem IsChunkedBody.head {x : List UInt8} (h : IsChunkedBody x) :
    ∃ d rest, x = d :: rest ∧ IsHexDigit d := by
  obtain ⟨cs, last, ts, rfl, hcs, hlast, -⟩ := h
  cases cs with
  | nil =>
    obtain ⟨rest, rfl⟩ := hlast.head
    exact ⟨48, rest ++ ts.flatten ++ [CR, LF], by simp, by decide⟩
  | cons c cs =>
    obtain ⟨d, rest, rfl, hd⟩ := (hcs c (by simp)).head
    exact ⟨d, rest ++ cs.flatten ++ last ++ ts.flatten ++ [CR, LF], by simp, hd⟩

/-! ## The decoder ends a body on a size line without digits -/

/-- **A size line of CRLF alone is taken for the last chunk.**  Decoding `CRLF CRLF` from the start
of a chunked body returns the empty slice that marks the end of the body and leaves the decoder
at its end (`is_eof`), yet no prefix of these bytes is a chunked body. -/
theorem sizeless_last_chunk_ends_body :
    (Decoder.chunked.decode 64 (⟨[CR, LF, CR, LF], []⟩ : Feed)).1 = .ready (.ok []) ∧
      (Decoder.chunked.decode 64 (⟨[CR, LF, CR, LF], []⟩ : Feed)).2.1.is_eof = true ∧
      ¬ ∃ x, x <+: [CR, LF, CR, LF] ∧ IsChunkedBody x := by
  refine ⟨by decide, by decide, ?_⟩
  rintro ⟨x, hpre, hbody⟩
  obtain ⟨d, rest, rfl, hd⟩ := hbody.head
  obtain ⟨u, hu⟩ := hpre
  have hcr : d = CR := by simpa using congrArg List.head? hu
  subst hcr
  revert hd
  decide

end Hyper.H1
