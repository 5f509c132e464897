import Hyper.H1.Role.ServerWrite

/-!
# The header loop of `Server::encode_headers` over two writers

`Server::encode_headers` is generic in its `HeaderNameWriter`.  This file compares two runs of
the loop that differ only in the writer: if a map `α` between the writers takes each call the loop
makes to the same call with the same bytes (`Commutes`), the two runs agree step by step.  What a
step does to the writer is stated once, for any writer (`StepsBy`): at most one call, for the
entry's name, and a call for a framing name or `DATE` sets its flag.

* `Commutes.encodeValue`, `Commutes.encodeEnd`: one value, and the end of the loop, under `α`;
* `stepsBy_encodeValue`, `encodeFraming_writer`: the footprint of a value and of the framing.

`HeaderCase.lean` uses both to show that `OrigCaseWriter` spells the `k`-th call for a name as
the `k`-th spelling recorded.
-/

set_option autoImplicit false

namespace Hyper.H1.Server.Impl

open HeaderName

/-- Closing an open line leaves the flags as they are. -/
theorem wrote_len_handle_is_name_written (s : HeaderLoop) :
    s.handle_is_name_written.wrote_len = s.wrote_len := by
  unfold HeaderLoop.handle_is_name_written
  split <;> rfl

theorem wrote_date_handle_is_name_written (s : HeaderLoop) :
    s.handle_is_name_written.wrote_date = s.wrote_date := by
  unfold HeaderLoop.handle_is_name_written
  split <;> rfl

section MapWriter

variable {W₁ W₂ : Type}

/-- The loop's variables with the writer seen through `α`. -/
def Writing.mapWriter (α : W₂ → W₁) (s : Writing W₂) : Writing W₁ :=
  ⟨s.toHeaderLoop, α s.writer⟩

@[simp] theorem toHeaderLoop_mapWriter (α : W₂ → W₁) (s : Writing W₂) :
    (s.mapWriter α).toHeaderLoop = s.toHeaderLoop := rfl

@[simp] theorem writer_mapWriter (α : W₂ → W₁) (s : Writing W₂) :
    (s.mapWriter α).writer = α s.writer := rfl

variable [HeaderNameWriter W₁] [HeaderNameWriter W₂]

/-- `α` takes each call for `name` from `w` to the same call from `α w`, with the same bytes. -/
structure Commutes (α : W₂ → W₁) (w : W₂) (name : HeaderName) : Prop where
  full_header_line : ∀ line rest,
    HeaderNameWriter.write_full_header_line (α w) line (name, rest) =
      Prod.map α id (HeaderNameWriter.write_full_header_line w line (name, rest))
  with_colon : ∀ name_with_colon,
    HeaderNameWriter.write_header_name_with_colon (α w) name_with_colon name =
      Prod.map α id (HeaderNameWriter.write_header_name_with_colon w name_with_colon name)
  header_name : HeaderNameWriter.write_header_name (α w) name =
    Prod.map α id (HeaderNameWriter.write_header_name w name)

variable {α : W₂ → W₁} {s : Writing W₂} {name : HeaderName}

theorem Commutes.write_header_name (h : Commutes α s.writer name) :
    (s.mapWriter α).write_header_name name = (s.write_header_name name).mapWriter α := by
  simp only [Writing.write_header_name, Writing.mapWriter, h.header_name]
  rfl

theorem Commutes.write_header_name_with_colon (h : Commutes α s.writer name)
    (name_with_colon : List UInt8) :
    (s.mapWriter α).write_header_name_with_colon name_with_colon name =
      (s.write_header_name_with_colon name_with_colon name).mapWriter α := by
  simp only [Writing.write_header_name_with_colon, Writing.mapWriter, h.with_colon]
  rfl

theorem Commutes.write_full_header_line (h : Commutes α s.writer name) (line rest : List UInt8) :
    (s.mapWriter α).write_full_header_line line (name, rest) =
      (s.write_full_header_line line (name, rest)).mapWriter α := by
  simp only [Writing.write_full_header_line, Writing.mapWriter, h.full_header_line]
  rfl

theorem Commutes.writeLine (h : Commutes α s.writer name) (value : HeaderValue) :
    (s.mapWriter α).writeLine name value = (s.writeLine name value).mapWriter α := by
  rw [Writing.writeLine, h.write_header_name]
  rfl

variable (ctx : EncodeCtx) (head : MessageHead StatusCode) (body : Option BodyLength)
  (orig_len : ℕ)
  (value : HeaderValue)

theorem Commutes.encodeContentLength (h : Commutes α s.writer CONTENT_LENGTH) :
    encodeContentLength ctx body orig_len (s.mapWriter α) value =
      (encodeContentLength ctx body orig_len s value).map (Writing.mapWriter α) := by
  have hc := h.write_header_name_with_colon (ascii "content-length: ")
  have hl := Commutes.writeLine (s := { s with wrote_len := true }) h value
  unfold Impl.encodeContentLength
  dsimp only [Writing.mapWriter] at hc hl ⊢
  by_cases hlen : (s.wrote_len && !s.is_name_written) = true
  · simp only [hlen, ↓reduceIte]
    rfl
  simp only [hlen, Bool.false_eq_true, ↓reduceIte]
  rcases body with _ | known | _
  · by_cases hm : ctx.req_method = some Method.HEAD
    · simp only [hm, ↓reduceIte, hl]
      rfl
    · simp only [hm, ↓reduceIte]
      rfl
  · by_cases hw : (!s.is_name_written) = true
    · simp only [hw, ↓reduceIte, hc]
      rfl
    · simp only [hw, Bool.false_eq_true, ↓reduceIte]
      rfl
  · rcases headers.content_length_parse value with _ | len
    · rfl
    rcases hprev : s.prev_con_len with _ | prev
    · simp only [hc]
      rfl
    by_cases hp : prev = len
    · simp only [hp, ne_eq, not_true_eq_false, ↓reduceIte]
      rfl
    · simp only [hp, ne_eq, not_false_eq_true, ↓reduceIte]
      rfl

theorem Commutes.encodeTransferEncoding (h : Commutes α s.writer TRANSFER_ENCODING) :
    encodeTransferEncoding ctx head orig_len (s.mapWriter α) value =
      (encodeTransferEncoding ctx head orig_len s value).map (Writing.mapWriter α) := by
  have hc := Commutes.write_header_name_with_colon
    (s := { s with wrote_len := true, must_write_chunked := !headers.is_chunked_ value }) h
    (ascii "transfer-encoding: ")
  unfold Impl.encodeTransferEncoding
  dsimp only [Writing.mapWriter] at hc ⊢
  by_cases hlen : (s.wrote_len && !s.is_name_written) = true
  · simp only [hlen, ↓reduceIte]
    rfl
  simp only [hlen, Bool.false_eq_true, ↓reduceIte]
  by_cases hv : (head.version = .HTTP_10 || !can_chunked ctx.req_method head.subject) = true
  · simp only [hv, ↓reduceIte]
    rfl
  simp only [hv, Bool.false_eq_true, ↓reduceIte]
  by_cases hw : (!s.is_name_written) = true
  · simp only [hw, ↓reduceIte, hc]
    rfl
  · simp only [hw, Bool.false_eq_true, ↓reduceIte]
    rfl

theorem Commutes.encodeConnection (h : Commutes α s.writer CONNECTION) :
    encodeConnection (s.mapWriter α) value = (encodeConnection s value).mapWriter α := by
  -- `is_last` is set the same way on both sides and leaves the writer as it is
  have hlast : (if (!(s.mapWriter α).is_last && headers.connection_close value) = true then
      { s.mapWriter α with is_last := true } else s.mapWriter α) =
      (if (!s.is_last && headers.connection_close value) = true then { s with is_last := true }
        else s).mapWriter α := by
    by_cases hc : (!s.is_last && headers.connection_close value) = true
    · simp only [toHeaderLoop_mapWriter, hc, ↓reduceIte]
      rfl
    · simp only [toHeaderLoop_mapWriter, hc, Bool.false_eq_true, ↓reduceIte]
  unfold Impl.encodeConnection
  rw [hlast]
  generalize hs : (if (!s.is_last && headers.connection_close value) = true then
    { s with is_last := true } else s) = t
  have ht : Commutes α t.writer CONNECTION := by
    rw [← hs]
    split <;> exact h
  by_cases hn : (!t.is_name_written) = true
  · simp only [toHeaderLoop_mapWriter, hn, ↓reduceIte, ht.write_header_name_with_colon]
    rfl
  · simp only [toHeaderLoop_mapWriter, hn, Bool.false_eq_true, ↓reduceIte]
    rfl

theorem Commutes.encodeValue (h : Commutes α s.writer name) :
    encodeValue ctx head body orig_len name (s.mapWriter α) value =
      (encodeValue ctx head body orig_len name s value).map (Writing.mapWriter α) := by
  unfold Impl.encodeValue
  split_ifs with hcl hte hconn hdate
  · subst hcl
    exact h.encodeContentLength ctx body orig_len value
  · subst hte
    exact h.encodeTransferEncoding ctx head orig_len value
  · subst hconn
    exact congrArg Except.ok (h.encodeConnection value)
  · exact congrArg Except.ok (Commutes.writeLine (s := { s with wrote_date := true }) h value)
  · exact congrArg Except.ok (h.writeLine value)

theorem Commutes.encodeLength (hte : Commutes α s.writer TRANSFER_ENCODING)
    (hcl : Commutes α s.writer CONTENT_LENGTH) :
    encodeLength ctx head body (s.mapWriter α) = (encodeLength ctx head body s).mapWriter α := by
  unfold Impl.encodeLength
  -- the framing line is written under the same condition on both sides
  have hlen : ∀ len, { (s.mapWriter α).write_full_header_line (ascii "content-length: 0\r\n")
      (CONTENT_LENGTH, ascii ": 0\r\n") with encoder := Encoder.length len } =
      ({ s.write_full_header_line (ascii "content-length: 0\r\n")
        (CONTENT_LENGTH, ascii ": 0\r\n") with encoder := Encoder.length len }).mapWriter α := by
    intro len
    rw [hcl.write_full_header_line]
    rfl
  rcases body with _ | (_ | len) | _
  · by_cases hc : can_have_content_length ctx.req_method head.subject = true
    · simp only [hc, ↓reduceIte, hlen]
    · simp only [hc, Bool.false_eq_true, ↓reduceIte]
      rfl
  · by_cases hc : can_have_content_length ctx.req_method head.subject = true
    · simp only [hc, ↓reduceIte, hlen]
    · simp only [hc, Bool.false_eq_true, ↓reduceIte]
      rfl
  · by_cases hc : can_have_content_length ctx.req_method head.subject = true
    · simp only [hc, Bool.not_true, Bool.false_eq_true, ↓reduceIte,
        hcl.write_header_name_with_colon]
      rfl
    · simp only [hc, Bool.not_false, ↓reduceIte]
      rfl
  · by_cases hv : (head.version = .HTTP_10 || !can_chunked ctx.req_method head.subject) = true
    · simp only [hv, ↓reduceIte]
      rfl
    · simp only [hv, Bool.false_eq_true, ↓reduceIte, hte.write_full_header_line]
      rfl

theorem Commutes.encodeDate (h : (!s.wrote_date) = true → Commutes α s.writer DATE)
    (date : List UInt8) :
    encodeDate date (s.mapWriter α) = (encodeDate date s).mapWriter α := by
  unfold Impl.encodeDate
  by_cases hd : (!s.wrote_date) = true
  · simp only [toHeaderLoop_mapWriter, hd, ↓reduceIte, (h hd).write_header_name_with_colon]
    rfl
  · simp only [toHeaderLoop_mapWriter, hd, Bool.false_eq_true, ↓reduceIte]
    rfl

theorem Commutes.encodeFraming (h : (!s.wrote_len) = true →
      Commutes α s.writer TRANSFER_ENCODING ∧ Commutes α s.writer CONTENT_LENGTH) :
    encodeFraming ctx head body (s.mapWriter α) =
      (encodeFraming ctx head body s).mapWriter α := by
  unfold Impl.encodeFraming
  -- closing the open line leaves the writer and `wrote_len` as they are
  have hclose : { s.mapWriter α with toHeaderLoop := (s.mapWriter α).handle_is_name_written } =
      { s with toHeaderLoop := s.handle_is_name_written }.mapWriter α := rfl
  rw [hclose]
  generalize ht : { s with toHeaderLoop := s.handle_is_name_written } = t
  have hwt : t.writer = s.writer := by
    rw [← ht]
  have hlen : t.wrote_len = s.wrote_len := by
    rw [← ht]
    exact wrote_len_handle_is_name_written s.toHeaderLoop
  by_cases hw : (!t.wrote_len) = true
  · obtain ⟨hte, hcl⟩ := h (hlen ▸ hw)
    simp only [toHeaderLoop_mapWriter, hw, ↓reduceIte]
    exact Commutes.encodeLength ctx head body (hwt ▸ hte) (hwt ▸ hcl)
  · simp only [toHeaderLoop_mapWriter, hw, Bool.false_eq_true, ↓reduceIte]

/-- After the loop only `dst`, the encoder and `is_last` count, so the two writers give the
same result once they agree on the framing and date calls. -/
theorem Commutes.encodeEnd (hlen : (!s.wrote_len) = true →
      Commutes α s.writer TRANSFER_ENCODING ∧ Commutes α s.writer CONTENT_LENGTH)
    (hdate : (!(Impl.encodeFraming ctx head body s).wrote_date) = true →
      Commutes α (Impl.encodeFraming ctx head body s).writer DATE) (date : List UInt8) :
    encodeEnd ctx date head body (s.mapWriter α) = encodeEnd ctx date head body s := by
  simp only [Impl.encodeEnd, Commutes.encodeFraming ctx head body hlen,
    Commutes.encodeDate hdate date]
  rfl

end MapWriter

/-! ## What a step does to the writer -/

section Footprint

variable {W : Type}

/-- A call for a framing name comes with `wrote_len`, one for `DATE` with `wrote_date`. -/
def Marked (name : HeaderName) (s : Writing W) : Prop :=
  (name = TRANSFER_ENCODING ∨ name = CONTENT_LENGTH → s.wrote_len = true) ∧
    (name = DATE → s.wrote_date = true)

theorem marked_of_ne {name : HeaderName} {s : Writing W} (hte : name ≠ TRANSFER_ENCODING)
    (hcl : name ≠ CONTENT_LENGTH) (hdate : name ≠ DATE) : Marked name s :=
  ⟨fun h ↦ (h.elim hte hcl).elim, fun h ↦ (hdate h).elim⟩

variable [HeaderNameWriter W]

/-- `w'` is `w` after one call for `name`. -/
def Called (w : W) (name : HeaderName) (w' : W) : Prop :=
  (∃ line rest, w' = (HeaderNameWriter.write_full_header_line w line (name, rest)).1) ∨
    (∃ name_with_colon,
      w' = (HeaderNameWriter.write_header_name_with_colon w name_with_colon name).1) ∨
    w' = (HeaderNameWriter.write_header_name w name).1

/-- One step of the loop for `name`: the flags are only set, and the writer is called at most
once, for `name`, with the flag of that name set after it. -/
structure StepsBy (name : HeaderName) (s s' : Writing W) : Prop where
  wrote_len : s.wrote_len = true → s'.wrote_len = true
  wrote_date : s.wrote_date = true → s'.wrote_date = true
  writer : s'.writer = s.writer ∨ (Called s.writer name s'.writer ∧ Marked name s')

variable (ctx : EncodeCtx) (head : MessageHead StatusCode) (body : Option BodyLength)
  (orig_len : ℕ)
  {s s' : Writing W} (value : HeaderValue)

theorem stepsBy_rfl (name : HeaderName) (s : Writing W) : StepsBy name s s :=
  ⟨id, id, Or.inl rfl⟩

theorem stepsBy_encodeContentLength (h : encodeContentLength ctx body orig_len s value = .ok s') :
    StepsBy CONTENT_LENGTH s s' := by
  unfold Impl.encodeContentLength at h
  -- each `.ok` either leaves `s` or writes the name once with `wrote_len` set
  have hmark : ∀ {t : Writing W}, t.wrote_len = true → Marked CONTENT_LENGTH t :=
    fun hl ↦ ⟨fun _ ↦ hl, fun h ↦ absurd h (by decide)⟩
  split at h
  · cases h
  split at h
  · split at h <;> cases h
    · exact ⟨fun _ ↦ rfl, id, Or.inr ⟨Or.inr (Or.inl ⟨_, rfl⟩), hmark rfl⟩⟩
    · exact stepsBy_rfl _ _
  · split at h
    · split at h
      · split at h <;> cases h
        exact stepsBy_rfl _ _
      · cases h
        exact ⟨fun _ ↦ rfl, id, Or.inr ⟨Or.inr (Or.inl ⟨_, rfl⟩), hmark rfl⟩⟩
    · cases h
  · split at h <;> cases h
    · exact ⟨fun _ ↦ rfl, id, Or.inr ⟨Or.inr (Or.inr rfl), hmark rfl⟩⟩
    · exact stepsBy_rfl _ _

theorem stepsBy_encodeTransferEncoding
    (h : encodeTransferEncoding ctx head orig_len s value = .ok s') :
    StepsBy TRANSFER_ENCODING s s' := by
  unfold Impl.encodeTransferEncoding at h
  split at h
  · cases h
  split at h
  · cases h
    exact stepsBy_rfl _ _
  -- `wrote_len` is set before the name or the comma is written
  dsimp only at h
  split at h <;> cases h
  · exact ⟨fun _ ↦ rfl, id,
      Or.inr ⟨Or.inr (Or.inl ⟨_, rfl⟩), fun _ ↦ rfl, fun h ↦ absurd h (by decide)⟩⟩
  · exact ⟨fun _ ↦ rfl, id, Or.inl rfl⟩

theorem stepsBy_encodeConnection (s : Writing W) :
    StepsBy CONNECTION s (encodeConnection s value) := by
  have hmark : ∀ {t : Writing W}, Marked CONNECTION t := marked_of_ne (by decide) (by decide)
    (by decide)
  unfold Impl.encodeConnection
  dsimp only
  -- `is_last` may be set first; then the name is written, or a comma and the value
  split <;> split
  · exact ⟨id, id, Or.inr ⟨Or.inr (Or.inl ⟨_, rfl⟩), hmark⟩⟩
  · exact ⟨id, id, Or.inl rfl⟩
  · exact ⟨id, id, Or.inr ⟨Or.inr (Or.inl ⟨_, rfl⟩), hmark⟩⟩
  · exact ⟨id, id, Or.inl rfl⟩

theorem stepsBy_encodeValue (name : HeaderName)
    (h : encodeValue ctx head body orig_len name s value = .ok s') : StepsBy name s s' := by
  unfold Impl.encodeValue at h
  split_ifs at h with hcl hte hconn hdate
  · subst hcl
    exact stepsBy_encodeContentLength ctx body orig_len value h
  · subst hte
    exact stepsBy_encodeTransferEncoding ctx head orig_len value h
  · subst hconn
    cases h
    exact stepsBy_encodeConnection value s
  · subst hdate
    cases h
    exact ⟨id, fun _ ↦ rfl, Or.inr ⟨Or.inr (Or.inr rfl),
      fun h ↦ absurd h (by decide), fun _ ↦ rfl⟩⟩
  · cases h
    exact ⟨id, id, Or.inr ⟨Or.inr (Or.inr rfl), marked_of_ne hte hcl hdate⟩⟩

/-- The framing line is one call for `TRANSFER_ENCODING` or `CONTENT_LENGTH`, or none. -/
theorem encodeLength_writer (s : Writing W) :
    (encodeLength ctx head body s).wrote_date = s.wrote_date ∧
      ((encodeLength ctx head body s).writer = s.writer ∨
        ∃ name, (name = TRANSFER_ENCODING ∨ name = CONTENT_LENGTH) ∧
          Called s.writer name (encodeLength ctx head body s).writer) := by
  have hte : Called s.writer TRANSFER_ENCODING (s.write_full_header_line
      (ascii "transfer-encoding: chunked\r\n") (TRANSFER_ENCODING, ascii ": chunked\r\n")).writer :=
    Or.inl ⟨_, _, rfl⟩
  have hcl : Called s.writer CONTENT_LENGTH (s.write_full_header_line
      (ascii "content-length: 0\r\n") (CONTENT_LENGTH, ascii ": 0\r\n")).writer :=
    Or.inl ⟨_, _, rfl⟩
  unfold Impl.encodeLength
  split
  · -- an unknown length: chunked, unless the response is close-delimited
    split
    · exact ⟨rfl, Or.inl rfl⟩
    · exact ⟨rfl, Or.inr ⟨_, Or.inl rfl, hte⟩⟩
  · -- no body: `content-length: 0` where the response may have one
    split
    · exact ⟨rfl, Or.inr ⟨_, Or.inr rfl, hcl⟩⟩
    · exact ⟨rfl, Or.inl rfl⟩
  · split
    · exact ⟨rfl, Or.inr ⟨_, Or.inr rfl, hcl⟩⟩
    · exact ⟨rfl, Or.inl rfl⟩
  · split
    · exact ⟨rfl, Or.inl rfl⟩
    · exact ⟨rfl, Or.inr ⟨_, Or.inr rfl, Or.inr (Or.inl ⟨_, rfl⟩)⟩⟩

theorem encodeFraming_writer (s : Writing W) :
    (encodeFraming ctx head body s).wrote_date = s.wrote_date ∧
      ((encodeFraming ctx head body s).writer = s.writer ∨
        ∃ name, (name = TRANSFER_ENCODING ∨ name = CONTENT_LENGTH) ∧
          Called s.writer name (encodeFraming ctx head body s).writer) := by
  unfold Impl.encodeFraming
  -- closing the open line leaves the writer and `wrote_date` as they are
  generalize ht : { s with toHeaderLoop := s.handle_is_name_written } = t
  have hwt : t.writer = s.writer := by
    rw [← ht]
  have hdate : t.wrote_date = s.wrote_date := by
    rw [← ht]
    exact wrote_date_handle_is_name_written s.toHeaderLoop
  dsimp only
  split
  · rw [← hwt, ← hdate]
    exact encodeLength_writer ctx head body t
  · exact ⟨hdate, Or.inl hwt⟩

end Footprint

end Hyper.H1.Server.Impl
