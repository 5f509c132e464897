import Hyper.H1.Role.ServerEncode

/-!
# `Server::encode` on the output buffer: the rewinds and the header name writers (`role.rs`)

`Server.encode` in `Hyper.H1.Role.ServerEncode` returns the bytes of a head and, on an error of
`encode_headers`, no bytes at all.  `Server.Impl.encode` here runs as the source does: it appends
to `dst`, which may already hold earlier output, and takes `orig_len` before the status line.
Each of the four error exits of `encode_headers` (a `Content-Length` or a `Transfer-Encoding`
after the framing was decided, two `Content-Length` values that differ, one that does not parse)
calls `rewind`, which truncates `dst` to `orig_len`.  The names are spelled by a
`HeaderNameWriter`: `LowercaseWriter`, or `OrigCaseWriter` over the `HeaderCaseMap` of the head
when it carries one or title case is asked for.

* `encodeValue_dst`: whatever the writer, a value of the loop appends to `dst`, or fails with
  `dst` rewound; `encode_headers_error` carries this over the loop.
* `encode_error_rewinds`: an error for the headers leaves `dst` as it was before the call; the
  only error that leaves bytes is the unsupported `1xx` status, which leaves one `500` head.
* `encode_lowercase`: with `LowercaseWriter`, `Impl.encode` appends to `dst` the bytes that
  `Server.encode` returns.
-/

set_option autoImplicit false

namespace Hyper

/-- `HeaderCaseMap`: the spellings of the header names as they came, by name, in order. -/
structure HeaderCaseMap where
  inner : MultiMap HeaderName (List UInt8)

namespace HeaderCaseMap

/-- `HeaderCaseMap::default`. -/
def default : HeaderCaseMap := ⟨MultiMap.empty⟩

/-- `HeaderCaseMap::get_all_internal`: the spellings of `name`, in the order they were found. -/
def get_all_internal (m : HeaderCaseMap) (name : HeaderName) : List (List UInt8) :=
  m.inner.getAll name

/-- `HeaderCaseMap::get_all`. -/
def get_all (m : HeaderCaseMap) (name : HeaderName) : List (List UInt8) := m.get_all_internal name

/-- `HeaderCaseMap::append`. -/
def append (m : HeaderCaseMap) (name : HeaderName) (orig : List UInt8) : HeaderCaseMap :=
  ⟨m.inner.append name orig⟩

@[simp] theorem get_all_internal_default (name : HeaderName) :
    default.get_all_internal name = [] := rfl

@[simp] theorem get_all_internal_append (m : HeaderCaseMap) (name k : HeaderName)
    (orig : List UInt8) :
    (m.append name orig).get_all_internal k =
      m.get_all_internal k ++ if k = name then [orig] else [] :=
  MultiMap.getAll_append m.inner name k orig

end HeaderCaseMap

namespace H1

open headers HeaderName

/-- `u8::make_ascii_uppercase`. -/
def toUpperAscii (b : UInt8) : UInt8 := if 97 ≤ b ∧ b ≤ 122 then b - 32 else b

/-- The loop of `title_case`, after the byte `prev`. -/
def title_case.go : UInt8 → List UInt8 → List UInt8
  | _, [] => []
  | prev, c :: cs =>
    let c := if prev = 45 then toUpperAscii c else c
    c :: title_case.go c cs

/-- `title_case`: the first letter, and each letter after a `-`, in upper case. -/
def title_case (name : List UInt8) : List UInt8 := title_case.go 45 name

example : title_case CONTENT_LENGTH.bytes = ascii "Content-Length" := by decide

/-! ## The header name writers -/

/-- `HeaderNameWriter`: how `encode_headers` writes a header name.  A method returns the writer
after the call and the bytes it appends to `dst`; `line` and `name_with_colon` are the static
lower-case texts, `name_value_pair` the name and the rest of the line. -/
class HeaderNameWriter (W : Type) where
  write_full_header_line : W → List UInt8 → HeaderName × List UInt8 → W × List UInt8
  write_header_name_with_colon : W → List UInt8 → HeaderName → W × List UInt8
  write_header_name : W → HeaderName → W × List UInt8

/-- `LowercaseWriter`: the texts as given, and the name as `HeaderName` holds it. -/
structure LowercaseWriter

instance : HeaderNameWriter LowercaseWriter where
  write_full_header_line w line _ := (w, line)
  write_header_name_with_colon w name_with_colon _ := (w, name_with_colon)
  write_header_name w name := (w, name.bytes)

/-- `OrigCaseWriter`: `current` is the name of the last call with the spellings of it that the
iterator has not handed out yet. -/
structure OrigCaseWriter where
  map : HeaderCaseMap
  current : Option (HeaderName × List (List UInt8))
  title_case_headers : Bool

/-- `OrigCaseWriter::write_header_name`: the iterator is started again when the name differs
from the last call's; its next spelling is written, or once there is none the name in title
case or lower case. -/
def OrigCaseWriter.write_header_name (w : OrigCaseWriter) (name : HeaderName) :
    OrigCaseWriter × List UInt8 :=
  let current := if w.current.all (fun c ↦ c.1 != name) then none else w.current
  let (n, values) := current.getD (name, w.map.get_all_internal name)
  match values with
  | orig_name :: rest => ({ w with current := some (n, rest) }, orig_name)
  | [] => ({ w with current := some (n, []) },
      if w.title_case_headers then title_case name.bytes else name.bytes)

instance : HeaderNameWriter OrigCaseWriter where
  write_full_header_line w _ name_value :=
    let (w, bytes) := w.write_header_name name_value.1
    (w, bytes ++ name_value.2)
  write_header_name_with_colon w _ name :=
    let (w, bytes) := w.write_header_name name
    (w, bytes ++ ascii ": ")
  write_header_name w name := w.write_header_name name

namespace Server

namespace Impl

/-! ## The header loop on `dst` -/

/-- The variables of `encode_headers` with the writer; `dst` is the whole output buffer. -/
structure Writing (W : Type) extends HeaderLoop where
  writer : W

/-- `rewind`: `dst` truncated to `orig_len`. -/
def rewind (orig_len : ℕ) (dst : List UInt8) : List UInt8 := dst.take orig_len

namespace Writing

variable {W : Type}

/-- `extend(dst, bytes)`. -/
def extend (s : Writing W) (bytes : List UInt8) : Writing W := { s with dst := s.dst ++ bytes }

@[simp] theorem dst_extend (s : Writing W) (bytes : List UInt8) :
    (s.extend bytes).dst = s.dst ++ bytes := rfl

variable [HeaderNameWriter W]

/-- `header_name_writer.write_header_name(dst, name)`. -/
def write_header_name (s : Writing W) (name : HeaderName) : Writing W :=
  let (w, bytes) := HeaderNameWriter.write_header_name s.writer name
  { s with writer := w, dst := s.dst ++ bytes }

/-- `header_name_writer.write_header_name_with_colon(dst, name_with_colon, name)`. -/
def write_header_name_with_colon (s : Writing W) (name_with_colon : List UInt8)
    (name : HeaderName) : Writing W :=
  let (w, bytes) := HeaderNameWriter.write_header_name_with_colon s.writer name_with_colon name
  { s with writer := w, dst := s.dst ++ bytes }

/-- `header_name_writer.write_full_header_line(dst, line, name_value_pair)`. -/
def write_full_header_line (s : Writing W) (line : List UInt8)
    (name_value : HeaderName × List UInt8) : Writing W :=
  let (w, bytes) := HeaderNameWriter.write_full_header_line s.writer line name_value
  { s with writer := w, dst := s.dst ++ bytes }

/-- A value written as a line of its own, after its name. -/
def writeLine (s : Writing W) (name : HeaderName) (value : HeaderValue) : Writing W :=
  (s.write_header_name name).extend (ascii ": " ++ value.bytes ++ ascii "\r\n")

@[simp] theorem dst_write_header_name (s : Writing W) (name : HeaderName) :
    (s.write_header_name name).dst =
      s.dst ++ (HeaderNameWriter.write_header_name s.writer name).2 := rfl

@[simp] theorem dst_write_header_name_with_colon (s : Writing W) (name_with_colon : List UInt8)
    (name : HeaderName) :
    (s.write_header_name_with_colon name_with_colon name).dst =
      s.dst ++ (HeaderNameWriter.write_header_name_with_colon s.writer name_with_colon name).2 :=
  rfl

@[simp] theorem dst_write_full_header_line (s : Writing W) (line : List UInt8)
    (name_value : HeaderName × List UInt8) :
    (s.write_full_header_line line name_value).dst =
      s.dst ++ (HeaderNameWriter.write_full_header_line s.writer line name_value).2 := rfl

@[simp] theorem dst_writeLine (s : Writing W) (name : HeaderName) (value : HeaderValue) :
    (s.writeLine name value).dst = s.dst ++ (HeaderNameWriter.write_header_name s.writer name).2 ++
      (ascii ": " ++ value.bytes ++ ascii "\r\n") := rfl

end Writing

section Loop

variable {W : Type} [HeaderNameWriter W]

/-- The `CONTENT_LENGTH` arm, with the plain line it falls through to in a response to `HEAD`;
a failure carries `dst` as `rewind` left it. -/
def encodeContentLength (ctx : EncodeCtx) (body : Option BodyLength) (orig_len : ℕ)
    (s : Writing W) (value : HeaderValue) : Except (User × List UInt8) (Writing W) :=
  if s.wrote_len && !s.is_name_written then .error (.Header, rewind orig_len s.dst)
  else
    match body with
    | some (.Known known_len) =>
      if !s.is_name_written then
        .ok { (s.write_header_name_with_colon (ascii "content-length: ") CONTENT_LENGTH).extend
            value.bytes with
          encoder := Encoder.length known_len, wrote_len := true, is_name_written := true }
      else .ok s
    | some .Unknown =>
      match content_length_parse value with
      | some len =>
        match s.prev_con_len with
        | some prev => if prev ≠ len then .error (.Header, rewind orig_len s.dst) else .ok s
        | none =>
          .ok { (s.write_header_name_with_colon (ascii "content-length: ") CONTENT_LENGTH).extend
              value.bytes with
            encoder := Encoder.length len, wrote_len := true, is_name_written := true,
            prev_con_len := some len }
      | none => .error (.Header, rewind orig_len s.dst)
    | none =>
      if ctx.req_method = some Method.HEAD then
        .ok ({ s with wrote_len := true }.writeLine CONTENT_LENGTH value)
      else .ok s

/-- The `TRANSFER_ENCODING` arm. -/
def encodeTransferEncoding (ctx : EncodeCtx) (head : MessageHead StatusCode) (orig_len : ℕ)
    (s : Writing W) (value : HeaderValue) : Except (User × List UInt8) (Writing W) :=
  if s.wrote_len && !s.is_name_written then .error (.Header, rewind orig_len s.dst)
  else if head.version = .HTTP_10 || !can_chunked ctx.req_method head.subject then .ok s
  else
    let s := { s with wrote_len := true, must_write_chunked := !is_chunked_ value }
    if !s.is_name_written then
      .ok { (s.write_header_name_with_colon (ascii "transfer-encoding: ") TRANSFER_ENCODING).extend
          value.bytes with
        encoder := Encoder.chunked, is_name_written := true }
    else .ok (s.extend (ascii ", " ++ value.bytes))

/-- The `CONNECTION` arm. -/
def encodeConnection (s : Writing W) (value : HeaderValue) : Writing W :=
  let s := if !s.is_last && connection_close value then { s with is_last := true } else s
  if !s.is_name_written then
    { (s.write_header_name_with_colon (ascii "connection: ") CONNECTION).extend value.bytes with
      is_name_written := true }
  else s.extend (ascii ", " ++ value.bytes)

/-- One value of the entry for `name`: the `match *name`, and the plain line after it. -/
def encodeValue (ctx : EncodeCtx) (head : MessageHead StatusCode) (body : Option BodyLength)
    (orig_len : ℕ) (name : HeaderName) (s : Writing W) (value : HeaderValue) :
    Except (User × List UInt8) (Writing W) :=
  if name = CONTENT_LENGTH then encodeContentLength ctx body orig_len s value
  else if name = TRANSFER_ENCODING then encodeTransferEncoding ctx head orig_len s value
  else if name = CONNECTION then .ok (encodeConnection s value)
  else if name = DATE then .ok ({ s with wrote_date := true }.writeLine name value)
  else .ok (s.writeLine name value)

/-- One entry of `drain`: its first value closes the line left open, then each of its values. -/
def encodeEntry (ctx : EncodeCtx) (head : MessageHead StatusCode) (body : Option BodyLength)
    (orig_len : ℕ) (s : Writing W) (e : HeaderName × List HeaderValue) :
    Except (User × List UInt8) (Writing W) :=
  e.2.foldlM (encodeValue ctx head body orig_len e.1)
    { s with toHeaderLoop := { s.handle_is_name_written with is_name_written := false } }

/-- The framing `encode_headers` adds when no framing header was written. -/
def encodeLength (ctx : EncodeCtx) (head : MessageHead StatusCode) (body : Option BodyLength)
    (s : Writing W) : Writing W :=
  match body with
  | some .Unknown =>
    if head.version = .HTTP_10 || !can_chunked ctx.req_method head.subject then
      { s with encoder := Encoder.close_delimited }
    else
      { s.write_full_header_line (ascii "transfer-encoding: chunked\r\n")
          (TRANSFER_ENCODING, ascii ": chunked\r\n") with
        encoder := Encoder.chunked }
  | none | some (.Known 0) =>
    { (if can_have_content_length ctx.req_method head.subject then
        s.write_full_header_line (ascii "content-length: 0\r\n") (CONTENT_LENGTH, ascii ": 0\r\n")
      else s) with
      encoder := Encoder.length 0 }
  | some (.Known len) =>
    if !can_have_content_length ctx.req_method head.subject then
      { s with encoder := Encoder.length 0 }
    else
      { (s.write_header_name_with_colon (ascii "content-length: ") CONTENT_LENGTH).extend
          ((HeaderValue.from_u64 len).bytes ++ ascii "\r\n") with
        encoder := Encoder.length len }

/-- After the loop: the line left open is closed, and the framing is added when no framing
header was written. -/
def encodeFraming (ctx : EncodeCtx) (head : MessageHead StatusCode) (body : Option BodyLength)
    (s : Writing W) : Writing W :=
  let s := { s with toHeaderLoop := s.handle_is_name_written }
  if !s.wrote_len then encodeLength ctx head body s else s

/-- The cached date, unless the head has one, and the blank line. -/
def encodeDate (date : List UInt8) (s : Writing W) : Writing W :=
  if !s.wrote_date then
    (s.write_header_name_with_colon (ascii "date: ") DATE).extend (date ++ ascii "\r\n\r\n")
  else s.extend (ascii "\r\n")

/-- What `encode_headers` does after the loop. -/
def encodeEnd (ctx : EncodeCtx) (date : List UInt8) (head : MessageHead StatusCode)
    (body : Option BodyLength) (s : Writing W) : Except User Encoder × List UInt8 :=
  let s := encodeFraming ctx head body s
  let encoder := if !can_have_body ctx.req_method head.subject then Encoder.length 0 else s.encoder
  (.ok (encoder.set_last s.is_last), (encodeDate date s).dst)

/-- `Server::encode_headers`: the result and `dst` after it. -/
def encode_headers (ctx : EncodeCtx) (date : List UInt8) (head : MessageHead StatusCode)
    (body : Option BodyLength) (dst : List UInt8) (is_last : Bool) (orig_len : ℕ)
    (wrote_len : Bool) (header_name_writer : W) : Except User Encoder × List UInt8 :=
  let s : Writing W := ⟨{ HeaderLoop.init is_last wrote_len with dst := dst }, header_name_writer⟩
  match head.headers.entries.foldlM (encodeEntry ctx head body orig_len) s with
  | .error (e, dst) => (.error e, dst)
  | .ok s => encodeEnd ctx date head body s

end Loop

/-- `Server::encode_headers_with_lower_case`. -/
def encode_headers_with_lower_case (ctx : EncodeCtx) (date : List UInt8)
    (head : MessageHead StatusCode) (body : Option BodyLength) (dst : List UInt8) (is_last : Bool)
    (orig_len : ℕ) (wrote_len : Bool) : Except User Encoder × List UInt8 :=
  encode_headers ctx date head body dst is_last orig_len wrote_len LowercaseWriter.mk

/-- `Server::encode_headers_with_original_case`. -/
def encode_headers_with_original_case (ctx : EncodeCtx) (title_case_headers : Bool)
    (date : List UInt8) (head : MessageHead StatusCode) (body : Option BodyLength)
    (dst : List UInt8) (is_last : Bool) (orig_len : ℕ) (wrote_len : Bool)
    (orig_headers : HeaderCaseMap) : Except User Encoder × List UInt8 :=
  encode_headers ctx date head body dst is_last orig_len wrote_len
    (⟨orig_headers, none, title_case_headers⟩ : OrigCaseWriter)

/-- The `HeaderCaseMap` that `Server::encode` spells the names from: the head's, or an empty one
when only title case is asked for; `none` is `LowercaseWriter`. -/
def origHeaders (title_case_headers : Bool) (orig_case : Option HeaderCaseMap) :
    Option HeaderCaseMap :=
  match orig_case with
  | none => if title_case_headers then some HeaderCaseMap.default else none
  | some orig_headers => some orig_headers

/-- `encode_headers` with the writer `Server::encode` picks. -/
def encodeWith (ctx : EncodeCtx) (title_case_headers : Bool) (date : List UInt8)
    (head : MessageHead StatusCode) (body : Option BodyLength) (dst : List UInt8) (is_last : Bool)
    (orig_len : ℕ) (wrote_len : Bool) : Option HeaderCaseMap → Except User Encoder × List UInt8
  | some orig_headers =>
    encode_headers_with_original_case ctx title_case_headers date head body dst is_last orig_len
      wrote_len orig_headers
  | none => encode_headers_with_lower_case ctx date head body dst is_last orig_len wrote_len

/-- The rest of `Server::encode` once the head is settled: `orig_len`, the status line, and
`encode_headers`; `none` is the panic on a version a response cannot have. -/
def encodeHead (ctx : EncodeCtx) (title_case_headers : Bool)
    (canonical_reason : StatusCode → Option (List UInt8)) (date : List UInt8)
    (ret : Except User Unit) (is_last wrote_len : Bool) (head : MessageHead StatusCode)
    (orig_case : Option HeaderCaseMap) (body : Option BodyLength) (dst : List UInt8) :
    Option (Except User Encoder × List UInt8) :=
  -- what a failure rewinds to: the bytes before the status line
  let orig_len := dst.length
  (statusLine canonical_reason head).map fun line ↦
    match encodeWith ctx title_case_headers date head body (dst ++ line) is_last orig_len wrote_len
        (origHeaders title_case_headers orig_case) with
    | (.error e, dst) => (.error e, dst)
    | (.ok encoder, dst) => (ret.map fun () ↦ encoder, dst)

/-- `Server::encode` on `dst`: `orig_case` is the head's `HeaderCaseMap` extension and
`title_case_headers` the option of the connection.  A `1xx` head is replaced by
`MessageHead::default()` with status `500`, which has no extensions either. -/
def encode (ctx : EncodeCtx) (title_case_headers : Bool)
    (canonical_reason : StatusCode → Option (List UInt8)) (date : List UInt8)
    (head : MessageHead StatusCode) (orig_case : Option HeaderCaseMap) (body : Option BodyLength)
    (dst : List UInt8) : Option (Except User Encoder × List UInt8) :=
  if head.subject = StatusCode.SWITCHING_PROTOCOLS then
    encodeHead ctx title_case_headers canonical_reason date (.ok ()) true false head orig_case body dst
  else if ctx.req_method = some Method.CONNECT ∧ head.subject.is_success then
    -- no length or coding on a 2xx to `CONNECT`
    encodeHead ctx title_case_headers canonical_reason date (.ok ()) true true head orig_case body dst
  else if head.subject.is_informational then
    encodeHead ctx title_case_headers canonical_reason date (.error .UnsupportedStatusCode) true false
      ⟨.HTTP_11, StatusCode.INTERNAL_SERVER_ERROR, MultiMap.empty⟩ none none dst
  else
    encodeHead ctx title_case_headers canonical_reason date (.ok ()) (!ctx.keep_alive) false head
      orig_case body dst

/-! ## What a failure leaves in `dst` -/

section Rewind

variable {W : Type}

/-- What a step of the loop does to `dst`: it appends to it, or fails for the headers with `dst`
rewound. -/
def Rewinds (orig_len : ℕ) (s : Writing W) (r : Except (User × List UInt8) (Writing W)) : Prop :=
  r.Sat (fun s' ↦ s.dst <+: s'.dst) (fun f ↦ f = (.Header, rewind orig_len s.dst))

/-- From what a step does to `dst`, what it keeps of `orig`, the bytes before the status line. -/
theorem Rewinds.keeps {orig : List UInt8} {s : Writing W}
    {r : Except (User × List UInt8) (Writing W)} (h : Rewinds orig.length s r)
    (hs : orig <+: s.dst) : r.Sat (fun s' ↦ orig <+: s'.dst) (fun f ↦ f = (.Header, orig)) := by
  refine Except.Sat.imp h (fun s' hs' ↦ hs.trans hs') ?_
  intro f hf
  rw [hf, rewind, ← List.prefix_iff_eq_take.mp hs]

theorem prefix_handle_is_name_written (s : HeaderLoop) : s.dst <+: s.handle_is_name_written.dst := by
  rw [HeaderLoop.handle_is_name_written]
  split_ifs <;> simp

variable [HeaderNameWriter W]

theorem rewinds_encodeContentLength (ctx : EncodeCtx) (body : Option BodyLength) (orig_len : ℕ)
    (s : Writing W) (value : HeaderValue) :
    Rewinds orig_len s (encodeContentLength ctx body orig_len s value) := by
  simp only [Rewinds, encodeContentLength]
  split
  · rfl
  · split
    · split <;> simp [List.append_assoc]
    · split
      · split
        · split <;> simp
        · simp [List.append_assoc]
      · rfl
    · split <;> simp [Writing.writeLine, List.append_assoc]

theorem rewinds_encodeTransferEncoding (ctx : EncodeCtx) (head : MessageHead StatusCode)
    (orig_len : ℕ) (s : Writing W) (value : HeaderValue) :
    Rewinds orig_len s (encodeTransferEncoding ctx head orig_len s value) := by
  simp only [Rewinds, encodeTransferEncoding]
  split
  · rfl
  · split
    · simp
    · split <;> simp [List.append_assoc]

theorem prefix_encodeConnection (s : Writing W) (value : HeaderValue) :
    s.dst <+: (encodeConnection s value).dst := by
  simp only [encodeConnection]
  split_ifs <;> simp [List.append_assoc]

/-- **Each value appends to `dst`, or fails with `dst` rewound**, whatever the writer. -/
theorem encodeValue_dst (ctx : EncodeCtx) (head : MessageHead StatusCode)
    (body : Option BodyLength) (orig_len : ℕ) (name : HeaderName) (s : Writing W)
    (value : HeaderValue) : Rewinds orig_len s (encodeValue ctx head body orig_len name s value) := by
  simp only [encodeValue]
  split_ifs
  · exact rewinds_encodeContentLength ctx body orig_len s value
  · exact rewinds_encodeTransferEncoding ctx head orig_len s value
  · exact prefix_encodeConnection s value
  · simp [Rewinds, Writing.writeLine, List.append_assoc]
  · simp [Rewinds, Writing.writeLine, List.append_assoc]

theorem encodeEntry_keeps (ctx : EncodeCtx) (head : MessageHead StatusCode)
    (body : Option BodyLength) {orig : List UInt8} {s : Writing W} (hs : orig <+: s.dst)
    (e : HeaderName × List HeaderValue) :
    (encodeEntry ctx head body orig.length s e).Sat (fun s' ↦ orig <+: s'.dst)
      (fun f ↦ f = (.Header, orig)) :=
  List.foldlM_sat _ _ (fun value s' hs' ↦ (encodeValue_dst ctx head body orig.length e.1 s' value).keeps hs')
    e.2 (hs.trans (prefix_handle_is_name_written s.toHeaderLoop))

/-- Over the whole loop, the bytes `orig` before the status line stay in front of `dst`, and a
failure leaves exactly them. -/
theorem encodeEntries_keeps (ctx : EncodeCtx) (head : MessageHead StatusCode)
    (body : Option BodyLength) {orig dst : List UInt8} (hdst : orig <+: dst) (is_last wrote_len : Bool)
    (w : W) :
    (head.headers.entries.foldlM (encodeEntry ctx head body orig.length)
      ⟨{ HeaderLoop.init is_last wrote_len with dst := dst }, w⟩).Sat
        (fun s ↦ orig <+: s.dst) (fun f ↦ f = (.Header, orig)) :=
  List.foldlM_sat _ _ (fun entry _ hs ↦ encodeEntry_keeps ctx head body hs entry) _ hdst

/-- **A failed `encode_headers` leaves the bytes before `orig_len`**: whatever the writer, it fails
only for the headers, and with `dst` cut back to `orig`. -/
theorem encode_headers_error (ctx : EncodeCtx) (date : List UInt8) (head : MessageHead StatusCode)
    (body : Option BodyLength) {orig dst : List UInt8} (hdst : orig <+: dst) (is_last wrote_len : Bool)
    (w : W) {e : User} {dst' : List UInt8}
    (h : encode_headers ctx date head body dst is_last orig.length wrote_len w = (.error e, dst')) :
    e = .Header ∧ dst' = orig := by
  have hsat := encodeEntries_keeps ctx head body hdst is_last wrote_len w
  simp only [encode_headers] at h
  split at h
  · rename_i e' d hfold
    rw [hfold] at hsat
    obtain ⟨rfl, rfl⟩ := Prod.mk.inj hsat
    simp only [Prod.mk.injEq, Except.error.injEq] at h
    exact ⟨h.1.symm, h.2.symm⟩
  · -- after the loop nothing fails
    simp [encodeEnd] at h

/-- Whichever writer `Server::encode` picks, a failed `encode_headers` leaves `orig`. -/
theorem encodeWith_error {ctx : EncodeCtx} {title_case_headers : Bool} {date : List UInt8}
    {head : MessageHead StatusCode} {body : Option BodyLength} {orig dst : List UInt8}
    (hdst : orig <+: dst) {is_last wrote_len : Bool} {o : Option HeaderCaseMap} {e : User}
    {dst' : List UInt8}
    (h : encodeWith ctx title_case_headers date head body dst is_last orig.length wrote_len o =
      (.error e, dst')) : e = .Header ∧ dst' = orig := by
  cases o with
  | none => exact encode_headers_error ctx date head body hdst is_last wrote_len _ h
  | some m => exact encode_headers_error ctx date head body hdst is_last wrote_len _ h

end Rewind

/-! ## `Server::encode` -/

section Encode

variable {ctx : EncodeCtx} {title_case_headers : Bool}
  {canonical_reason : StatusCode → Option (List UInt8)} {date : List UInt8}
  {head : MessageHead StatusCode} {orig_case : Option HeaderCaseMap} {body : Option BodyLength}
  {dst : List UInt8}

/-- With no error of its own to return, `encodeHead` fails only for the headers, and then leaves
`dst` as it was before the status line. -/
theorem encodeHead_ok_error {is_last wrote_len : Bool} {dst' : List UInt8} {e : User}
    (h : encodeHead ctx title_case_headers canonical_reason date (.ok ()) is_last wrote_len head
      orig_case body dst = some (.error e, dst')) : e = .Header ∧ dst' = dst := by
  simp only [encodeHead, Option.map_eq_some_iff] at h
  obtain ⟨line, -, h⟩ := h
  rcases hw : encodeWith ctx title_case_headers date head body (dst ++ line) is_last dst.length
    wrote_len (origHeaders title_case_headers orig_case) with ⟨_ | encoder, d⟩
  · rw [hw] at h
    simp only [Prod.mk.injEq, Except.error.injEq] at h
    obtain ⟨rfl, rfl⟩ := h
    exact encodeWith_error (List.prefix_append dst line) hw
  · rw [hw] at h
    simp [Except.map] at h

/-- The status line of the `500` head. -/
theorem statusLine_internal_server_error (canonical_reason : StatusCode → Option (List UInt8)) :
    statusLine canonical_reason ⟨.HTTP_11, StatusCode.INTERNAL_SERVER_ERROR, MultiMap.empty⟩ =
      some (ascii "HTTP/1.1 500 " ++
        (canonical_reason StatusCode.INTERNAL_SERVER_ERROR).getD (ascii "<none>") ++ ascii "\r\n") := by
  have has : StatusCode.INTERNAL_SERVER_ERROR.as_str = ascii "500" := by decide
  have hline : ascii "HTTP/1.1 500 " = ascii "HTTP/1.1" ++ (ascii " " ++ (ascii "500" ++ ascii " ")) := by
    decide
  rw [statusLine, if_neg (by decide), hline]
  simp [Client.versionBytes, has]

theorem can_have_content_length_internal_server_error (method : Option Method) :
    can_have_content_length method StatusCode.INTERNAL_SERVER_ERROR = true := by
  simp [can_have_content_length, StatusCode.is_informational, StatusCode.is_success,
    StatusCode.INTERNAL_SERVER_ERROR, StatusCode.NO_CONTENT, StatusCode.NOT_MODIFIED]

/-- The head without headers or body that replaces a `1xx` one gets a `Content-Length: 0` and the
date, whatever the writer. -/
theorem encode_headers_internal_server_error {W : Type} [HeaderNameWriter W] (ctx : EncodeCtx)
    (date dst : List UInt8) (orig_len : ℕ) (w : W) :
    encode_headers ctx date ⟨.HTTP_11, StatusCode.INTERNAL_SERVER_ERROR, MultiMap.empty⟩ none dst
        true orig_len false w =
      let (w', length_line) := HeaderNameWriter.write_full_header_line w
        (ascii "content-length: 0\r\n") (CONTENT_LENGTH, ascii ": 0\r\n")
      (.ok ((Encoder.length 0).set_last true), dst ++ length_line ++
        (HeaderNameWriter.write_header_name_with_colon w' (ascii "date: ") DATE).2 ++
          (date ++ ascii "\r\n\r\n")) := by
  -- no entries: the loop hands its first state to `encodeEnd`
  have hloop : encode_headers ctx date ⟨.HTTP_11, StatusCode.INTERNAL_SERVER_ERROR, MultiMap.empty⟩
      none dst true orig_len false w =
        encodeEnd ctx date ⟨.HTTP_11, StatusCode.INTERNAL_SERVER_ERROR, MultiMap.empty⟩ none
          ⟨{ HeaderLoop.init true false with dst := dst }, w⟩ := rfl
  rw [hloop]
  simp [encodeEnd, encodeFraming, encodeDate, encodeLength, HeaderLoop.init,
    HeaderLoop.handle_is_name_written, can_have_content_length_internal_server_error,
    Writing.write_full_header_line, Writing.write_header_name_with_colon, Writing.extend]

/-- What a `1xx` head becomes: the error, after one complete `500` head. -/
theorem encodeHead_internal_server_error (ctx : EncodeCtx) (title_case_headers : Bool)
    (canonical_reason : StatusCode → Option (List UInt8)) (date dst : List UInt8) :
    encodeHead ctx title_case_headers canonical_reason date (.error .UnsupportedStatusCode) true false
        ⟨.HTTP_11, StatusCode.INTERNAL_SERVER_ERROR, MultiMap.empty⟩ none none dst =
      some (.error .UnsupportedStatusCode, dst ++ ascii "HTTP/1.1 500 " ++
        (canonical_reason StatusCode.INTERNAL_SERVER_ERROR).getD (ascii "<none>") ++ ascii "\r\n" ++
        (if title_case_headers then ascii "Content-Length: 0\r\nDate: "
          else ascii "content-length: 0\r\ndate: ") ++ date ++ ascii "\r\n\r\n") := by
  rw [encodeHead, statusLine_internal_server_error, Option.map_some]
  cases title_case_headers with
  | false =>
    have hbytes : ascii "content-length: 0\r\ndate: " =
        ascii "content-length: 0\r\n" ++ ascii "date: " := by decide
    simp [origHeaders, encodeWith, encode_headers_with_lower_case,
      encode_headers_internal_server_error, HeaderNameWriter.write_full_header_line,
      HeaderNameWriter.write_header_name_with_colon, hbytes, Except.map]
  | true =>
    -- an empty map: both names fall back to title case
    have hbytes : ascii "Content-Length: 0\r\nDate: " =
        title_case CONTENT_LENGTH.bytes ++ ascii ": 0\r\n" ++ (title_case DATE.bytes ++ ascii ": ") := by
      decide
    have hne : CONTENT_LENGTH ≠ DATE := by decide
    simp [origHeaders, encodeWith, encode_headers_with_original_case,
      encode_headers_internal_server_error, HeaderNameWriter.write_full_header_line,
      HeaderNameWriter.write_header_name_with_colon, OrigCaseWriter.write_header_name, hbytes, hne,
      Except.map]

theorem encode_informational (h1 : head.subject.is_informational)
    (h2 : head.subject ≠ StatusCode.SWITCHING_PROTOCOLS) :
    encode ctx title_case_headers canonical_reason date head orig_case body dst =
      encodeHead ctx title_case_headers canonical_reason date (.error .UnsupportedStatusCode) true false
        ⟨.HTTP_11, StatusCode.INTERNAL_SERVER_ERROR, MultiMap.empty⟩ none none dst := by
  have hns : head.subject.is_success = false := by
    simp only [StatusCode.is_informational, decide_eq_true_eq] at h1
    simp only [StatusCode.is_success, decide_eq_false_iff_not, not_and, not_lt]
    omega
  rw [encode, if_neg h2, if_neg (by simp [hns]), if_pos h1]

theorem encode_of_not_informational
    (h : ¬(head.subject.is_informational ∧ head.subject ≠ StatusCode.SWITCHING_PROTOCOLS)) :
    ∃ is_last wrote_len, encode ctx title_case_headers canonical_reason date head orig_case body dst =
      encodeHead ctx title_case_headers canonical_reason date (.ok ()) is_last wrote_len head orig_case
        body dst := by
  rw [encode]
  split_ifs with h101 hconnect hinfo
  · exact ⟨true, false, rfl⟩
  · exact ⟨true, true, rfl⟩
  · exact absurd ⟨hinfo, h101⟩ h
  · exact ⟨!ctx.keep_alive, false, rfl⟩

end Encode

/-- **A failed `Server::encode` leaves `dst` as it was**: an error for the headers leaves every
byte of `dst` as before the call, whatever the head, body, request method, keep-alive flag and
writer; any other error is the unsupported `1xx` status, which always leaves exactly one complete
`500` head after the bytes that were there. -/
theorem encode_error_rewinds (ctx : EncodeCtx) (title_case_headers : Bool)
    (canonical_reason : StatusCode → Option (List UInt8)) (date : List UInt8)
    (head : MessageHead StatusCode) (orig_case : Option HeaderCaseMap) (body : Option BodyLength)
    (dst : List UInt8) :
    let head500 := ascii "HTTP/1.1 500 " ++
      (canonical_reason StatusCode.INTERNAL_SERVER_ERROR).getD (ascii "<none>") ++ ascii "\r\n" ++
      (if title_case_headers then ascii "Content-Length: 0\r\nDate: "
        else ascii "content-length: 0\r\ndate: ") ++ date ++ ascii "\r\n\r\n"
    (∀ dst', encode ctx title_case_headers canonical_reason date head orig_case body dst =
        some (.error .Header, dst') → dst' = dst) ∧
    (∀ e dst', encode ctx title_case_headers canonical_reason date head orig_case body dst =
        some (.error e, dst') → e ≠ .Header →
      e = .UnsupportedStatusCode ∧ head.subject.is_informational ∧
        head.subject ≠ StatusCode.SWITCHING_PROTOCOLS ∧ dst' = dst ++ head500) ∧
    (head.subject.is_informational → head.subject ≠ StatusCode.SWITCHING_PROTOCOLS →
      encode ctx title_case_headers canonical_reason date head orig_case body dst =
        some (.error .UnsupportedStatusCode, dst ++ head500)) := by
  intro head500
  by_cases h1xx : head.subject.is_informational ∧ head.subject ≠ StatusCode.SWITCHING_PROTOCOLS
  · have henc : encode ctx title_case_headers canonical_reason date head orig_case body dst =
        some (.error .UnsupportedStatusCode, dst ++ head500) := by
      rw [encode_informational h1xx.1 h1xx.2, encodeHead_internal_server_error]
      simp only [head500, List.append_assoc]
    refine ⟨?_, ?_, fun _ _ ↦ henc⟩
    · intro dst' h
      rw [henc] at h
      simp at h
    · intro e dst' h _
      rw [henc] at h
      simp only [Option.some.injEq, Prod.mk.injEq, Except.error.injEq] at h
      obtain ⟨rfl, rfl⟩ := h
      exact ⟨rfl, h1xx.1, h1xx.2, rfl⟩
  · obtain ⟨is_last, wrote_len, henc⟩ := encode_of_not_informational h1xx
    refine ⟨?_, ?_, fun h1 h2 ↦ absurd ⟨h1, h2⟩ h1xx⟩
    · intro dst' h
      rw [henc] at h
      exact (encodeHead_ok_error h).2
    · intro e dst' h hne
      rw [henc] at h
      exact absurd (encodeHead_ok_error h).1 hne

/-- A `Transfer-Encoding` after a written `Content-Length` fails and leaves in `dst` only the
interim `100 Continue` that was there; a `100` response itself is answered by a `500`. -/
theorem late_coding_rewinds_after_continue :
    (∃ dst', encode ⟨some Method.GET, true⟩ false (fun _ ↦ some (ascii "Internal Server Error"))
        (ascii "Sun, 06 Nov 1994 08:49:37 GMT")
        ⟨.HTTP_11, StatusCode.OK, (MultiMap.empty.append CONTENT_LENGTH ⟨ascii "5"⟩).append
          TRANSFER_ENCODING ⟨ascii "chunked"⟩⟩ none (some (.Known 5))
        (ascii "HTTP/1.1 100 Continue\r\n\r\n") = some (.error .Header, dst') ∧
      dst' = ascii "HTTP/1.1 100 Continue\r\n\r\n") ∧
    encode ⟨some Method.GET, true⟩ false (fun _ ↦ some (ascii "Internal Server Error"))
        (ascii "Sun, 06 Nov 1994 08:49:37 GMT") ⟨.HTTP_11, ⟨100, by decide⟩, MultiMap.empty⟩ none none
        [] =
      some (.error .UnsupportedStatusCode, ascii "HTTP/1.1 500 Internal Server Error\r\n" ++
        ascii "content-length: 0\r\ndate: Sun, 06 Nov 1994 08:49:37 GMT\r\n\r\n") := by
  have hfail : encode ⟨some Method.GET, true⟩ false (fun _ ↦ some (ascii "Internal Server Error"))
      (ascii "Sun, 06 Nov 1994 08:49:37 GMT")
      ⟨.HTTP_11, StatusCode.OK, (MultiMap.empty.append CONTENT_LENGTH ⟨ascii "5"⟩).append
        TRANSFER_ENCODING ⟨ascii "chunked"⟩⟩ none (some (.Known 5))
      (ascii "HTTP/1.1 100 Continue\r\n\r\n") =
        some (.error .Header, ascii "HTTP/1.1 100 Continue\r\n\r\n") := by
    decide +kernel
  refine ⟨⟨_, hfail, (encode_error_rewinds _ _ _ _ _ _ _ _).1 _ hfail⟩, ?_⟩
  rw [(encode_error_rewinds ⟨some Method.GET, true⟩ false
    (fun _ ↦ some (ascii "Internal Server Error")) (ascii "Sun, 06 Nov 1994 08:49:37 GMT")
    ⟨.HTTP_11, ⟨100, by decide⟩, MultiMap.empty⟩ none none []).2.2 (by decide) (by decide)]
  decide

/-! ## `LowercaseWriter` and `Server.encode` -/

/-- The variables of `Server.encode_headers` as those of `encode_headers` with `LowercaseWriter`,
after the bytes `pre`. -/
def lowercaseAt (pre : List UInt8) (hl : HeaderLoop) : Writing LowercaseWriter :=
  ⟨{ hl with dst := pre ++ hl.dst }, ⟨⟩⟩

section Lowercase

variable (ctx : EncodeCtx) (head : MessageHead StatusCode) (body : Option BodyLength)
  (orig_len : ℕ) (pre : List UInt8) (hl : HeaderLoop) (value : HeaderValue)

@[simp] theorem wrote_len_lowercaseAt (pre : List UInt8) (hl : HeaderLoop) :
    (lowercaseAt pre hl).wrote_len = hl.wrote_len := rfl

@[simp] theorem wrote_date_lowercaseAt (pre : List UInt8) (hl : HeaderLoop) :
    (lowercaseAt pre hl).wrote_date = hl.wrote_date := rfl

/-- What relates a step of `Server.encode_headers` to one of `encode_headers` with
`LowercaseWriter`: alike states, and the same error. -/
def LowercaseStep : Except User HeaderLoop → Except (User × List UInt8) (Writing LowercaseWriter) → Prop :=
  Except.Agree (fun hl' s ↦ s = lowercaseAt pre hl') (fun e f ↦ e = f.1)

theorem lowercase_encodeContentLength :
    LowercaseStep pre ((Server.encodeContentLength ctx body hl value).map fun
        | .skip s => s
        | .plain s => s.writeLine CONTENT_LENGTH value)
      (encodeContentLength ctx body orig_len (lowercaseAt pre hl) value) := by
  simp only [LowercaseStep, Server.encodeContentLength, encodeContentLength]
  by_cases hguard : hl.wrote_len && !hl.is_name_written
  · simp [lowercaseAt, hguard, Except.map]
  · rcases body with _ | ⟨known_len⟩ | _
    · split_ifs <;> simp_all [lowercaseAt, Except.map, Writing.writeLine, Writing.write_header_name,
        Writing.extend, HeaderNameWriter.write_header_name, HeaderLoop.writeLine]
    · split_ifs <;> simp_all [lowercaseAt, Except.map, Writing.write_header_name_with_colon,
        Writing.extend, HeaderNameWriter.write_header_name_with_colon]
    · rcases hparse : headers.content_length_parse value with _ | len
      · simp [lowercaseAt, hguard, Except.map]
      · rcases hprev : hl.prev_con_len with _ | prev
        · simp [lowercaseAt, hguard, hprev, Except.map, Writing.write_header_name_with_colon,
            Writing.extend, HeaderNameWriter.write_header_name_with_colon]
        · by_cases hne : prev = len <;> simp [lowercaseAt, hguard, hprev, hne, Except.map]

theorem lowercase_encodeTransferEncoding :
    LowercaseStep pre ((Server.encodeTransferEncoding ctx head hl value).map fun
        | .skip s => s
        | .plain s => s.writeLine TRANSFER_ENCODING value)
      (encodeTransferEncoding ctx head orig_len (lowercaseAt pre hl) value) := by
  simp only [LowercaseStep, Server.encodeTransferEncoding, encodeTransferEncoding]
  split_ifs <;> simp_all [lowercaseAt, Except.map, Writing.write_header_name_with_colon,
    Writing.extend, HeaderNameWriter.write_header_name_with_colon]

theorem encodeConnection_lowercaseAt :
    encodeConnection (lowercaseAt pre hl) value = lowercaseAt pre (Server.encodeConnection hl value) := by
  simp only [Server.encodeConnection, encodeConnection]
  split_ifs <;> simp_all [lowercaseAt, Writing.write_header_name_with_colon, Writing.extend,
    HeaderNameWriter.write_header_name_with_colon]

theorem writeLine_lowercaseAt (name : HeaderName) :
    (lowercaseAt pre hl).writeLine name value = lowercaseAt pre (hl.writeLine name value) := by
  simp [lowercaseAt, Writing.writeLine, Writing.write_header_name, Writing.extend,
    HeaderNameWriter.write_header_name, HeaderLoop.writeLine]

/-- **One value, in both models**: the same step, the bytes written after `pre`. -/
theorem lowercase_encodeValue (name : HeaderName) :
    LowercaseStep pre (Server.encodeValue ctx head body name hl value)
      (encodeValue ctx head body orig_len name (lowercaseAt pre hl) value) := by
  simp only [Server.encodeValue, encodeValue]
  split_ifs with hcl hte hconn hdate
  · subst hcl
    exact lowercase_encodeContentLength ctx body orig_len pre hl value
  · subst hte
    exact lowercase_encodeTransferEncoding ctx head orig_len pre hl value
  · exact encodeConnection_lowercaseAt pre hl value
  · exact writeLine_lowercaseAt pre { hl with wrote_date := true } value name
  · exact writeLine_lowercaseAt pre hl value name

theorem handle_is_name_written_lowercaseAt :
    (lowercaseAt pre hl).handle_is_name_written =
      (lowercaseAt pre hl.handle_is_name_written).toHeaderLoop := by
  cases hname : hl.is_name_written
  · simp [lowercaseAt, HeaderLoop.handle_is_name_written, hname]
  · cases hchunked : hl.must_write_chunked <;>
      simp [lowercaseAt, HeaderLoop.handle_is_name_written, hname, hchunked]

theorem entryStart_lowercaseAt :
    ({ lowercaseAt pre hl with
      toHeaderLoop := { (lowercaseAt pre hl).handle_is_name_written with is_name_written := false } } :
        Writing LowercaseWriter) =
      lowercaseAt pre { hl.handle_is_name_written with is_name_written := false } := by
  rw [handle_is_name_written_lowercaseAt]
  rfl

theorem endStart_lowercaseAt :
    ({ lowercaseAt pre hl with toHeaderLoop := (lowercaseAt pre hl).handle_is_name_written } :
        Writing LowercaseWriter) = lowercaseAt pre hl.handle_is_name_written := by
  rw [handle_is_name_written_lowercaseAt]

theorem lowercase_encodeEntry (e : HeaderName × List HeaderValue) :
    LowercaseStep pre (Server.encodeEntry ctx head body hl e)
      (encodeEntry ctx head body orig_len (lowercaseAt pre hl) e) := by
  rw [Server.encodeEntry, encodeEntry, entryStart_lowercaseAt]
  exact List.foldlM_agree e.2 (fun _ hl s ↦ s = lowercaseAt pre hl) _
    (fun _ value _ hl' s _ hs ↦ hs ▸ lowercase_encodeValue ctx head body orig_len pre hl' value e.1) rfl

theorem encodeLength_lowercaseAt :
    encodeLength ctx head body (lowercaseAt pre hl) =
      lowercaseAt pre (Server.encodeLength ctx head body hl) := by
  simp only [encodeLength, Server.encodeLength]
  rcases body with _ | ⟨_ | len⟩ | _ <;> split_ifs <;>
    simp [lowercaseAt, Writing.write_full_header_line, Writing.write_header_name_with_colon,
      Writing.extend, HeaderNameWriter.write_full_header_line,
      HeaderNameWriter.write_header_name_with_colon]

theorem encodeFraming_lowercaseAt :
    encodeFraming ctx head body (lowercaseAt pre hl) =
      lowercaseAt pre (if !hl.handle_is_name_written.wrote_len then
        Server.encodeLength ctx head body hl.handle_is_name_written else hl.handle_is_name_written) := by
  rw [encodeFraming, endStart_lowercaseAt]
  by_cases hw : hl.handle_is_name_written.wrote_len <;> simp [hw, encodeLength_lowercaseAt]

theorem encodeDate_lowercaseAt (date : List UInt8) :
    (encodeDate date (lowercaseAt pre hl)).dst =
      pre ++ if !hl.wrote_date then hl.dst ++ ascii "date: " ++ date ++ ascii "\r\n\r\n"
        else hl.dst ++ ascii "\r\n" := by
  rw [encodeDate, wrote_date_lowercaseAt]
  split_ifs <;> simp [lowercaseAt, Writing.write_header_name_with_colon,
    HeaderNameWriter.write_header_name_with_colon]

/-- `encode_headers` with `LowercaseWriter` after the bytes `pre`: it appends what
`Server.encode_headers` returns, or fails with its error, leaving the bytes `orig`. -/
theorem encode_headers_with_lower_case_eq {orig : List UInt8} (hpre : orig <+: pre)
    (date : List UInt8) (is_last wrote_len : Bool) :
    encode_headers_with_lower_case ctx date head body pre is_last orig.length wrote_len =
      match Server.encode_headers ctx date head body is_last wrote_len with
      | .ok (bytes, encoder) => (.ok encoder, pre ++ bytes)
      | .error e => (.error e, orig) := by
  have hinit : (⟨{ HeaderLoop.init is_last wrote_len with dst := pre }, ⟨⟩⟩ : Writing LowercaseWriter) =
      lowercaseAt pre (HeaderLoop.init is_last wrote_len) := by
    simp [lowercaseAt, HeaderLoop.init]
  have hagree : LowercaseStep pre
      (head.headers.entries.foldlM (Server.encodeEntry ctx head body) (HeaderLoop.init is_last wrote_len))
      (head.headers.entries.foldlM (encodeEntry ctx head body orig.length)
        (lowercaseAt pre (HeaderLoop.init is_last wrote_len))) :=
    List.foldlM_agree _ (fun _ hl s ↦ s = lowercaseAt pre hl) _
      (fun _ e _ hl s _ hs ↦ hs ▸ lowercase_encodeEntry ctx head body orig.length pre hl e) rfl
  have hsat := encodeEntries_keeps ctx head body hpre is_last wrote_len LowercaseWriter.mk
  rw [hinit] at hsat
  simp only [encode_headers_with_lower_case, encode_headers, hinit, Server.encode_headers]
  generalize List.foldlM (Server.encodeEntry ctx head body) (HeaderLoop.init is_last wrote_len)
    head.headers.entries = r at hagree ⊢
  generalize List.foldlM (encodeEntry ctx head body orig.length)
    (lowercaseAt pre (HeaderLoop.init is_last wrote_len)) head.headers.entries = r' at hagree hsat ⊢
  rcases r with e | hl' <;> rcases r' with ⟨e', d⟩ | s'
  · simp only [LowercaseStep, Except.agree_error_error] at hagree
    simp only [Except.sat_error, Prod.mk.injEq] at hsat
    obtain ⟨rfl, rfl⟩ := hsat
    subst hagree
    rfl
  · exact hagree.elim
  · exact hagree.elim
  · simp only [LowercaseStep, Except.agree_ok_ok] at hagree
    subst hagree
    dsimp only
    rw [encodeEnd, encodeFraming_lowercaseAt, encodeDate_lowercaseAt]
    rfl

end Lowercase

/-- With `LowercaseWriter`, `encodeHead` appends what the tail of `Server.encode` returns. -/
theorem encodeHead_lowercase (ctx : EncodeCtx) (canonical_reason : StatusCode → Option (List UInt8))
    (date : List UInt8) (ret : Except User Unit) (is_last wrote_len : Bool)
    (head : MessageHead StatusCode) (body : Option BodyLength) (dst : List UInt8) :
    encodeHead ctx false canonical_reason date ret is_last wrote_len head none body dst =
      ((statusLine canonical_reason head).map fun line ↦
        match Server.encode_headers ctx date head body is_last wrote_len with
        | .error e => (.error e, [])
        | .ok (bytes, encoder) => (ret.map fun () ↦ encoder, line ++ bytes)).map
        fun (r, bytes) ↦ (r, dst ++ bytes) := by
  rw [encodeHead, Option.map_map]
  congr 1
  funext line
  simp only [origHeaders, encodeWith, Function.comp_apply, Bool.false_eq_true, if_false]
  rw [encode_headers_with_lower_case_eq ctx head body (dst ++ line) (List.prefix_append dst line)]
  cases Server.encode_headers ctx date head body is_last wrote_len with
  | error e => simp
  | ok p => simp [List.append_assoc]

/-- **`Server.encode` is `Server::encode` with `LowercaseWriter`**: with no `HeaderCaseMap` and no
title case, `encode` appends to `dst` the bytes that `Server.encode` returns, error or not. -/
theorem encode_lowercase (ctx : EncodeCtx) (canonical_reason : StatusCode → Option (List UInt8))
    (date : List UInt8) (head : MessageHead StatusCode) (body : Option BodyLength) (dst : List UInt8) :
    encode ctx false canonical_reason date head none body dst =
      (Server.encode ctx canonical_reason date head body).map fun (r, bytes) ↦ (r, dst ++ bytes) := by
  rw [encode, Server.encode]
  split_ifs <;> exact encodeHead_lowercase ctx canonical_reason date _ _ _ _ _ dst


end Impl

end Server

end H1

end Hyper
