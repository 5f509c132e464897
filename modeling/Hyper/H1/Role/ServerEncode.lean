import Hyper.H1.Role.ClientEncode

/-!
# How a server writes a response head (`Server::encode`, `Server::encode_headers`, `role.rs`)

`Server::encode` picks whether the connection ends after this response (`is_last`), writes the
status line, and hands the header map to `encode_headers`.  That loop drains the map, writing
each entry's lines and choosing the body's encoder from the framing headers it meets; then,
unless a framing header was written, it adds one for the body's length, and last the `Date`.

Three headers are written as one line with their values joined by `, ` (`Content-Length` keeps
only its first value): `is_name_written` says such a line is open, and the next entry's name, or
the end of the map, closes it with `\r\n`.  A `Transfer-Encoding` whose value does not end in
`chunked` sets `must_write_chunked`, so that the line is closed with `, chunked\r\n` instead.
Nothing resets that flag when the next entry starts: a `Connection` line after such a
`Transfer-Encoding` is also closed with `, chunked` (`server_encode_chunked_leaks`).

The writer is `LowercaseWriter`, the one used without a `HeaderCaseMap` and title-case option.
The reason phrase (`canonical_reason`) and the cached date (`date::extend`) are parameters.
-/

set_option autoImplicit false

namespace Hyper

/-- The kinds of `error::User` that the roles and the connection raise. -/
inductive User where
  | Body
  | Header
  | UnsupportedStatusCode
  deriving DecidableEq, Repr

namespace H1

open headers HeaderName

namespace Server

/-- The parts of `Encode` the server reads beside the head and the body. -/
structure EncodeCtx where
  req_method : Option Method
  keep_alive : Bool

/-- `Server::can_chunked`. -/
def can_chunked (method : Option Method) (status : StatusCode) : Bool :=
  if method = some Method.HEAD ∨ (method = some Method.CONNECT ∧ status.is_success) then false
  else if status.is_informational then false
  else !(status = StatusCode.NO_CONTENT ∨ status = StatusCode.NOT_MODIFIED)

/-- `Server::can_have_body`. -/
def can_have_body (method : Option Method) (status : StatusCode) : Bool :=
  can_chunked method status

/-- `Server::can_have_content_length`. -/
def can_have_content_length (method : Option Method) (status : StatusCode) : Bool :=
  if status.is_informational ∨ (method = some Method.CONNECT ∧ status.is_success) then false
  else !(status = StatusCode.NO_CONTENT ∨ status = StatusCode.NOT_MODIFIED)

/-! ## The header loop -/

/-- The variables of `encode_headers`; `dst` is what it has written after the status line. -/
structure HeaderLoop where
  dst : List UInt8
  encoder : Encoder
  wrote_len : Bool
  wrote_date : Bool
  is_name_written : Bool
  must_write_chunked : Bool
  prev_con_len : Option ℕ
  is_last : Bool

/-- The variables before the first entry. -/
def HeaderLoop.init (is_last wrote_len : Bool) : HeaderLoop :=
  ⟨[], Encoder.length 0, wrote_len, false, false, false, none, is_last⟩

/-- `handle_is_name_written!`: close an open combined line. -/
def HeaderLoop.handle_is_name_written (s : HeaderLoop) : HeaderLoop :=
  if s.is_name_written then
    { s with dst := s.dst ++ (if s.must_write_chunked then ascii ", chunked\r\n" else ascii "\r\n") }
  else s

/-- What an arm of the `match *name` does with a value: `skip` is its `continue 'headers`, and
`plain` goes on to write the value as a line of its own. -/
inductive Arm where
  | skip (s : HeaderLoop)
  | plain (s : HeaderLoop)

/-- The `CONTENT_LENGTH` arm. -/
def encodeContentLength (ctx : EncodeCtx) (body : Option BodyLength) (s : HeaderLoop)
    (value : HeaderValue) : Except User Arm :=
  if s.wrote_len && !s.is_name_written then .error .Header
  else
    match body with
    | some (.Known known_len) =>
      -- the length of the body is trusted; only the first value is written
      if !s.is_name_written then
        .ok (.skip { s with
          encoder := Encoder.length known_len, dst := s.dst ++ ascii "content-length: " ++ value.bytes,
          wrote_len := true, is_name_written := true })
      else .ok (.skip s)
    | some .Unknown =>
      match content_length_parse value with
      | some len =>
        match s.prev_con_len with
        | some prev => if prev ≠ len then .error .Header else .ok (.skip s)
        | none =>
          .ok (.skip { s with
            encoder := Encoder.length len, dst := s.dst ++ ascii "content-length: " ++ value.bytes,
            wrote_len := true, is_name_written := true, prev_con_len := some len })
      | none => .error .Header
    | none =>
      -- a length with no body is kept only in a response to `HEAD`
      if ctx.req_method = some Method.HEAD then .ok (.plain { s with wrote_len := true })
      else .ok (.skip s)

/-- The `TRANSFER_ENCODING` arm: dropped where chunked cannot be sent, and otherwise joined into
one line, with `must_write_chunked` set by the value just read. -/
def encodeTransferEncoding (ctx : EncodeCtx) (head : MessageHead StatusCode) (s : HeaderLoop)
    (value : HeaderValue) : Except User Arm :=
  if s.wrote_len && !s.is_name_written then .error .Header
  else if head.version = .HTTP_10 || !can_chunked ctx.req_method head.subject then .ok (.skip s)
  else
    let s := { s with wrote_len := true, must_write_chunked := !is_chunked_ value }
    if !s.is_name_written then
      .ok (.skip { s with
        encoder := Encoder.chunked, is_name_written := true,
        dst := s.dst ++ ascii "transfer-encoding: " ++ value.bytes })
    else .ok (.skip { s with dst := s.dst ++ ascii ", " ++ value.bytes })

/-- The `CONNECTION` arm: joined into one line, and `close` makes this the last response. -/
def encodeConnection (s : HeaderLoop) (value : HeaderValue) : HeaderLoop :=
  let s := if !s.is_last && connection_close value then { s with is_last := true } else s
  if !s.is_name_written then
    { s with is_name_written := true, dst := s.dst ++ ascii "connection: " ++ value.bytes }
  else { s with dst := s.dst ++ ascii ", " ++ value.bytes }

/-- A value written as a line of its own. -/
def HeaderLoop.writeLine (s : HeaderLoop) (name : HeaderName) (value : HeaderValue) : HeaderLoop :=
  { s with dst := s.dst ++ name.bytes ++ ascii ": " ++ value.bytes ++ ascii "\r\n" }

/-- One value of the entry for `name`: the `match *name`, and the plain line after it. -/
def encodeValue (ctx : EncodeCtx) (head : MessageHead StatusCode) (body : Option BodyLength)
    (name : HeaderName) (s : HeaderLoop) (value : HeaderValue) : Except User HeaderLoop :=
  let arm : Except User Arm :=
    if name = CONTENT_LENGTH then encodeContentLength ctx body s value
    else if name = TRANSFER_ENCODING then encodeTransferEncoding ctx head s value
    else if name = CONNECTION then .ok (.skip (encodeConnection s value))
    else if name = DATE then .ok (.plain { s with wrote_date := true })
    else .ok (.plain s)
  arm.map fun
    | .skip s => s
    | .plain s => s.writeLine name value

/-- One entry of `drain`: its name comes with its first value, which closes the line left open
and resets `is_name_written`; then each of its values.  Iterating over the entries and their
values is the loop over `drain`, with `cur_name` the entry's name, so its `expect` never fails. -/
def encodeEntry (ctx : EncodeCtx) (head : MessageHead StatusCode) (body : Option BodyLength)
    (s : HeaderLoop) (e : HeaderName × List HeaderValue) : Except User HeaderLoop :=
  e.2.foldlM (encodeValue ctx head body e.1) { s.handle_is_name_written with is_name_written := false }

/-- The framing `encode_headers` adds when no framing header was written. -/
def encodeLength (ctx : EncodeCtx) (head : MessageHead StatusCode) (body : Option BodyLength)
    (s : HeaderLoop) : HeaderLoop :=
  match body with
  | some .Unknown =>
    if head.version = .HTTP_10 || !can_chunked ctx.req_method head.subject then
      { s with encoder := Encoder.close_delimited }
    else { s with dst := s.dst ++ ascii "transfer-encoding: chunked\r\n", encoder := Encoder.chunked }
  | none | some (.Known 0) =>
    { s with
      encoder := Encoder.length 0,
      dst := if can_have_content_length ctx.req_method head.subject then
        s.dst ++ ascii "content-length: 0\r\n" else s.dst }
  | some (.Known len) =>
    if !can_have_content_length ctx.req_method head.subject then { s with encoder := Encoder.length 0 }
    else { s with
      encoder := Encoder.length len,
      dst := s.dst ++ ascii "content-length: " ++ (HeaderValue.from_u64 len).bytes ++ ascii "\r\n" }

/-- `Server::encode_headers` with `LowercaseWriter`: the bytes after the status line and the
encoder, or the error on which `dst` is rewound. -/
def encode_headers (ctx : EncodeCtx) (date : List UInt8) (head : MessageHead StatusCode)
    (body : Option BodyLength) (is_last wrote_len : Bool) : Except User (List UInt8 × Encoder) := do
  let s ← head.headers.entries.foldlM (encodeEntry ctx head body) (HeaderLoop.init is_last wrote_len)
  let s := s.handle_is_name_written
  let s := if !s.wrote_len then encodeLength ctx head body s else s
  let encoder := if !can_have_body ctx.req_method head.subject then Encoder.length 0 else s.encoder
  let dst := if !s.wrote_date then s.dst ++ ascii "date: " ++ date ++ ascii "\r\n\r\n"
    else s.dst ++ ascii "\r\n"
  return (dst, encoder.set_last s.is_last)

/-- The status line; `none` is the panic on a version a response cannot have. -/
def statusLine (canonical_reason : StatusCode → Option (List UInt8)) (head : MessageHead StatusCode) :
    Option (List UInt8) :=
  if head.version = .HTTP_11 ∧ head.subject = StatusCode.OK then some (ascii "HTTP/1.1 200 OK\r\n")
  else (Client.versionBytes head.version).map fun version ↦
    version ++ ascii " " ++ head.subject.as_str ++ ascii " " ++
      (canonical_reason head.subject).getD (ascii "<none>") ++ ascii "\r\n"

/-- `Server::encode`: the result and the bytes written.  A 1xx response is replaced by a bare
`500`, which is written, and the error returned; an error of `encode_headers` writes nothing. -/
def encode (ctx : EncodeCtx) (canonical_reason : StatusCode → Option (List UInt8))
    (date : List UInt8) (head : MessageHead StatusCode) (body : Option BodyLength) :
    Option (Except User Encoder × List UInt8) :=
  let (ret, is_last, wrote_len, head, body) :
      Except User Unit × Bool × Bool × MessageHead StatusCode × Option BodyLength :=
    if head.subject = StatusCode.SWITCHING_PROTOCOLS then (.ok (), true, false, head, body)
    else if ctx.req_method = some Method.CONNECT ∧ head.subject.is_success then
      -- no length or coding on a 2xx to `CONNECT`
      (.ok (), true, true, head, body)
    else if head.subject.is_informational then
      (.error .UnsupportedStatusCode, true, false,
        ⟨.HTTP_11, StatusCode.INTERNAL_SERVER_ERROR, MultiMap.empty⟩, none)
    else (.ok (), !ctx.keep_alive, false, head, body)
  (statusLine canonical_reason head).map fun line ↦
    match encode_headers ctx date head body is_last wrote_len with
    | .error e => (.error e, [])
    | .ok (dst, encoder) => (ret.map fun () ↦ encoder, line ++ dst)

/-- A `200` over HTTP/1.1, kept alive, with a body of unknown length, a `Transfer-Encoding` of
`gzip` and then `Connection: close`: the `Connection` line is closed with `, chunked` too. -/
theorem server_encode_chunked_leaks :
    encode ⟨some Method.GET, true⟩ (fun _ ↦ none) (ascii "Sun, 06 Nov 1994 08:49:37 GMT")
        ⟨.HTTP_11, StatusCode.OK, (MultiMap.empty.append TRANSFER_ENCODING ⟨ascii "gzip"⟩).append
          CONNECTION ⟨ascii "close"⟩⟩ (some .Unknown) =
      some (.ok ⟨.Chunked, true⟩,
        ascii "HTTP/1.1 200 OK\r\ntransfer-encoding: gzip, chunked\r\nconnection: close, chunked\r\n" ++
          ascii "date: Sun, 06 Nov 1994 08:49:37 GMT\r\n\r\n") := by
  decide +kernel

end Server

end H1

end Hyper
