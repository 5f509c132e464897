import Hyper.Headers
import Hyper.H1.Decode

/-!
# Message heads, parse errors and body lengths (`proto`, `error.rs`, `body/length.rs`)

The types the HTTP/1 roles read and build, and what they take from `httparse`.

`httparse` is not part of hyper.  A call to it is modelled by the value it returns: `Complete`
with the length of the head and the fields it read, `Partial`, or an error.  The roles are
therefore functions of the parser (`RequestParser`, `ResponseParser`), and a statement about
them holds for every parser, or for every parser that reads a given head as it is written.
`Uri` is the same: hyper only calls its `FromStr` and prints it, so a `Uri` is its printed bytes
and the parse is a parameter (`UriParser`).

`DecodedLength` is a `u64` with two reserved values, `CHUNKED` and `CLOSE_DELIMITED`; every
length hyper accepts is at most `MAX_LEN`, and `checked_new` is the check.  `Decoder.new` turns
one into the decoder of `Hyper.H1.Decode`.
-/

set_option autoImplicit false

namespace Hyper

/-! ## `httparse` -/

namespace httparse

/-- `httparse::Error`. -/
inductive Error where
  | HeaderName
  | HeaderValue
  | NewLine
  | Status
  | Token
  | TooManyHeaders
  | Version
  deriving DecidableEq, Repr

/-- `httparse::Header`: the name and value bytes of one field line, as it stands in the buffer. -/
structure Header where
  name : List UInt8
  value : List UInt8
  deriving DecidableEq, Repr

/-- `httparse::Status`: a complete head of `len` bytes, or not enough bytes yet. -/
inductive Status (α : Type) where
  | Complete (len : ℕ) (value : α)
  | Partial
  deriving DecidableEq, Repr

/-- A `httparse::Request` after a `Complete` parse: every field is set. -/
structure Request where
  method : List UInt8
  path : List UInt8
  version : ℕ
  headers : List Header
  deriving DecidableEq, Repr

/-- A `httparse::Response` after a `Complete` parse. -/
structure Response where
  version : ℕ
  code : ℕ
  headers : List Header
  deriving DecidableEq, Repr

/-- A failed request parse, with whether `req.method` had been read when it failed. -/
structure Failure where
  error : Error
  method_parsed : Bool
  deriving DecidableEq, Repr

/-- Whether a field line is named `k`, in any case: what `HeaderName::from_bytes` of its name
compares equal to `k`. -/
def Header.isNamed (k : HeaderName) (h : Header) : Bool := h.name.map toLowerAscii = k.bytes

/-- A line whose name `from_bytes` accepts is named `k` exactly when that name is `k`. -/
theorem Header.isNamed_iff {h : Header} {n : HeaderName} (hn : HeaderName.from_bytes h.name = some n)
    (k : HeaderName) : h.isNamed k ↔ n = k := by
  rw [isNamed, decide_eq_true_iff, ← HeaderName.from_bytes_bytes hn, HeaderName.bytes_inj]

end httparse

/-- The values of the field lines named `k`, in the order they came. -/
def fieldValues (k : HeaderName) (hs : List httparse.Header) : List (List UInt8) :=
  (hs.filter (·.isNamed k)).map (·.value)

theorem fieldValues_append (k : HeaderName) (hs hs' : List httparse.Header) :
    fieldValues k (hs ++ hs') = fieldValues k hs ++ fieldValues k hs' := by
  simp [fieldValues]

theorem fieldValues_concat (k : HeaderName) (hs : List httparse.Header) (h : httparse.Header) :
    fieldValues k (hs ++ [h]) = fieldValues k hs ++ if h.isNamed k then [h.value] else [] := by
  rw [fieldValues_append]
  by_cases hk : h.isNamed k <;> simp [fieldValues, hk]

/-- The last of the `Transfer-Encoding` values `te` ends in the coding `chunked`. -/
def LastChunked (te : List (List UInt8)) : Prop := ∃ v, te.getLast? = some v ∧ headers.is_chunked_ ⟨v⟩

/-- `is_chunked` of the values of some lines is the test of their last one. -/
theorem is_chunked_map_iff (te : List (List UInt8)) :
    headers.is_chunked (te.map HeaderValue.mk) ↔ LastChunked te := by
  rw [headers.is_chunked, List.getLast?_map, LastChunked]
  cases te.getLast? <;> simp

/-- `Request::parse_with_uninit_headers` with `MAX_HEADERS` slots, on the buffered bytes. -/
abbrev RequestParser := List UInt8 → Except httparse.Failure (httparse.Status httparse.Request)

/-- `ParserConfig::parse_response_with_uninit_headers` with `MAX_HEADERS` slots. -/
abbrev ResponseParser := List UInt8 → Except httparse.Error (httparse.Status httparse.Response)

/-! ## Parse errors -/

/-- `error::Header`. -/
inductive HeaderError where
  | Token
  | ContentLengthInvalid
  | TransferEncodingInvalid
  | TransferEncodingUnexpected
  deriving DecidableEq, Repr

/-- `error::Parse`. -/
inductive Parse where
  | Method
  | Version
  | VersionH2
  | Uri
  | UriTooLong
  | Header (h : HeaderError)
  | TooLarge
  | Status
  | Internal
  deriving DecidableEq, Repr

namespace Parse

/-- `Parse::content_length_invalid`. -/
def content_length_invalid : Parse := .Header .ContentLengthInvalid

/-- `Parse::transfer_encoding_invalid`. -/
def transfer_encoding_invalid : Parse := .Header .TransferEncodingInvalid

/-- `Parse::transfer_encoding_unexpected`. -/
def transfer_encoding_unexpected : Parse := .Header .TransferEncodingUnexpected

/-- `impl From<httparse::Error> for Parse`. -/
def ofHttparse : httparse.Error → Parse
  | .HeaderName | .HeaderValue | .NewLine | .Token => .Header .Token
  | .Status => .Status
  | .TooManyHeaders => .TooLarge
  | .Version => .Version

end Parse

/-! ## Lengths -/

/-- `DecodedLength`: a `u64` read as a length, or as one of the two reserved values. -/
structure DecodedLength where
  val : ℕ
  deriving DecidableEq, Repr

namespace DecodedLength

/-- `MAX_LEN`: the largest length that is not reserved. -/
def MAX_LEN : ℕ := 2 ^ 64 - 3

/-- `DecodedLength::CLOSE_DELIMITED`. -/
def CLOSE_DELIMITED : DecodedLength := ⟨2 ^ 64 - 1⟩

/-- `DecodedLength::CHUNKED`. -/
def CHUNKED : DecodedLength := ⟨2 ^ 64 - 2⟩

/-- `DecodedLength::ZERO`. -/
def ZERO : DecodedLength := ⟨0⟩

/-- `DecodedLength::checked_new`. -/
def checked_new (len : ℕ) : Except Parse DecodedLength :=
  if len ≤ MAX_LEN then .ok ⟨len⟩ else .error .TooLarge

/-- `DecodedLength::danger_len`. -/
def danger_len (d : DecodedLength) : ℕ := d.val

theorem checked_new_eq_ok {len : ℕ} {d : DecodedLength} :
    checked_new len = .ok d ↔ len ≤ MAX_LEN ∧ d = ⟨len⟩ := by
  unfold checked_new
  split_ifs with h <;> simp [h, eq_comm]

/-- A length that `checked_new` lets through is neither reserved value. -/
theorem ne_reserved {n : ℕ} (h : n ≤ MAX_LEN) :
    (⟨n⟩ : DecodedLength) ≠ CHUNKED ∧ (⟨n⟩ : DecodedLength) ≠ CLOSE_DELIMITED := by
  unfold MAX_LEN at h
  refine ⟨fun he ↦ ?_, fun he ↦ ?_⟩
  · have := congrArg val he
    simp only [CHUNKED] at this
    omega
  · have := congrArg val he
    simp only [CLOSE_DELIMITED] at this
    omega

end DecodedLength

/-- `BodyLength`: the length of an outgoing body, if it is known. -/
inductive BodyLength where
  | Known (n : ℕ)
  | Unknown
  deriving DecidableEq, Repr

/-! ## Heads -/

/-- `http::Uri`, by its printed form. -/
structure Uri where
  bytes : List UInt8
  deriving DecidableEq, Repr

/-- `<Uri as FromStr>::from_str`. -/
abbrev UriParser := List UInt8 → Option Uri

/-- `RequestLine`. -/
structure RequestLine where
  method : Method
  uri : Uri
  deriving DecidableEq, Repr

/-- `MessageHead`, without the extensions hyper's framing never reads. -/
structure MessageHead (S : Type) where
  version : Version
  subject : S
  headers : HeaderMap
  deriving DecidableEq

/-- `ParsedMessage`. -/
structure ParsedMessage (S : Type) where
  head : MessageHead S
  decode : DecodedLength
  expect_continue : Bool
  keep_alive : Bool
  wants_upgrade : Bool

/-- `MAX_URI_LEN`. -/
def MAX_URI_LEN : ℕ := 2 ^ 16 - 2

/-- The parts of `ParseContext` the roles read: the method of the request a response answers,
and whether an HTTP/0.9 response is accepted. -/
structure ParseContext where
  req_method : Option Method
  h09_responses : Bool

namespace H1

/-- `record_header_indices`: a name of 64 KiB or more is refused. -/
def record_header_indices (headers : List httparse.Header) : Except Parse Unit :=
  if headers.any (fun h ↦ 2 ^ 16 ≤ h.name.length) then .error .TooLarge else .ok ()

/-- `parse_headers`: an empty buffer is not handed to the role. -/
def parse_headers {T : Type} (parse : List UInt8 → Except Parse (Option (ParsedMessage T)) × List UInt8)
    (buf : List UInt8) : Except Parse (Option (ParsedMessage T)) × List UInt8 :=
  if buf = [] then (.ok none, buf) else parse buf

/-- `Decoder::new`. -/
def Decoder.new (len : DecodedLength) : Decoder :=
  if len = DecodedLength.CHUNKED then Decoder.chunked
  else if len = DecodedLength.CLOSE_DELIMITED then Decoder.eof
  else Decoder.length len.danger_len

end H1

end Hyper
