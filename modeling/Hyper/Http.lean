import Hyper.Basic
import Hyper.Lib.MultiMap
import Hyper.Lib.Numeral

/-!
# What hyper takes from the `http` crate, and from `str`

hyper's message heads are made of the `http` crate's types.  They are modelled here by their
documented behaviour, only as far as hyper reads or builds them:

* `HeaderName`: a field name, stored in lower case.  `HeaderName::from_bytes` lowers ASCII
  letters and accepts a non-empty run of `tchar` (RFC 7230 §3.2.6); the structure carries that
  invariant, so no name outside it can be built.  The standard names hyper matches on are
  `TRANSFER_ENCODING` and its siblings.
* `HeaderValue`: the bytes of a field value.  hyper builds the values it parses without
  checking them, and `to_str` succeeds only on visible ASCII and tabs (`HeaderValue.to_str`).
* `HeaderMap`: an ordered multimap from names to values (`Hyper.Lib.MultiMap`).  The crate
  documents its iteration order as unspecified; the model keeps entries in the order their names
  were first added and drops an entry in place on `remove`.
* `Method`, `Version` and `StatusCode`, with the tests hyper makes of them.

hyper parses the text of header values with `str` methods: `split(',')`, `trim()` and
`eq_ignore_ascii_case`.  On visible ASCII, which is all `to_str` lets through, they are
`splitOn`, dropping ASCII white space at both ends, and comparison after lowering.
-/

set_option autoImplicit false

namespace Hyper

/-! ## Bytes as text -/

/-- `u8::to_ascii_lowercase`. -/
def toLowerAscii (b : UInt8) : UInt8 := if 65 ≤ b ∧ b ≤ 90 then b + 32 else b

/-- `char::is_ascii_whitespace` extended, as `char::is_whitespace` is, by the vertical tab:
what `str::trim` removes from ASCII text. -/
def isWhitespace (b : UInt8) : Bool := b = 32 ∨ (9 ≤ b ∧ b ≤ 13)

/-- `str::trim` on ASCII text. -/
def trim (s : List UInt8) : List UInt8 :=
  ((s.dropWhile isWhitespace).reverse.dropWhile isWhitespace).reverse

/-- `<[u8]>::eq_ignore_ascii_case`. -/
def eq_ignore_ascii_case (a b : List UInt8) : Bool :=
  a.map toLowerAscii = b.map toLowerAscii

/-- `str::split(',')`: the pieces between commas, empty ones included. -/
def splitComma (s : List UInt8) : List (List UInt8) := s.splitOn 44

/-- A `tchar` of RFC 7230 §3.2.6: a letter, a digit, or one of ``!#$%&'*+-.^_`|~``. -/
def IsTchar (b : UInt8) : Prop :=
  (97 ≤ b ∧ b ≤ 122) ∨ (65 ≤ b ∧ b ≤ 90) ∨ (48 ≤ b ∧ b ≤ 57) ∨
    b ∈ [33, 35, 36, 37, 38, 39, 42, 43, 45, 46, 94, 95, 96, 124, 126]

instance (b : UInt8) : Decidable (IsTchar b) := inferInstanceAs (Decidable (_ ∨ _))

/-- A byte of a header name as `HeaderName` stores it: a `tchar` that is not an upper-case
letter. -/
def IsNameByte (b : UInt8) : Prop := IsTchar b ∧ ¬(65 ≤ b ∧ b ≤ 90)

instance (b : UInt8) : Decidable (IsNameByte b) := inferInstanceAs (Decidable (_ ∧ _))

/-! ## Header names and values -/

/-- `http::HeaderName`: a non-empty run of lower-case `tchar`s. -/
structure HeaderName where
  bytes : List UInt8
  valid : bytes ≠ [] ∧ ∀ b ∈ bytes, IsNameByte b
  deriving DecidableEq

namespace HeaderName

/-- `HeaderName::from_bytes`: lower the letters, and accept a non-empty run of `tchar`s. -/
def from_bytes (src : List UInt8) : Option HeaderName :=
  let lower := src.map toLowerAscii
  if h : lower ≠ [] ∧ ∀ b ∈ lower, IsNameByte b then some ⟨lower, h⟩ else none

theorem bytes_inj {a b : HeaderName} : a.bytes = b.bytes ↔ a = b := by
  cases a
  cases b
  simp

/-- A name `from_bytes` accepts is the lowered source. -/
theorem from_bytes_bytes {src : List UInt8} {n : HeaderName} (h : from_bytes src = some n) :
    n.bytes = src.map toLowerAscii := by
  simp only [from_bytes] at h
  split_ifs at h
  cases h
  rfl

/-- `header::TRANSFER_ENCODING`. -/
def TRANSFER_ENCODING : HeaderName := ⟨ascii "transfer-encoding", by decide +kernel⟩

/-- `header::CONTENT_LENGTH`. -/
def CONTENT_LENGTH : HeaderName := ⟨ascii "content-length", by decide +kernel⟩

/-- `header::CONNECTION`. -/
def CONNECTION : HeaderName := ⟨ascii "connection", by decide +kernel⟩

/-- `header::EXPECT`. -/
def EXPECT : HeaderName := ⟨ascii "expect", by decide +kernel⟩

/-- `header::UPGRADE`. -/
def UPGRADE : HeaderName := ⟨ascii "upgrade", by decide +kernel⟩

/-- `header::DATE`. -/
def DATE : HeaderName := ⟨ascii "date", by decide +kernel⟩

/-- The two framing names differ. -/
@[simp] theorem TRANSFER_ENCODING_ne_CONTENT_LENGTH : TRANSFER_ENCODING ≠ CONTENT_LENGTH := by
  decide

@[simp] theorem CONTENT_LENGTH_ne_TRANSFER_ENCODING : CONTENT_LENGTH ≠ TRANSFER_ENCODING :=
  TRANSFER_ENCODING_ne_CONTENT_LENGTH.symm

end HeaderName

/-- `http::HeaderValue`: the bytes of a field value. -/
structure HeaderValue where
  bytes : List UInt8
  deriving DecidableEq, Repr

namespace HeaderValue

/-- The test of `HeaderValue::to_str`: visible ASCII, or a tab. -/
def is_visible_ascii (b : UInt8) : Bool := (32 ≤ b ∧ b < 127) ∨ b = 9

/-- `HeaderValue::to_str`: the value as text, if it is all visible ASCII. -/
def to_str (v : HeaderValue) : Option (List UInt8) :=
  if v.bytes.all is_visible_ascii then some v.bytes else none

theorem to_str_eq_some_iff (v : HeaderValue) (s : List UInt8) :
    v.to_str = some s ↔ v.bytes.all is_visible_ascii ∧ v.bytes = s := by
  rw [to_str]
  split_ifs with h <;> simp [h]

/-- `HeaderValue::from_static`. -/
def from_static (s : String) : HeaderValue := ⟨ascii s⟩

/-- The byte of the decimal digit `d < 10`. -/
def digitSym (d : ℕ) : UInt8 := (48 + d).toUInt8

/-- `HeaderValue::from(u64)`, which prints with `itoa`. -/
def from_u64 (n : ℕ) : HeaderValue := ⟨Numeral.render 10 digitSym n⟩

end HeaderValue

/-- `http::HeaderMap`. -/
abbrev HeaderMap := MultiMap HeaderName HeaderValue

/-! ## Methods, versions and status codes -/

/-- `http::Method`, by the bytes of its name. -/
structure Method where
  bytes : List UInt8
  deriving DecidableEq, Repr

namespace Method

/-- `Method::GET`. -/
def GET : Method := ⟨ascii "GET"⟩

/-- `Method::HEAD`. -/
def HEAD : Method := ⟨ascii "HEAD"⟩

/-- `Method::CONNECT`. -/
def CONNECT : Method := ⟨ascii "CONNECT"⟩

/-- `Method::from_bytes`: any non-empty run of `tchar`s, the standard methods among them. -/
def from_bytes (src : List UInt8) : Option Method :=
  if src ≠ [] ∧ ∀ b ∈ src, IsTchar b then some ⟨src⟩ else none

end Method

/-- `http::Version`. -/
inductive Version where
  | HTTP_09
  | HTTP_10
  | HTTP_11
  | HTTP_2
  | HTTP_3
  deriving DecidableEq, Repr

/-- `http::StatusCode`: a code of three digits. -/
structure StatusCode where
  code : ℕ
  valid : 100 ≤ code ∧ code < 1000
  deriving DecidableEq

namespace StatusCode

/-- `StatusCode::from_u16`. -/
def from_u16 (n : ℕ) : Option StatusCode := if h : 100 ≤ n ∧ n < 1000 then some ⟨n, h⟩ else none

/-- `StatusCode::as_u16`. -/
def as_u16 (s : StatusCode) : ℕ := s.code

/-- `StatusCode::is_informational`. -/
def is_informational (s : StatusCode) : Bool := 100 ≤ s.code ∧ s.code < 200

/-- `StatusCode::is_success`. -/
def is_success (s : StatusCode) : Bool := 200 ≤ s.code ∧ s.code < 300

/-- `StatusCode::OK`. -/
def OK : StatusCode := ⟨200, by decide⟩

/-- `StatusCode::SWITCHING_PROTOCOLS`. -/
def SWITCHING_PROTOCOLS : StatusCode := ⟨101, by decide⟩

/-- `StatusCode::NO_CONTENT`. -/
def NO_CONTENT : StatusCode := ⟨204, by decide⟩

/-- `StatusCode::NOT_MODIFIED`. -/
def NOT_MODIFIED : StatusCode := ⟨304, by decide⟩

/-- `StatusCode::INTERNAL_SERVER_ERROR`. -/
def INTERNAL_SERVER_ERROR : StatusCode := ⟨500, by decide⟩

/-- `StatusCode::as_str`: the code's three digits. -/
def as_str (s : StatusCode) : List UInt8 := Numeral.render 10 HeaderValue.digitSym s.code

end StatusCode

end Hyper
