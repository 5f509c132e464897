import Hyper.Proto
import Hyper.Lib.ExceptFold

/-!
# How a server reads a request head (`Server::parse`, `role.rs`)

`Server::parse` hands the buffer to `httparse`; on a complete head it checks the request line,
removes the head from the buffer, and folds over the field lines in the order they came, with
the flags `is_te`, `is_te_chunked` and `con_len`, to decide how the body is framed.

The fold is `readLines` over `readLine`; `Scan` holds its variables.  `FramingInv` is what the
variables say about the lines read so far, and `readLines_inv` carries it over a whole run of
lines from the one-line lemma `readLine_inv`.  `server_parse_framing` is RFC 7230 §3.3.3 for
requests: every accepted head is framed as `RequestFraming` says, and every head that
`BadRequestFraming` describes is refused.
-/

set_option autoImplicit false

namespace Hyper.H1

open headers HeaderName

namespace Server

/-! ## The model -/

/-- The variables of the header loop of `Server::parse`. -/
structure Scan where
  decoder : DecodedLength
  expect_continue : Bool
  con_len : Option ℕ
  is_te : Bool
  is_te_chunked : Bool
  wants_upgrade : Bool
  keep_alive : Bool
  headers : HeaderMap

/-- The four variables that decide the framing. -/
def Scan.framing (s : Scan) : DecodedLength × Option ℕ × Bool × Bool :=
  (s.decoder, s.con_len, s.is_te, s.is_te_chunked)

/-- The variables before the first line: `keep_alive` is the version's default. -/
def Scan.init (method : Method) (is_http_11 : Bool) : Scan :=
  ⟨.ZERO, false, none, false, false, method = Method.CONNECT, is_http_11, MultiMap.empty⟩

/-- The `TRANSFER_ENCODING` arm: refused on HTTP/1.0, and otherwise the last line decides
whether the body is chunked. -/
def onTransferEncoding (is_http_11 : Bool) (s : Scan) (value : HeaderValue) :
    Except Parse Scan :=
  if !is_http_11 then .error Parse.transfer_encoding_unexpected
  else if is_chunked_ value then
    .ok { s with is_te := true, is_te_chunked := true, decoder := .CHUNKED }
  else .ok { s with is_te := true, is_te_chunked := false }

/-- The `CONTENT_LENGTH` arm; `none` is its `continue`: after a `Transfer-Encoding`, and on a
repeat of the length already read. -/
def onContentLength (s : Scan) (value : HeaderValue) : Except Parse (Option Scan) :=
  if s.is_te then .ok none
  else
    match content_length_parse value with
    | none => .error Parse.content_length_invalid
    | some len =>
      match s.con_len with
      | some prev => if prev ≠ len then .error Parse.content_length_invalid else .ok none
      | none =>
        match DecodedLength.checked_new len with
        | .error e => .error e
        | .ok d => .ok (some { s with decoder := d, con_len := some len })

/-- The `match name` of the loop; `none` is a `continue`, which skips the append. -/
def readHeader (is_http_11 : Bool) (s : Scan) (name : HeaderName) (value : HeaderValue) :
    Except Parse (Option Scan) :=
  if name = TRANSFER_ENCODING then (onTransferEncoding is_http_11 s value).map some
  else if name = CONTENT_LENGTH then onContentLength s value
  else if name = CONNECTION then
    -- the version's default is overridden by the header, in the version's own sense
    .ok (some { s with keep_alive :=
      if s.keep_alive then !connection_close value else connection_keep_alive value })
  else if name = EXPECT then
    .ok (some { s with expect_continue := eq_ignore_ascii_case value.bytes (ascii "100-continue") })
  else if name = UPGRADE then .ok (some { s with wants_upgrade := is_http_11 })
  else .ok (some s)

/-- One iteration of the loop: `header_name!` (an `Internal` error in a release build), the
`match`, and the append of the line. -/
def readLine (is_http_11 : Bool) (s : Scan) (h : httparse.Header) : Except Parse Scan :=
  match HeaderName.from_bytes h.name with
  | none => .error .Internal
  | some name =>
    match readHeader is_http_11 s name ⟨h.value⟩ with
    | .error e => .error e
    | .ok none => .ok s
    | .ok (some s') => .ok { s' with headers := s'.headers.append name ⟨h.value⟩ }

/-- The loop over the field lines. -/
def readLines (is_http_11 : Bool) (s : Scan) (hs : List httparse.Header) : Except Parse Scan :=
  hs.foldlM (readLine is_http_11) s

/-- The error `Server::parse` returns for a failed `httparse` call: an invalid token is blamed on
the method if it had not been read yet, and on the target otherwise. -/
def parseError (f : httparse.Failure) : Parse :=
  if f.error = .Token then (if f.method_parsed then .Uri else .Method) else .ofHttparse f.error

/-- `Server::parse`: the result, and the buffer after it. -/
def parse (parser : RequestParser) (uri_parse : UriParser) (buf : List UInt8) :
    Except Parse (Option (ParsedMessage RequestLine)) × List UInt8 :=
  match parser buf with
  | .error f => (.error (parseError f), buf)
  | .ok .Partial => (.ok none, buf)
  | .ok (.Complete len req) =>
    if req.path.length > MAX_URI_LEN then (.error .UriTooLong, buf)
    else
      match Method.from_bytes req.method, uri_parse req.path with
      | none, _ => (.error .Method, buf)
      | some _, none => (.error .Uri, buf)
      | some method, some uri =>
        let is_http_11 := decide (req.version = 1)
        match record_header_indices req.headers with
        | .error e => (.error e, buf)
        | .ok () =>
          -- `buf.split_to(len)`: every later error leaves the head consumed
          let rest := buf.drop len
          match readLines is_http_11 (Scan.init method is_http_11) req.headers with
          | .error e => (.error e, rest)
          | .ok s =>
            if s.is_te && !s.is_te_chunked then (.error Parse.transfer_encoding_invalid, rest)
            else
              (.ok (some ⟨⟨if is_http_11 then .HTTP_11 else .HTTP_10, ⟨method, uri⟩, s.headers⟩,
                s.decoder, s.expect_continue, s.keep_alive, s.wants_upgrade⟩), rest)

/-! ## Framing of a request (RFC 7230 §3.3.3) -/

/-- How an accepted request is framed, over its field lines: chunked exactly when it is HTTP/1.1
and its last `Transfer-Encoding` line ends in `chunked`; a `Transfer-Encoding` only so; and
without one, the common value of the `Content-Length` lines, or zero. -/
structure RequestFraming (req : httparse.Request) (decode : DecodedLength) : Prop where
  chunked_iff : decode = .CHUNKED ↔
    req.version = 1 ∧ LastChunked (fieldValues TRANSFER_ENCODING req.headers)
  te : fieldValues TRANSFER_ENCODING req.headers ≠ [] →
    req.version = 1 ∧ LastChunked (fieldValues TRANSFER_ENCODING req.headers)
  length : fieldValues TRANSFER_ENCODING req.headers = [] →
    fieldValues CONTENT_LENGTH req.headers ≠ [] →
      ∃ n ≤ DecodedLength.MAX_LEN,
        (∀ v ∈ fieldValues CONTENT_LENGTH req.headers, IsDecimal v n) ∧ decode = ⟨n⟩
  zero : fieldValues TRANSFER_ENCODING req.headers = [] →
    fieldValues CONTENT_LENGTH req.headers = [] → decode = .ZERO

/-- The requests a server must refuse: a `Transfer-Encoding` on HTTP/1.0 or not ending in
`chunked`, or, without one, `Content-Length` lines that are not all one decimal `n ≤ MAX_LEN`. -/
def BadRequestFraming (req : httparse.Request) : Prop :=
  (fieldValues TRANSFER_ENCODING req.headers ≠ [] ∧ req.version ≠ 1) ∨
  (fieldValues TRANSFER_ENCODING req.headers ≠ [] ∧
    ¬LastChunked (fieldValues TRANSFER_ENCODING req.headers)) ∨
  (fieldValues TRANSFER_ENCODING req.headers = [] ∧ fieldValues CONTENT_LENGTH req.headers ≠ [] ∧
    ¬∃ n ≤ DecodedLength.MAX_LEN, ∀ v ∈ fieldValues CONTENT_LENGTH req.headers, IsDecimal v n)

/-! ## The invariant of the loop -/

/-- What the framing variables say about the `Transfer-Encoding` values `te` and the
`Content-Length` values `cl` read so far. -/
structure FramingInv (is_http_11 : Bool) (te cl : List (List UInt8)) (s : Scan) : Prop where
  is_te : s.is_te ↔ te ≠ []
  http_11 : s.is_te → is_http_11
  is_te_chunked : s.is_te_chunked ↔ LastChunked te
  chunked : s.is_te_chunked → s.decoder = .CHUNKED
  length : ¬s.is_te →
    (cl = [] ∧ s.decoder = .ZERO ∧ s.con_len = none) ∨
    (∃ n ≤ DecodedLength.MAX_LEN, cl ≠ [] ∧ (∀ v ∈ cl, from_digits v = some n) ∧
      s.decoder = ⟨n⟩ ∧ s.con_len = some n)

theorem framingInv_init (method : Method) (is_http_11 : Bool) :
    FramingInv is_http_11 [] [] (Scan.init method is_http_11) where
  is_te := by simp [Scan.init]
  http_11 := by simp [Scan.init]
  is_te_chunked := by simp [Scan.init, LastChunked]
  chunked := by simp [Scan.init]
  length _ := .inl ⟨rfl, rfl, rfl⟩

/-- The invariant reads only the four framing variables. -/
theorem FramingInv.congr {is_http_11 : Bool} {te cl : List (List UInt8)} {s s' : Scan}
    (hinv : FramingInv is_http_11 te cl s) (h : s'.framing = s.framing) :
    FramingInv is_http_11 te cl s' := by
  simp only [Scan.framing, Prod.mk.injEq] at h
  obtain ⟨hd, hc, ht, htc⟩ := h
  obtain ⟨h1, h2, h3, h4, h5⟩ := hinv
  exact ⟨ht ▸ h1, ht ▸ h2, htc ▸ h3, hd ▸ htc ▸ h4, hd ▸ hc ▸ ht ▸ h5⟩

/-- After a `Transfer-Encoding` is read, the lengths no longer matter. -/
theorem FramingInv.add_cl {is_http_11 : Bool} {te cl : List (List UInt8)} {s : Scan}
    (hinv : FramingInv is_http_11 te cl s) (hte : s.is_te) (v : List UInt8) :
    FramingInv is_http_11 te (cl ++ [v]) s :=
  ⟨hinv.is_te, hinv.http_11, hinv.is_te_chunked, hinv.chunked, fun h ↦ absurd hte h⟩

/-- Before any `Transfer-Encoding`, the body is not chunked. -/
theorem FramingInv.not_chunked_of_not_te {is_http_11 : Bool} {te cl : List (List UInt8)}
    {s : Scan} (hinv : FramingInv is_http_11 te cl s) (hte : ¬s.is_te) : ¬s.is_te_chunked := by
  have hnil : te = [] := by simpa [hinv.is_te] using hte
  rw [hinv.is_te_chunked, hnil]
  simp [LastChunked]

/-- A `Transfer-Encoding` line sets every variable the invariant reads about it, whatever came
before. -/
theorem onTransferEncoding_inv {is_http_11 : Bool} (te cl : List (List UInt8)) {s s' : Scan}
    {value : HeaderValue} (h : onTransferEncoding is_http_11 s value = .ok s') :
    FramingInv is_http_11 (te ++ [value.bytes]) cl s' := by
  have hlast : LastChunked (te ++ [value.bytes]) ↔ is_chunked_ value := by
    simp [LastChunked]
  unfold onTransferEncoding at h
  by_cases h11 : is_http_11
  · by_cases hc : is_chunked_ value
    · simp only [h11, hc, Bool.not_true, Bool.false_eq_true, if_false, if_true,
        Except.ok.injEq] at h
      subst h
      exact ⟨by simp, fun _ ↦ h11, by simp [hlast, hc], fun _ ↦ rfl, fun h ↦ absurd rfl h⟩
    · simp only [h11, hc, Bool.not_true, Bool.false_eq_true, if_false, Except.ok.injEq] at h
      subst h
      exact ⟨by simp, fun _ ↦ h11, by simp [hlast, hc], fun h ↦ absurd h Bool.false_ne_true, fun h ↦ absurd rfl h⟩
  · simp [h11] at h

/-- Everything the `CONTENT_LENGTH` arm can do without an error. -/
theorem onContentLength_cases {s : Scan} {value : HeaderValue} {o : Option Scan}
    (h : onContentLength s value = .ok o) :
    (s.is_te ∧ o = none) ∨
    (¬s.is_te ∧ ∃ len, content_length_parse value = some len ∧
      ((s.con_len = some len ∧ o = none) ∨
        (s.con_len = none ∧ len ≤ DecodedLength.MAX_LEN ∧
          o = some { s with decoder := ⟨len⟩, con_len := some len }))) := by
  unfold onContentLength at h
  by_cases hte : s.is_te
  · rw [if_pos hte, Except.ok.injEq] at h
    exact .inl ⟨hte, h.symm⟩
  rw [if_neg hte] at h
  refine .inr ⟨hte, ?_⟩
  rcases hlen : content_length_parse value with _ | len
  · simp [hlen] at h
  rw [hlen] at h
  refine ⟨len, rfl, ?_⟩
  rcases hcl : s.con_len with _ | prev
  · rcases hnew : DecodedLength.checked_new len with e | d
    · simp [hcl, hnew] at h
    obtain ⟨hmax, rfl⟩ := DecodedLength.checked_new_eq_ok.mp hnew
    simp only [hcl, hnew, Except.ok.injEq] at h
    exact .inr ⟨rfl, hmax, h.symm⟩
  · by_cases hne : prev = len
    · subst hne
      simp only [hcl, ne_eq, not_true_eq_false, if_false, Except.ok.injEq] at h
      exact .inl ⟨rfl, h.symm⟩
    · simp [hcl, hne] at h

theorem onContentLength_inv {is_http_11 : Bool} {te cl : List (List UInt8)} {s : Scan}
    {o : Option Scan} {value : HeaderValue} (hinv : FramingInv is_http_11 te cl s)
    (h : onContentLength s value = .ok o) :
    FramingInv is_http_11 te (cl ++ [value.bytes]) (o.getD s) := by
  rcases onContentLength_cases h with ⟨hte, rfl⟩ | ⟨hte, len, hlen, ⟨hcl, rfl⟩ | ⟨hcl, hmax, rfl⟩⟩
  · exact hinv.add_cl hte _
  · -- a repeat of the length already read: skipped, and the lines still agree
    rcases hinv.length hte with ⟨-, -, hn⟩ | ⟨n, hmax, -, hall, hd, hn⟩
    · rw [hcl] at hn
      cases hn
    rw [hcl, Option.some.injEq] at hn
    subst hn
    refine ⟨hinv.is_te, hinv.http_11, hinv.is_te_chunked, hinv.chunked, fun _ ↦ ?_⟩
    refine .inr ⟨len, hmax, by simp, fun v hv ↦ ?_, hd, hcl⟩
    rcases List.mem_append.mp hv with hv | hv
    · exact hall v hv
    · rw [List.mem_singleton.mp hv]
      exact hlen
  · -- the first length: no line came before it
    have hnil : cl = [] := by
      rcases hinv.length hte with ⟨hnil, -, -⟩ | ⟨n, -, -, -, -, hn⟩
      · exact hnil
      · rw [hcl] at hn
        cases hn
    subst hnil
    have htc := hinv.not_chunked_of_not_te hte
    refine ⟨hinv.is_te, hinv.http_11, hinv.is_te_chunked, fun h ↦ absurd h htc,
      fun _ ↦ .inr ⟨len, hmax, by simp, fun v hv ↦ ?_, rfl, rfl⟩⟩
    rw [List.nil_append, List.mem_singleton] at hv
    rw [hv]
    exact hlen

/-- Everything one iteration of the `match name` can do without an error. -/
theorem readHeader_cases {is_http_11 : Bool} {s : Scan} {name : HeaderName} {value : HeaderValue}
    {o : Option Scan} (h : readHeader is_http_11 s name value = .ok o) :
    (name = TRANSFER_ENCODING ∧ ∃ s', onTransferEncoding is_http_11 s value = .ok s' ∧ o = some s') ∨
    (name = CONTENT_LENGTH ∧ onContentLength s value = .ok o) ∨
    (name ≠ TRANSFER_ENCODING ∧ name ≠ CONTENT_LENGTH ∧
      ∃ s', o = some s' ∧ s'.framing = s.framing ∧ s'.headers = s.headers) := by
  unfold readHeader at h
  by_cases hte : name = TRANSFER_ENCODING
  · rw [if_pos hte] at h
    rcases hon : onTransferEncoding is_http_11 s value with e | s'
    · rw [hon] at h
      cases h
    · rw [hon] at h
      exact .inl ⟨hte, s', rfl, (Except.ok.inj h).symm⟩
  rw [if_neg hte] at h
  by_cases hcl : name = CONTENT_LENGTH
  · rw [if_pos hcl] at h
    exact .inr (.inl ⟨hcl, h⟩)
  rw [if_neg hcl] at h
  refine .inr (.inr ⟨hte, hcl, ?_⟩)
  -- the other arms only touch `keep_alive`, `expect_continue` and `wants_upgrade`
  split_ifs at h <;> exact ⟨_, (Except.ok.inj h).symm, rfl, rfl⟩

/-- One line keeps the invariant, over the lines read so far with this one added. -/
theorem readLine_inv {is_http_11 : Bool} {pre : List httparse.Header} {s s' : Scan}
    {h : httparse.Header}
    (hinv : FramingInv is_http_11 (fieldValues TRANSFER_ENCODING pre)
      (fieldValues CONTENT_LENGTH pre) s)
    (hline : readLine is_http_11 s h = .ok s') :
    FramingInv is_http_11 (fieldValues TRANSFER_ENCODING (pre ++ [h]))
      (fieldValues CONTENT_LENGTH (pre ++ [h])) s' := by
  unfold readLine at hline
  rcases hname : HeaderName.from_bytes h.name with _ | name
  · simp only [hname, reduceCtorEq] at hline
  rcases hread : readHeader is_http_11 s name ⟨h.value⟩ with e | o
  · simp only [hname, hread, reduceCtorEq] at hline
  -- what `readLine` makes of the arm's result keeps the arm's framing variables
  have hs' : s'.framing = (o.getD s).framing := by
    rcases o with _ | s''
    · simp only [hname, hread, Except.ok.injEq] at hline
      rw [← hline]
      rfl
    · simp only [hname, hread, Except.ok.injEq] at hline
      rw [← hline]
      rfl
  simp only [fieldValues_concat, httparse.Header.isNamed_iff hname]
  rcases readHeader_cases hread with ⟨rfl, s'', hte, rfl⟩ | ⟨rfl, hcl⟩ | ⟨hte, hcl, s'', rfl, hfr, -⟩
  · have := onTransferEncoding_inv (fieldValues TRANSFER_ENCODING pre)
      (fieldValues CONTENT_LENGTH pre) hte
    simpa using this.congr hs'
  · have := onContentLength_inv hinv hcl
    simpa using this.congr hs'
  · simpa [hte, hcl] using hinv.congr (hs'.trans hfr)

/-- **The loop keeps the invariant** over the whole run of lines. -/
theorem readLines_inv {is_http_11 : Bool} {method : Method} {hs : List httparse.Header} {s : Scan}
    (hrun : readLines is_http_11 (Scan.init method is_http_11) hs = .ok s) :
    FramingInv is_http_11 (fieldValues TRANSFER_ENCODING hs) (fieldValues CONTENT_LENGTH hs) s := by
  have := List.foldlM_inv
    (fun pre s ↦ FramingInv is_http_11 (fieldValues TRANSFER_ENCODING pre)
      (fieldValues CONTENT_LENGTH pre) s)
    (fun _ _ _ _ hinv hline ↦ readLine_inv hinv hline) hs [] (framingInv_init method is_http_11)
    hrun
  simpa using this

/-- Everything `Server::parse` has done when it returns a message. -/
theorem parse_eq_ok_some {parser : RequestParser} {uri_parse : UriParser} {buf buf' : List UInt8}
    {msg : ParsedMessage RequestLine} (h : parse parser uri_parse buf = (.ok (some msg), buf')) :
    ∃ len req method s, parser buf = .ok (.Complete len req) ∧
      readLines (decide (req.version = 1)) (Scan.init method (decide (req.version = 1)))
        req.headers = .ok s ∧
      ¬(s.is_te ∧ ¬s.is_te_chunked) ∧ buf' = buf.drop len ∧ msg.decode = s.decoder := by
  unfold parse at h
  rcases hp : parser buf with f | st
  · simp [hp] at h
  rcases st with ⟨len, req⟩ | _
  swap
  · simp [hp] at h
  simp only [hp] at h
  by_cases hlong : req.path.length > MAX_URI_LEN
  · simp [hlong] at h
  rw [if_neg hlong] at h
  rcases hm : Method.from_bytes req.method with _ | method
  · simp [hm] at h
  rcases hu : uri_parse req.path with _ | uri
  · simp [hm, hu] at h
  rcases hr : record_header_indices req.headers with e | ⟨⟩
  · simp [hm, hu, hr] at h
  rcases hrun : readLines (decide (req.version = 1)) (Scan.init method (decide (req.version = 1)))
    req.headers with e | s
  · simp [hm, hu, hr, hrun] at h
  simp only [hm, hu, hr, hrun] at h
  -- the last check is the only `if` left outside the message
  split at h
  · simp at h
  rename_i hbad
  simp only [Prod.mk.injEq, Except.ok.injEq, Option.some.injEq] at h
  obtain ⟨rfl, rfl⟩ := h
  exact ⟨len, req, method, s, rfl, hrun, by simpa using hbad, rfl, rfl⟩

/-- A complete head is never reported as incomplete. -/
theorem parse_complete_ne_none {parser : RequestParser} {uri_parse : UriParser}
    {buf : List UInt8} {len : ℕ} {req : httparse.Request}
    (hp : parser buf = .ok (.Complete len req)) : (parse parser uri_parse buf).1 ≠ .ok none := by
  unfold parse
  simp only [hp]
  by_cases hlong : req.path.length > MAX_URI_LEN
  · simp [hlong]
  rw [if_neg hlong]
  -- past the path's length, every way out is an error or a message
  split
  · simp
  · simp
  split
  · simp
  split
  · simp
  split_ifs <;> simp

/-- The invariant at the end of the loop, with the last check of `Server::parse`, is the
framing of RFC 7230 §3.3.3. -/
theorem requestFraming_of_inv {req : httparse.Request} {s : Scan}
    (hinv : FramingInv (decide (req.version = 1)) (fieldValues TRANSFER_ENCODING req.headers)
      (fieldValues CONTENT_LENGTH req.headers) s)
    (hte : ¬(s.is_te ∧ ¬s.is_te_chunked)) : RequestFraming req s.decoder := by
  -- with a `Transfer-Encoding`, the last check leaves only the chunked case
  have hte_chunked : s.is_te → s.is_te_chunked := fun h ↦ by
    by_contra hc
    exact hte ⟨h, hc⟩
  have hlen := hinv.length
  refine ⟨⟨fun hd ↦ ?_, fun ⟨_, hlast⟩ ↦ hinv.chunked (hinv.is_te_chunked.mpr hlast)⟩,
    fun hne ↦ ?_, fun hnil hcl ↦ ?_, fun hnil hcl ↦ ?_⟩
  · by_cases h : s.is_te
    · exact ⟨by simpa using hinv.http_11 h, hinv.is_te_chunked.mp (hte_chunked h)⟩
    · rcases hlen h with ⟨-, hz, -⟩ | ⟨n, hn, -, -, hd', -⟩
      · exact absurd (hd.symm.trans hz) (by decide)
      · exact absurd (hd'.symm.trans hd) (DecodedLength.ne_reserved hn).1
  · have h := hinv.is_te.mpr hne
    exact ⟨by simpa using hinv.http_11 h, hinv.is_te_chunked.mp (hte_chunked h)⟩
  · have h : ¬s.is_te := fun h ↦ hinv.is_te.mp h hnil
    rcases hlen h with ⟨hnil', -, -⟩ | ⟨n, hn, -, hall, hd, -⟩
    · exact absurd hnil' hcl
    · exact ⟨n, hn, fun v hv ↦ (from_digits_eq_some_iff.mp (hall v hv)).1, hd⟩
  · have h : ¬s.is_te := fun h ↦ hinv.is_te.mp h hnil
    rcases hlen h with ⟨-, hz, -⟩ | ⟨n, -, hne, -, -, -⟩
    · exact hz
    · exact absurd hcl hne

theorem server_parse_framing (parser : RequestParser) (uri_parse : UriParser)
    (buf : List UInt8) :
    (∀ msg buf', parse parser uri_parse buf = (.ok (some msg), buf') →
      ∃ len req, parser buf = .ok (.Complete len req) ∧ buf' = buf.drop len ∧
        RequestFraming req msg.decode) ∧
    (∀ len req, parser buf = .ok (.Complete len req) → BadRequestFraming req →
      ∃ e, (parse parser uri_parse buf).1 = .error e) := by
  -- an accepted message is framed as the invariant says
  have accepted : ∀ msg buf', parse parser uri_parse buf = (.ok (some msg), buf') →
      ∃ len req, parser buf = .ok (.Complete len req) ∧ buf' = buf.drop len ∧
        RequestFraming req msg.decode := by
    intro msg buf' h
    obtain ⟨len, req, method, s, hp, hrun, hte, rfl, hd⟩ := parse_eq_ok_some h
    exact ⟨len, req, hp, rfl, hd ▸ requestFraming_of_inv (readLines_inv hrun) hte⟩
  refine ⟨accepted, fun len req hp hbad ↦ ?_⟩
  rcases hres : parse parser uri_parse buf with ⟨e | _ | msg, buf'⟩
  · exact ⟨e, rfl⟩
  · exact absurd (congrArg Prod.fst hres) (parse_complete_ne_none hp)
  · -- a refused framing cannot be the framing of an accepted message
    obtain ⟨len', req', hp', -, hfr⟩ := accepted msg buf' hres
    rw [hp] at hp'
    cases hp'
    rcases hbad with ⟨hne, hv⟩ | ⟨hne, hlast⟩ | ⟨hnil, hcl, hno⟩
    · exact absurd (hfr.te hne).1 hv
    · exact absurd (hfr.te hne).2 hlast
    · obtain ⟨n, hn, hall, -⟩ := hfr.length hnil hcl
      exact absurd ⟨n, hn, hall⟩ hno

end Server

end Hyper.H1
