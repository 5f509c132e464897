import Hyper.Proto
import Hyper.Lib.ExceptFold

/-!
# How a client reads a response head (`Client::parse`, `Client::decoder`, `role.rs`)

`Client::parse` loops: it parses the head at the front of the buffer, removes it, builds its
header map, and asks `Client::decoder` how the body is framed; `decoder` answers `None` for an
informational response, and the loop then goes on with the rest of the buffer, or returns
`Ok(None)` if nothing is left.

The model of the loop runs on fuel, one round per head; `Client.parse` gives it one round more
than the buffer has bytes, which is enough whenever every head the parser reports is non-empty
(`parseLoop_heads`).

The header map is built by appending the lines in order, so it holds for every name exactly
the values of the lines with that name (`readLines_getAll`); `decoder_eq` then reads the
decision of `Client::decoder` off the field lines.  The specification is `responseFraming`, the
rules of RFC 7230 §3.3.3 in their order, and `client_parse_framing` puts the loop and the
decision together.
-/

set_option autoImplicit false

namespace Hyper.H1

open headers HeaderName

namespace Client

/-! ## The model -/

/-- The last rules of `Client::decoder`, for a response without `Transfer-Encoding`: the common
`Content-Length`, or reading until the connection closes. -/
def contentLength (headers : HeaderMap) : Except Parse DecodedLength :=
  match content_length_parse_all headers with
  | some len => DecodedLength.checked_new len
  | none =>
    if headers.containsKey CONTENT_LENGTH then .error Parse.content_length_invalid
    else .ok .CLOSE_DELIMITED

/-- `Client::decoder`: the length of the body and whether the connection is upgraded, or `none`
for an informational response, which the loop skips. -/
def decoder (inc : MessageHead StatusCode) (method : Option Method) :
    Except Parse (Option (DecodedLength × Bool)) :=
  let code := inc.subject.as_u16
  if code = 101 then .ok (some (.ZERO, true))
  else if code = 100 ∨ (102 ≤ code ∧ code ≤ 199) then .ok none
  else if code = 204 ∨ code = 304 then .ok (some (.ZERO, false))
  else if method = some Method.HEAD then .ok (some (.ZERO, false))
  else if method = some Method.CONNECT ∧ 200 ≤ code ∧ code ≤ 299 then .ok (some (.ZERO, true))
  else if inc.headers.containsKey TRANSFER_ENCODING then
    if inc.version = .HTTP_10 then .error Parse.transfer_encoding_unexpected
    else if transfer_encoding_is_chunked inc.headers then .ok (some (.CHUNKED, false))
    else .ok (some (.CLOSE_DELIMITED, false))
  else (contentLength inc.headers).map fun d ↦ some (d, false)

/-- The head at the front of the buffer, as the `match` on the parser's result leaves it: its
length, status, version and field lines, or `none` for a partial head.  An HTTP/0.9 response is
taken, when allowed, as a `200` with no head at all. -/
def parseHead (parser : ResponseParser) (h09_responses : Bool) (buf : List UInt8) :
    Except Parse (Option (ℕ × StatusCode × Version × List httparse.Header)) :=
  match parser buf with
  | .ok (.Complete len res) =>
    match StatusCode.from_u16 res.code with
    | none => .error .Status
    | some status =>
      let version := if res.version = 1 then Version.HTTP_11 else Version.HTTP_10
      (record_header_indices res.headers).map fun () ↦ some (len, status, version, res.headers)
  | .ok .Partial => .ok none
  | .error .Version => if h09_responses then .ok (some (0, StatusCode.OK, .HTTP_09, [])) else
      .error (.ofHttparse .Version)
  | .error e => .error (.ofHttparse e)

/-- One line of the header loop: the `Connection` override of `keep_alive`, and the append. -/
def readLine (acc : Bool × HeaderMap) (h : httparse.Header) : Except Parse (Bool × HeaderMap) :=
  match HeaderName.from_bytes h.name with
  | none => .error .Internal
  | some name =>
    let value : HeaderValue := ⟨h.value⟩
    let keep_alive :=
      if name = CONNECTION then
        if acc.1 then !connection_close value else connection_keep_alive value
      else acc.1
    .ok (keep_alive, acc.2.append name value)

/-- The header loop, from the version's default `keep_alive` and an empty map. -/
def readLines (keep_alive : Bool) (hs : List httparse.Header) : Except Parse (Bool × HeaderMap) :=
  hs.foldlM readLine (keep_alive, MultiMap.empty)

/-- The loop of `Client::parse`, with one round of fuel for each head. -/
def parseLoop (parser : ResponseParser) (ctx : ParseContext) :
    ℕ → List UInt8 → Except Parse (Option (ParsedMessage StatusCode)) × List UInt8
  | 0, buf => (.ok none, buf)
  | fuel + 1, buf =>
    match parseHead parser ctx.h09_responses buf with
    | .error e => (.error e, buf)
    | .ok none => (.ok none, buf)
    | .ok (some (len, status, version, hs)) =>
      let buf := buf.drop len
      match readLines (version = .HTTP_11) hs with
      | .error e => (.error e, buf)
      | .ok (keep_alive, headers) =>
        let head : MessageHead StatusCode := ⟨version, status, headers⟩
        match decoder head ctx.req_method with
        | .error e => (.error e, buf)
        | .ok (some (decode, is_upgrade)) =>
          -- a client upgrade means the connection can't be used again
          (.ok (some ⟨head, decode, false, keep_alive && !is_upgrade, is_upgrade⟩), buf)
        | .ok none => if buf = [] then (.ok none, buf) else parseLoop parser ctx fuel buf

/-- `Client::parse`. -/
def parse (parser : ResponseParser) (ctx : ParseContext) (buf : List UInt8) :
    Except Parse (Option (ParsedMessage StatusCode)) × List UInt8 :=
  parseLoop parser ctx (buf.length + 1) buf

/-! ## Framing of a response (RFC 7230 §3.3.3) -/

/-- An informational status that the client skips: `101` is final, as it switches protocols. -/
def Informational (code : ℕ) : Prop := code = 100 ∨ (102 ≤ code ∧ code ≤ 199)

instance (code : ℕ) : Decidable (Informational code) := inferInstanceAs (Decidable (_ ∨ _))

/-- The `Content-Length` lines agree on `n`: there is one, and every comma-separated item of every
line is the decimal numeral of `n`. -/
def CommonLength (cl : List (List UInt8)) (n : ℕ) : Prop :=
  cl ≠ [] ∧ AllItemsAre (cl.map HeaderValue.mk) n

open Classical in
/-- The framing by `Content-Length` lines `cl`: their common length if it is not too large, the
end of the connection if there are none, and an error otherwise. -/
noncomputable def lengthFraming (cl : List (List UInt8)) : Except Unit DecodedLength :=
  if h : ∃ n, CommonLength cl n then
    if choose h ≤ DecodedLength.MAX_LEN then .ok ⟨choose h⟩ else .error ()
  else if cl ≠ [] then .error ()
  else .ok .CLOSE_DELIMITED

open Classical in
/-- RFC 7230 §3.3.3 for a response to `method`, over its status, version and field lines: the
length of its body and whether the connection is upgraded, `none` for an informational
response, and an error for a framing that cannot be trusted. -/
noncomputable def responseFraming (method : Option Method) (res : httparse.Response) :
    Except Unit (Option (DecodedLength × Bool)) :=
  let te := fieldValues TRANSFER_ENCODING res.headers
  let cl := fieldValues CONTENT_LENGTH res.headers
  if res.code = 101 then .ok (some (.ZERO, true))
  else if Informational res.code then .ok none
  else if res.code = 204 ∨ res.code = 304 then .ok (some (.ZERO, false))
  else if method = some Method.HEAD then .ok (some (.ZERO, false))
  else if method = some Method.CONNECT ∧ 200 ≤ res.code ∧ res.code ≤ 299 then
    .ok (some (.ZERO, true))
  else if te ≠ [] then
    if res.version ≠ 1 then .error ()
    else if LastChunked te then .ok (some (.CHUNKED, false))
    else .ok (some (.CLOSE_DELIMITED, false))
  else (lengthFraming cl).map fun d ↦ some (d, false)

/-- The lines agree on at most one length. -/
theorem CommonLength.unique {cl : List (List UInt8)} {n m : ℕ} (hn : CommonLength cl n)
    (hm : CommonLength cl m) : n = m := by
  have hsome := (content_length_parse_all_values_eq_some_iff _ n).mpr
    ⟨by simpa using hn.1, hn.2⟩
  rw [(content_length_parse_all_values_eq_some_iff _ m).mpr ⟨by simpa using hm.1, hm.2⟩] at hsome
  exact (Option.some.inj hsome).symm

/-! ## The header map holds the lines -/

theorem readLine_ok (acc : Bool × HeaderMap) {h : httparse.Header} {name : HeaderName}
    (hname : HeaderName.from_bytes h.name = some name) :
    ∃ keep_alive, readLine acc h = .ok (keep_alive, acc.2.append name ⟨h.value⟩) := by
  simp only [readLine, hname]
  exact ⟨_, rfl⟩

/-- Every line is appended: the map holds, for each name, the values of its lines in order. -/
theorem readLines_getAll {keep_alive keep_alive' : Bool} {hs : List httparse.Header}
    {m : HeaderMap} (h : readLines keep_alive hs = .ok (keep_alive', m)) (k : HeaderName) :
    m.getAll k = (fieldValues k hs).map HeaderValue.mk := by
  have := List.foldlM_inv
    (fun pre (acc : Bool × HeaderMap) ↦ ∀ k, acc.2.getAll k = (fieldValues k pre).map HeaderValue.mk)
    (fun pre h acc acc' hinv hline ↦ by
      rcases hname : HeaderName.from_bytes h.name with _ | name
      · simp [readLine, hname] at hline
      obtain ⟨ka, hka⟩ := readLine_ok acc hname
      rw [hka, Except.ok.injEq] at hline
      subst hline
      intro k
      simp only [MultiMap.getAll_append, hinv k, fieldValues_concat,
        httparse.Header.isNamed_iff hname]
      by_cases hk : name = k
      · simp [hk]
      · simp [hk, Ne.symm hk])
    hs [] (fun _ ↦ rfl) h
  simpa using this k

/-- The loop succeeds on lines whose names are all valid. -/
theorem readLines_ok (keep_alive : Bool) {hs : List httparse.Header}
    (hnames : ∀ h ∈ hs, (HeaderName.from_bytes h.name).isSome) :
    ∃ r, readLines keep_alive hs = .ok r := by
  refine List.foldlM_ok (fun acc h hh ↦ ?_) _
  obtain ⟨name, hname⟩ := Option.isSome_iff_exists.mp (hnames h hh)
  obtain ⟨ka, hka⟩ := readLine_ok acc hname
  exact ⟨_, hka⟩

/-! ## The decision of `Client::decoder` -/

section Decoder

variable {m : HeaderMap} {hs : List httparse.Header}

/-- `contentLength` on a map of the lines is `lengthFraming`, up to which error it returns. -/
theorem contentLength_eq (hm : ∀ k, m.getAll k = (fieldValues k hs).map HeaderValue.mk) :
    (contentLength m).mapError (fun _ ↦ ()) = lengthFraming (fieldValues CONTENT_LENGTH hs) := by
  have hcl : content_length_parse_all m =
      content_length_parse_all_values ((fieldValues CONTENT_LENGTH hs).map HeaderValue.mk) := by
    rw [content_length_parse_all, hm]
  unfold contentLength lengthFraming
  rcases hc : content_length_parse_all m with _ | n
  · -- no common length: an error exactly when there is a line
    have hno : ¬∃ n, CommonLength (fieldValues CONTENT_LENGTH hs) n := by
      rintro ⟨n, hn⟩
      rw [hcl, (content_length_parse_all_values_eq_some_iff _ n).mpr
        ⟨by simpa using hn.1, hn.2⟩] at hc
      cases hc
    rw [dif_neg hno]
    have hkey : m.containsKey CONTENT_LENGTH ↔ fieldValues CONTENT_LENGTH hs ≠ [] := by
      simp [MultiMap.containsKey_iff, hm]
    by_cases hnil : fieldValues CONTENT_LENGTH hs = []
    · have : ¬m.containsKey CONTENT_LENGTH := by simp [hkey, hnil]
      simp [this, hnil, Except.mapError]
    · have : m.containsKey CONTENT_LENGTH := hkey.mpr hnil
      simp [this, hnil, Except.mapError]
  · -- a common length: `checked_new` is the bound of the specification
    have hn : CommonLength (fieldValues CONTENT_LENGTH hs) n := by
      rw [hcl, content_length_parse_all_values_eq_some_iff] at hc
      exact ⟨by simpa using hc.1, hc.2⟩
    have hex : ∃ n, CommonLength (fieldValues CONTENT_LENGTH hs) n := ⟨n, hn⟩
    rw [dif_pos hex, ← CommonLength.unique hn (Classical.choose_spec hex)]
    by_cases hmax : n ≤ DecodedLength.MAX_LEN
    · simp [DecodedLength.checked_new, hmax, Except.mapError]
    · simp [DecodedLength.checked_new, hmax, Except.mapError]

/-- **`Client::decoder` decides as RFC 7230 §3.3.3**, on the header map of a response's lines. -/
theorem decoder_eq (method : Option Method) (res : httparse.Response) {status : StatusCode}
    (hcode : status.code = res.code) (hm : ∀ k, m.getAll k = (fieldValues k res.headers).map HeaderValue.mk) :
    (decoder ⟨if res.version = 1 then .HTTP_11 else .HTTP_10, status, m⟩ method).mapError
      (fun _ ↦ ()) = responseFraming method res := by
  have hte : m.containsKey TRANSFER_ENCODING ↔ fieldValues TRANSFER_ENCODING res.headers ≠ [] := by
    simp [MultiMap.containsKey_iff, hm]
  have hchunked : transfer_encoding_is_chunked m ↔
      LastChunked (fieldValues TRANSFER_ENCODING res.headers) := by
    rw [transfer_encoding_is_chunked, hm, is_chunked_map_iff]
  have hver : (if res.version = 1 then Version.HTTP_11 else Version.HTTP_10) = .HTTP_10 ↔
      res.version ≠ 1 := by
    split_ifs with h <;> simp [h]
  have hlen := contentLength_eq hm
  unfold decoder responseFraming
  simp only [StatusCode.as_u16, hcode, Informational]
  -- the two are the same chain of tests; only the header tests are read through the map
  split_ifs <;> simp_all [Except.mapError, Except.map]
  · -- without `Transfer-Encoding`, the lengths decide
    rw [← hlen]
    rcases contentLength m with e | d <;> rfl

end Decoder

/-! ## The loop -/

/-- A head the parser can report: a three-digit status and field names `HeaderName` accepts,
none of 64 KiB. -/
def WellFormedHead (res : httparse.Response) : Prop :=
  100 ≤ res.code ∧ res.code < 1000 ∧
    ∀ h ∈ res.headers, (HeaderName.from_bytes h.name).isSome ∧ h.name.length < 2 ^ 16

/-- The parser reads `heads`, one after the other and then `rest`: each as its own complete,
non-empty head. -/
def ReadsHeads (parser : ResponseParser) : List (List UInt8 × httparse.Response) → List UInt8 → Prop
  | [], _ => True
  | (b, res) :: hs, rest =>
    parser (b ++ ((hs.map Prod.fst).flatten ++ rest)) = .ok (.Complete b.length res) ∧ b ≠ [] ∧
      ReadsHeads parser hs rest

theorem readsHeads_append {parser : ResponseParser} {rest : List UInt8} :
    ∀ {hs : List (List UInt8 × httparse.Response)} {b : List UInt8} {res : httparse.Response},
      ReadsHeads parser (hs ++ [(b, res)]) rest → b ≠ []
  | [], _, _, h => h.2.1
  | _ :: hs, _, _, h => @readsHeads_append _ _ hs _ _ h.2.2

/-- The parser reads the last head on its own, followed by `rest`. -/
theorem readsHeads_last {parser : ResponseParser} {rest : List UInt8} :
    ∀ {hs : List (List UInt8 × httparse.Response)} {b : List UInt8} {res : httparse.Response},
      ReadsHeads parser (hs ++ [(b, res)]) rest →
      parser (b ++ ([] ++ rest)) = .ok (.Complete b.length res)
  | [], _, _, h => by simpa using h.1
  | _ :: hs, _, _, h => @readsHeads_last _ _ hs _ _ h.2.2

/-- The head a well-formed complete parse reports. -/
theorem parseHead_complete {parser : ResponseParser} {h09 : Bool} {buf : List UInt8} {len : ℕ}
    {res : httparse.Response} (hp : parser buf = .ok (.Complete len res)) (hwf : WellFormedHead res) :
    ∃ status : StatusCode, status.code = res.code ∧
      parseHead parser h09 buf =
        .ok (some (len, status, if res.version = 1 then .HTTP_11 else .HTTP_10, res.headers)) := by
  obtain ⟨hlo, hhi, hnames⟩ := hwf
  have hrec : record_header_indices res.headers = .ok () := by
    have : ¬(res.headers.any fun h ↦ 2 ^ 16 ≤ h.name.length) := by
      simpa using fun h hh ↦ (hnames h hh).2
    rw [record_header_indices, if_neg this]
  refine ⟨⟨res.code, hlo, hhi⟩, rfl, ?_⟩
  simp [parseHead, hp, StatusCode.from_u16, hlo, hhi, hrec, Except.map]

/-- **One round of the loop**: the head at the front is removed, its lines make the map, and
`Client::decoder` decides whether to return it or go on. -/
theorem parseLoop_round (parser : ResponseParser) (ctx : ParseContext) {buf : List UInt8}
    {len : ℕ} {res : httparse.Response} (hp : parser buf = .ok (.Complete len res))
    (hwf : WellFormedHead res) (fuel : ℕ) :
    ∃ head : MessageHead StatusCode, ∃ keep_alive : Bool,
      head.subject.code = res.code ∧
      (∀ k, head.headers.getAll k = (fieldValues k res.headers).map HeaderValue.mk) ∧
      (decoder head ctx.req_method).mapError (fun _ ↦ ()) = responseFraming ctx.req_method res ∧
      parseLoop parser ctx (fuel + 1) buf =
        match decoder head ctx.req_method with
        | .error e => (.error e, buf.drop len)
        | .ok (some (decode, is_upgrade)) =>
          (.ok (some ⟨head, decode, false, keep_alive && !is_upgrade, is_upgrade⟩), buf.drop len)
        | .ok none =>
          if buf.drop len = [] then (.ok none, buf.drop len)
          else parseLoop parser ctx fuel (buf.drop len) := by
  obtain ⟨status, hcode, hhead⟩ := @parseHead_complete _ ctx.h09_responses _ _ _ hp hwf
  set version : Version := if res.version = 1 then .HTTP_11 else .HTTP_10
  obtain ⟨⟨keep_alive, m⟩, hlines⟩ :=
    readLines_ok (decide (version = .HTTP_11)) fun h hh ↦ (hwf.2.2 h hh).1
  have hm := readLines_getAll hlines
  refine ⟨⟨version, status, m⟩, keep_alive, hcode, hm, decoder_eq ctx.req_method res hcode hm, ?_⟩
  simp only [parseLoop, hhead, hlines]

theorem responseFraming_informational {method : Option Method} {res : httparse.Response}
    (h : Informational res.code) : responseFraming method res = .ok none := by
  have h101 : res.code ≠ 101 := by
    rcases h with h | h <;> omega
  simp [responseFraming, h101, h]

theorem responseFraming_ne_none {method : Option Method} {res : httparse.Response}
    (h : ¬Informational res.code) : responseFraming method res ≠ .ok none := by
  intro hres
  simp only [responseFraming] at hres
  split_ifs at hres <;> try simp at hres
  -- the only branch left is the framing by lengths, which is never `none`
  cases hl : lengthFraming (fieldValues CONTENT_LENGTH res.headers) <;>
    simp [hl, Except.map] at hres

/-- The loop skips the informational heads at the front, each in one round. -/
theorem parseLoop_skip (parser : ResponseParser) (ctx : ParseContext)
    (final : List UInt8 × httparse.Response) (rest : List UInt8) :
    ∀ (infos : List (List UInt8 × httparse.Response)) (fuel : ℕ), infos.length < fuel →
      (∀ i ∈ infos, Informational i.2.code ∧ WellFormedHead i.2) →
      ReadsHeads parser (infos ++ [final]) rest →
      parseLoop parser ctx fuel (((infos ++ [final]).map Prod.fst).flatten ++ rest) =
        parseLoop parser ctx (fuel - infos.length) (final.1 ++ rest)
  | [], fuel, _, _, _ => by simp
  | (b, res) :: infos, fuel + 1, hfuel, hinfo, hread => by
    obtain ⟨hp, hb, hread'⟩ := hread
    simp only [List.append_eq] at hp hread'
    obtain ⟨hinf, hwf⟩ := hinfo (b, res) List.mem_cons_self
    have htail : ((infos ++ [final]).map Prod.fst).flatten ++ rest ≠ [] := by
      have := @readsHeads_append _ _ infos final.1 final.2 hread'
      simp [this]
    obtain ⟨head, ka, -, -, hdec, hloop⟩ := parseLoop_round parser ctx hp hwf fuel
    rw [responseFraming_informational hinf, Except.mapError_eq_ok] at hdec
    have hstream : ((((b, res) :: infos) ++ [final]).map Prod.fst).flatten ++ rest =
        b ++ (((infos ++ [final]).map Prod.fst).flatten ++ rest) := by
      simp
    rw [hstream, hloop, hdec, List.drop_left, if_neg htail,
      parseLoop_skip parser ctx final rest infos fuel (by simpa using hfuel)
        (fun i hi ↦ hinfo i (List.mem_cons_of_mem _ hi)) hread']
    simp

/-- When the input ends after informational heads, the loop has skipped them all and waits for
more. -/
theorem parseLoop_infos_end (parser : ResponseParser) (ctx : ParseContext) :
    ∀ (infos : List (List UInt8 × httparse.Response)) (fuel : ℕ), infos ≠ [] →
      infos.length ≤ fuel → (∀ i ∈ infos, Informational i.2.code ∧ WellFormedHead i.2) →
      ReadsHeads parser infos [] →
      parseLoop parser ctx fuel (infos.map Prod.fst).flatten = (.ok none, [])
  | (b, res) :: infos, fuel + 1, _, hfuel, hinfo, hread => by
    obtain ⟨hp, -, hread'⟩ := hread
    obtain ⟨hinf, hwf⟩ := hinfo (b, res) List.mem_cons_self
    obtain ⟨head, ka, -, -, hdec, hloop⟩ := parseLoop_round parser ctx hp hwf fuel
    rw [responseFraming_informational hinf, Except.mapError_eq_ok] at hdec
    rw [List.append_nil] at hloop
    simp only [List.map_cons, List.flatten_cons]
    rw [hloop, hdec, List.drop_left]
    by_cases hnil : infos = []
    · subst hnil
      simp
    · -- more heads: the next round takes the next one
      have hne : (infos.map Prod.fst).flatten ≠ [] := by
        obtain ⟨⟨b', res'⟩, infos', rfl⟩ := List.exists_cons_of_ne_nil hnil
        simp [hread'.2.1]
      rw [if_neg hne]
      exact parseLoop_infos_end parser ctx infos fuel hnil (by simpa using hfuel)
        (fun i hi ↦ hinfo i (List.mem_cons_of_mem _ hi)) hread'

/-- What the client makes of the final head `res` followed by `rest`, as the specification `o`
says: the head with its status and its lines, framed as `o` says, and `rest` left in the buffer;
or an error. -/
def FramedAs (res : httparse.Response) (rest : List UInt8) :
    Except Unit (Option (DecodedLength × Bool)) →
      Except Parse (Option (ParsedMessage StatusCode)) × List UInt8 → Prop
  | .ok (some (decode, upgrade)), r =>
    ∃ msg : ParsedMessage StatusCode, r = (.ok (some msg), rest) ∧
      msg.head.subject.code = res.code ∧
      (∀ k, msg.head.headers.getAll k = (fieldValues k res.headers).map HeaderValue.mk) ∧
      msg.decode = decode ∧ msg.wants_upgrade = upgrade
  | .ok none, _ => False
  | .error (), r => ∃ e, r = (.error e, rest)

/-- The round of the final head returns it, framed as RFC 7230 says. -/
theorem parseLoop_final (parser : ResponseParser) (ctx : ParseContext)
    {final : List UInt8 × httparse.Response} {rest : List UInt8}
    (hp : parser (final.1 ++ rest) = .ok (.Complete final.1.length final.2))
    (hwf : WellFormedHead final.2) (hfinal : ¬Informational final.2.code) (fuel : ℕ) :
    FramedAs final.2 rest (responseFraming ctx.req_method final.2)
      (parseLoop parser ctx (fuel + 1) (final.1 ++ rest)) := by
  obtain ⟨head, ka, hcode, hm, hdec, hloop⟩ := parseLoop_round parser ctx hp hwf fuel
  rw [hloop, List.drop_left]
  rcases hspec : responseFraming ctx.req_method final.2 with ⟨⟩ | _ | ⟨decode, upgrade⟩
  · obtain ⟨e, he⟩ := Except.exists_of_mapError_eq_error (hdec.trans hspec)
    exact ⟨e, by rw [he]⟩
  · exact responseFraming_ne_none hfinal hspec
  · rw [Except.mapError_eq_ok.mp (hdec.trans hspec)]
    exact ⟨_, rfl, hcode, hm, rfl, rfl⟩

theorem readsHeads_length {parser : ResponseParser} {rest : List UInt8} :
    ∀ {hs : List (List UInt8 × httparse.Response)}, ReadsHeads parser hs rest →
      hs.length ≤ ((hs.map Prod.fst).flatten).length
  | [], _ => le_rfl
  | (b, _) :: _, h => by
    have := readsHeads_length h.2.2
    have hb : 0 < b.length := List.length_pos_iff.mpr h.2.1
    simp only [List.length_cons, List.map_cons, List.flatten_cons, List.length_append]
    omega

theorem client_parse_framing (parser : ResponseParser) (ctx : ParseContext)
    (infos : List (List UInt8 × httparse.Response))
    (hinfo : ∀ i ∈ infos, Informational i.2.code ∧ WellFormedHead i.2) :
    (∀ final rest, ¬Informational final.2.code → WellFormedHead final.2 →
      ReadsHeads parser (infos ++ [final]) rest →
      FramedAs final.2 rest (responseFraming ctx.req_method final.2)
        (parse_headers (parse parser ctx) (((infos ++ [final]).map Prod.fst).flatten ++ rest))) ∧
    (ReadsHeads parser infos [] →
      parse_headers (parse parser ctx) (infos.map Prod.fst).flatten = (.ok none, [])) := by
  constructor
  · intro final rest hfinal hwf hread
    have hb := @readsHeads_append _ _ infos final.1 final.2 hread
    have hlen := readsHeads_length hread
    set buf := ((infos ++ [final]).map Prod.fst).flatten ++ rest
    have hbuf : buf ≠ [] := by simp [buf, hb]
    -- enough fuel for every informational head and the final one
    have hfuel : infos.length < buf.length + 1 := by
      simp only [buf, List.length_append, List.length_cons, List.length_nil] at hlen ⊢
      omega
    rw [parse_headers, if_neg hbuf, parse,
      parseLoop_skip parser ctx final rest infos _ hfuel hinfo hread]
    obtain ⟨k, hk⟩ : ∃ k, buf.length + 1 - infos.length = k + 1 :=
      ⟨buf.length - infos.length, by omega⟩
    rw [hk]
    -- the final head is read in its own round
    have hp : parser (final.1 ++ rest) = .ok (.Complete final.1.length final.2) := by
      have := (readsHeads_last hread)
      simpa using this
    exact parseLoop_final parser ctx hp hwf hfinal k
  · intro hread
    by_cases hnil : infos = []
    · subst hnil
      simp [parse_headers]
    · have hlen := readsHeads_length hread
      have hbuf : (infos.map Prod.fst).flatten ≠ [] := by
        intro h
        rw [h] at hlen
        exact hnil (List.length_eq_zero_iff.mp (by simpa using hlen))
      rw [parse_headers, if_neg hbuf, parse]
      exact parseLoop_infos_end parser ctx infos _ hnil (by omega) hinfo hread

/-- A parser that reads a `100 Continue` from two bytes or more, and a `200 OK` from one. -/
def continueParser : ResponseParser := fun buf ↦
  .ok (.Complete 1 (if 2 ≤ buf.length then ⟨1, 100, []⟩ else ⟨1, 200, []⟩))

theorem client_parse_framing_continue :
    (∀ i ∈ [(([1] : List UInt8), (⟨1, 100, []⟩ : httparse.Response))],
      Informational i.2.code ∧ WellFormedHead i.2) ∧
    FramedAs ⟨1, 200, []⟩ [] (responseFraming none ⟨1, 200, []⟩)
      (parse_headers (parse continueParser ⟨none, false⟩) [1, 2]) := by
  have hinfo : ∀ i ∈ [(([1] : List UInt8), (⟨1, 100, []⟩ : httparse.Response))],
      Informational i.2.code ∧ WellFormedHead i.2 := by
    simp [Informational, WellFormedHead]
  refine ⟨hinfo, ?_⟩
  have := (client_parse_framing continueParser ⟨none, false⟩ [([1], ⟨1, 100, []⟩)] hinfo).1
    ([2], ⟨1, 200, []⟩) [] (by simp [Informational]) (by simp [WellFormedHead])
    (by simp [ReadsHeads, continueParser])
  simpa using this

end Client

end Hyper.H1
