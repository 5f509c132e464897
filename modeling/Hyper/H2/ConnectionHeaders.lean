import Hyper.Http

/-!
# Stripping connection-specific fields before HTTP/2 (`strip_connection_headers`, `proto/h2/mod.rs`)

HTTP/2 forbids the fields that are about one connection, so the client strips every request and
the server every response before handing the head to `h2`.  The function removes a fixed list of
names, then `TE` (from a request only if its first value is not `trailers`), then `Connection`,
and last every field named by a token of the `Connection` value it removed.

`HeaderMap::remove` drops every value of a name but returns only the first, and that first value
is turned into text with `to_str().unwrap()`.  So, exactly:

* stripping panics iff the first `Connection` value is not visible ASCII
  (`strip_connection_headers_eq_none_iff`);
* otherwise the map left has no value for the names of `strippedNames`, and every other name keeps
  all its values (`getAll_strip_connection_headers`).

The tokens of a second `Connection` line are not looked at, and a request keeps all its `TE`
values when the first is `trailers` (`strip_connection_headers_keeps_fields`).
-/

set_option autoImplicit false

namespace Hyper

namespace HeaderName

/-- `header::TE`. -/
def TE : HeaderName := ⟨ascii "te", by decide +kernel⟩

/-- `header::TRAILER`. -/
def TRAILER : HeaderName := ⟨ascii "trailer", by decide +kernel⟩

end HeaderName

namespace H2

open HeaderName

/-- `connection_headers`: the two names built with `HeaderName::from_lowercase`, and three
constants. -/
def connection_headers : List HeaderName :=
  [⟨ascii "keep-alive", by decide +kernel⟩, ⟨ascii "proxy-connection", by decide +kernel⟩, TRAILER,
    TRANSFER_ENCODING, UPGRADE]

/-- `HeaderMap::remove` with a `&str` key.  The key is parsed as a header name first, ignoring
case; a key that is no header name (an empty token, say) matches nothing. -/
def removeStr (headers : HeaderMap) (name : List UInt8) : HeaderMap :=
  match HeaderName.from_bytes name with
  | some key => headers.remove key
  | none => headers

/-- The test a request's `TE` field fails: its first value is not exactly `trailers`. -/
def teNotTrailers (headers : HeaderMap) : Bool :=
  ((headers.getAll TE).head?.map fun te_header ↦ te_header.bytes != ascii "trailers").getD false

/-- The `TE` step of `strip_connection_headers`. -/
def stripTE (headers : HeaderMap) (is_request : Bool) : HeaderMap :=
  if is_request then
    if teNotTrailers headers then headers.remove TE else headers
  else headers.remove TE

/-- `strip_connection_headers`; `none` is the panic of `to_str().unwrap()`. -/
def strip_connection_headers (headers : HeaderMap) (is_request : Bool) : Option HeaderMap :=
  let headers := stripTE (headers.removeAll connection_headers) is_request
  -- `headers.remove(CONNECTION)` drops every value and returns the first
  match (headers.getAll CONNECTION).head? with
  | none => some headers
  | some header =>
    header.to_str.map fun header_contents ↦
      (splitComma header_contents).foldl (fun headers name ↦ removeStr headers (trim name))
        (headers.remove CONNECTION)

/-! ## What stripping removes -/

/-- The names of the tokens of a `Connection` value, as `removeStr` parses them. -/
def connectionTokens (header_contents : List UInt8) : List HeaderName :=
  (splitComma header_contents).filterMap fun name ↦ HeaderName.from_bytes (trim name)

/-- The names stripping removes: the fixed ones, `TE` unless a request's first `TE` value is
`trailers` or it has none, `Connection`, and the tokens of the first `Connection` value. -/
def strippedNames (headers : HeaderMap) (is_request : Bool) : List HeaderName :=
  connection_headers ++ (if is_request && !teNotTrailers headers then [] else [TE]) ++
    CONNECTION :: (((headers.getAll CONNECTION).head?.bind HeaderValue.to_str).map connectionTokens).getD []

theorem TE_not_mem_connection_headers : TE ∉ connection_headers := by decide

theorem CONNECTION_not_mem_connection_headers : CONNECTION ∉ connection_headers := by decide

theorem CONNECTION_ne_TE : CONNECTION ≠ TE := by decide

/-- Removing the tokens one by one is removing the names they parse to. -/
theorem foldl_removeStr (names : List (List UInt8)) (headers : HeaderMap) :
    names.foldl (fun headers name ↦ removeStr headers (trim name)) headers =
      headers.removeAll (names.filterMap fun name ↦ HeaderName.from_bytes (trim name)) := by
  induction names generalizing headers with
  | nil => rfl
  | cons name names ih =>
    rw [List.foldl_cons, ih, List.filterMap_cons]
    unfold removeStr
    cases HeaderName.from_bytes (trim name) <;> rfl

theorem getAll_stripTE (headers : HeaderMap) (is_request : Bool) (k : HeaderName) :
    (stripTE headers is_request).getAll k =
      if k = TE ∧ !(is_request && !teNotTrailers headers) then [] else headers.getAll k := by
  unfold stripTE
  cases is_request <;> cases teNotTrailers headers <;> by_cases h : k = TE <;> simp [h]

/-- The map after the fixed names and `TE`, before `Connection`. -/
theorem getAll_stripTE_removeAll (headers : HeaderMap) (is_request : Bool) (k : HeaderName) :
    (stripTE (headers.removeAll connection_headers) is_request).getAll k =
      if k ∈ connection_headers ++ (if is_request && !teNotTrailers headers then [] else [TE]) then []
      else headers.getAll k := by
  -- the fixed names leave `TE`, so its test reads the map as it came
  have hte : teNotTrailers (headers.removeAll connection_headers) = teNotTrailers headers := by
    unfold teNotTrailers
    rw [MultiMap.getAll_removeAll, if_neg TE_not_mem_connection_headers]
  rw [getAll_stripTE, hte, MultiMap.getAll_removeAll]
  cases is_request <;> cases teNotTrailers headers <;> by_cases h : k = TE <;>
    simp [h, TE_not_mem_connection_headers]

/-- Neither step before it touches `Connection`. -/
theorem getAll_CONNECTION_stripTE_removeAll (headers : HeaderMap) (is_request : Bool) :
    (stripTE (headers.removeAll connection_headers) is_request).getAll CONNECTION =
      headers.getAll CONNECTION := by
  rw [getAll_stripTE_removeAll, if_neg]
  simp [CONNECTION_not_mem_connection_headers, CONNECTION_ne_TE]

/-- **Stripping panics** exactly when the first `Connection` value is not visible ASCII. -/
theorem strip_connection_headers_eq_none_iff (headers : HeaderMap) (is_request : Bool) :
    strip_connection_headers headers is_request = none ↔
      ∃ header, (headers.getAll CONNECTION).head? = some header ∧ header.to_str = none := by
  unfold strip_connection_headers
  dsimp only
  rw [getAll_CONNECTION_stripTE_removeAll]
  cases (headers.getAll CONNECTION).head? <;> simp

/-- **What stripping leaves**: no value for a stripped name, and every value of any other. -/
theorem getAll_strip_connection_headers {headers headers' : HeaderMap} {is_request : Bool}
    (h : strip_connection_headers headers is_request = some headers') (k : HeaderName) :
    headers'.getAll k = if k ∈ strippedNames headers is_request then [] else headers.getAll k := by
  unfold strip_connection_headers at h
  dsimp only at h
  rw [getAll_CONNECTION_stripTE_removeAll] at h
  unfold strippedNames
  rcases hc : (headers.getAll CONNECTION).head? with _ | header
  · -- no `Connection` field: nothing after `TE` is removed
    rw [hc] at h
    obtain rfl := Option.some.inj h
    rw [getAll_stripTE_removeAll]
    by_cases hkc : k = CONNECTION
    · subst hkc
      have hnil : headers.getAll CONNECTION = [] := by simpa using hc
      simp [hnil]
    · simp [hkc]
  · rw [hc] at h
    obtain ⟨header_contents, hstr, rfl⟩ := Option.map_eq_some_iff.mp h
    rw [foldl_removeStr, MultiMap.getAll_removeAll, MultiMap.getAll_remove, getAll_stripTE_removeAll]
    simp only [Option.bind_some, hstr, Option.map_some, Option.getD_some, connectionTokens,
      List.mem_append, List.mem_cons]
    by_cases h₁ : k ∈ (splitComma header_contents).filterMap fun name ↦ HeaderName.from_bytes (trim name) <;>
      by_cases h₂ : k = CONNECTION <;> simp [h₁, h₂]

/-! ## Fields that stay -/

/-- A name that is no standard one, for the field a `Connection` token names. -/
def xFoo : HeaderName := ⟨ascii "x-foo", by decide +kernel⟩

theorem strip_connection_headers_keeps_fields :
    (∀ is_request, strip_connection_headers (MultiMap.empty.appendAll [(CONNECTION, ⟨[128]⟩)]) is_request =
      none) ∧
    (∀ is_request, (strip_connection_headers (MultiMap.empty.appendAll
        [(CONNECTION, .from_static "close"), (CONNECTION, .from_static "x-foo"), (xFoo, .from_static "1")])
        is_request).map (·.getAll xFoo) = some [.from_static "1"]) ∧
    (strip_connection_headers (MultiMap.empty.appendAll
        [(TE, .from_static "trailers"), (TE, .from_static "gzip")]) true).map (·.getAll TE) =
      some [.from_static "trailers", .from_static "gzip"] := by
  refine ⟨?_, ?_, ?_⟩ <;> decide +kernel

end H2

end Hyper
