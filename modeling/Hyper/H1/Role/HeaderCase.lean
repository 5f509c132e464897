import Hyper.H1.Role.ServerWriters
import Hyper.H1.Role.ClientParse

/-!
# Header names in their original case (`HeaderCaseMap`, `role.rs`)

With `preserve_header_case`, the header loops of `Server::parse` and `Client::parse` record, beside
the header map, the bytes of each line's name as it came; a head that carries that
`HeaderCaseMap` is written back with those spellings.  `Server::parse` skips a `Content-Length`
line in both maps at once; `Client::parse` records every line.

* `Server.readLinesCased_aligned`, `Client.readLinesCased_aligned`: the spellings and the values
  of a name come from the same lines, in order: all of its lines for the client, the first `r`
  of them for the server.
* `Client.write_headers_original_case_eq`: `Client::encode` writes the `k`-th line of a name with
  `spelling … k`: the `k`-th spelling recorded, or the name in title or lower case when there are
  fewer.
* `Server.Impl.encode_headers_with_original_case_spelled`: `OrigCaseWriter` starts its iterator
  again whenever the name changes, and `Server::encode_headers` makes the calls of a name
  together, so it writes what `SpellingWriter` writes, which spells the `k`-th call for a name
  `spelling … k`.  `SpellingWriter.toOrigCase` maps the one writer to the other; under `Allowed`
  (the name is new, or the last one called) each call commutes with it, and `Fits` carries
  `Allowed` over the loop, entry by entry, with `ServerWriters.lean` doing the rest.
* `header_case_round_trip` gathers the four for the two round trips, a request parsed by
  `Server::parse` and written by `Client::encode`, and a response parsed by `Client::parse` and
  written by `Server::encode`.
-/

set_option autoImplicit false

namespace Hyper.H1

open headers HeaderName

/-- The lines named `name`, in the order they came. -/
def fieldLines (name : HeaderName) (hs : List httparse.Header) : List httparse.Header :=
  hs.filter (·.isNamed name)

theorem fieldLines_concat {hs : List httparse.Header} {h : httparse.Header} {n : HeaderName}
    (hn : HeaderName.from_bytes h.name = some n) (name : HeaderName) :
    fieldLines name (hs ++ [h]) = fieldLines name hs ++ if n = name then [h] else [] := by
  rw [fieldLines, List.filter_append]
  by_cases hk : n = name
  · simp [hk, (httparse.Header.isNamed_iff hn name).mpr hk, fieldLines]
  · simp [hk, (httparse.Header.isNamed_iff hn name).not.mpr hk, fieldLines]

/-- The spelling of the `k`-th line of `name`, counting from `0`: the `k`-th one recorded, or once
there are no more, the name in title case or in lower case. -/
def spelling (map : HeaderCaseMap) (title_case_headers : Bool) (name : HeaderName) (k : ℕ) :
    List UInt8 :=
  (map.get_all_internal name)[k]?.getD
    (if title_case_headers then title_case name.bytes else name.bytes)

/-! ## `Client::encode` -/

namespace Client

/-- What follows the name of a value's line: an empty value is written without the space. -/
def valueRest (value : HeaderValue) : List UInt8 :=
  if value.bytes = [] then ascii ":\r\n" else ascii ": " ++ value.bytes ++ ascii "\r\n"

/-- The inner loop of `write_headers_original_case`, over the values of `name`; `names` is what
the iterator over its spellings has left. -/
def writeOriginalCase (name : HeaderName) (title_case_headers : Bool) :
    List (List UInt8) → List HeaderValue → List UInt8
  | _, [] => []
  | names, value :: values =>
    let (orig_name, names) : List UInt8 × List (List UInt8) :=
      match names with
      | orig_name :: rest => (orig_name, rest)
      | [] => (if title_case_headers then title_case name.bytes else name.bytes, [])
    orig_name ++ valueRest value ++ writeOriginalCase name title_case_headers names values

/-- `write_headers_original_case`: for each name, its values paired in order with its spellings. -/
def write_headers_original_case (headers : HeaderMap) (orig_case : HeaderCaseMap)
    (title_case_headers : Bool) : List UInt8 :=
  headers.keys.flatMap fun name ↦
    writeOriginalCase name title_case_headers (orig_case.get_all name) (headers.getAll name)

/-- `write_headers_title_case`. -/
def write_headers_title_case (headers : HeaderMap) : List UInt8 :=
  headers.iter.flatMap fun p ↦ title_case p.1.bytes ++ ascii ": " ++ p.2.bytes ++ [CR, LF]

namespace Impl

/-- `Client::encode` with the head's `HeaderCaseMap` extension `orig_case` and the option
`title_case_headers`, which choose how the map is written. -/
def encode (head : MessageHead RequestLine) (orig_case : Option HeaderCaseMap)
    (title_case_headers : Bool) (body : Option BodyLength) : Option (Encoder × List UInt8) :=
  let (headers, encoder) := set_length head body
  (versionBytes head.version).map fun version ↦
    (encoder, head.subject.method.bytes ++ ascii " " ++ head.subject.uri.bytes ++ ascii " " ++
      version ++ [CR, LF] ++
      (match orig_case with
        | some orig_headers => write_headers_original_case headers orig_headers title_case_headers
        | none => if title_case_headers then write_headers_title_case headers else write_headers headers) ++
      [CR, LF])

/-- Without a `HeaderCaseMap` and title case, `Client.encode` is `Client::encode`. -/
theorem encode_lowercase (head : MessageHead RequestLine) (body : Option BodyLength) :
    encode head none false body = Client.encode head body := rfl

end Impl

/-- The inner loop from the `k`-th spelling on: the `i`-th value gets the `(k + i)`-th. -/
theorem writeOriginalCase_drop (name : HeaderName) (title_case_headers : Bool)
    (spellings : List (List UInt8)) :
    ∀ (values : List HeaderValue) (k : ℕ),
      writeOriginalCase name title_case_headers (spellings.drop k) values =
        (values.mapIdx fun i value ↦
          spellings[k + i]?.getD (if title_case_headers then title_case name.bytes else name.bytes) ++
            valueRest value).flatten
  | [], _ => rfl
  | value :: values, k => by
    have ih := writeOriginalCase_drop name title_case_headers spellings values (k + 1)
    -- the iterator hands out the `k`-th spelling and leaves those after it
    have hnext : spellings.drop (k + 1) = (spellings.drop k).tail := by
      rw [List.tail_drop]
    have hhead : spellings[k]? = (spellings.drop k).head? := by
      rw [List.head?_drop]
    have hfun : (fun i (value : HeaderValue) ↦ spellings[k + (i + 1)]?.getD
        (if title_case_headers then title_case name.bytes else name.bytes) ++ valueRest value) =
        fun i value ↦ spellings[k + 1 + i]?.getD
          (if title_case_headers then title_case name.bytes else name.bytes) ++ valueRest value := by
      funext i value
      rw [show k + (i + 1) = k + 1 + i by omega]
    rw [List.mapIdx_cons, List.flatten_cons, Nat.add_zero, hfun, ← ih]
    rcases hk : spellings.drop k with _ | ⟨orig_name, rest⟩ <;> rw [hk] at hnext hhead <;>
      simp [writeOriginalCase, hnext, hhead, List.append_assoc]

/-- **`write_headers_original_case` spells the `k`-th line of each name with `spelling … k`**, and
writes each value on a line of its own, in order. -/
theorem write_headers_original_case_eq (headers : HeaderMap) (orig_case : HeaderCaseMap)
    (title_case_headers : Bool) :
    write_headers_original_case headers orig_case title_case_headers =
      headers.keys.flatMap fun name ↦ ((headers.getAll name).mapIdx fun k value ↦
        spelling orig_case title_case_headers name k ++ valueRest value).flatten := by
  rw [write_headers_original_case]
  congr 1
  funext name
  have h := writeOriginalCase_drop name title_case_headers (orig_case.get_all_internal name)
    (headers.getAll name) 0
  simpa [HeaderCaseMap.get_all, spelling] using h

end Client

/-! ## The header loops with `preserve_header_case` -/

namespace Server

/-- One iteration of the loop of `Server::parse` with `preserve_header_case`: a line that is
appended to the header map is appended to the `HeaderCaseMap` too, with its name as it came; a
line the `match` skips is in neither. -/
def readLineCased (is_http_11 : Bool) (acc : Scan × Option HeaderCaseMap) (h : httparse.Header) :
    Except Parse (Scan × Option HeaderCaseMap) :=
  match HeaderName.from_bytes h.name with
  | none => .error .Internal
  | some name =>
    match readHeader is_http_11 acc.1 name ⟨h.value⟩ with
    | .error e => .error e
    | .ok none => .ok acc
    | .ok (some s') =>
      .ok ({ s' with headers := s'.headers.append name ⟨h.value⟩ },
        acc.2.map fun header_case_map ↦ header_case_map.append name h.name)

/-- The loop over the field lines, with the `HeaderCaseMap`. -/
def readLinesCased (is_http_11 : Bool) (acc : Scan × Option HeaderCaseMap)
    (hs : List httparse.Header) : Except Parse (Scan × Option HeaderCaseMap) :=
  hs.foldlM (readLineCased is_http_11) acc

/-- The `HeaderCaseMap` is beside the loop: without it, the loop is `readLines`. -/
theorem readLineCased_fst (is_http_11 : Bool) (acc : Scan × Option HeaderCaseMap)
    (h : httparse.Header) :
    (readLineCased is_http_11 acc h).map Prod.fst = readLine is_http_11 acc.1 h := by
  rw [readLineCased, readLine]
  rcases HeaderName.from_bytes h.name with _ | name
  · rfl
  · dsimp only
    rcases readHeader is_http_11 acc.1 name ⟨h.value⟩ with e | _ | s' <;> rfl

theorem readLinesCased_fst (is_http_11 : Bool) :
    ∀ (hs : List httparse.Header) (acc : Scan × Option HeaderCaseMap),
      (readLinesCased is_http_11 acc hs).map Prod.fst = readLines is_http_11 acc.1 hs
  | [], _ => rfl
  | h :: hs, acc => by
    rw [readLinesCased, readLines, List.foldlM_cons, List.foldlM_cons, ← readLineCased_fst]
    rcases readLineCased is_http_11 acc h with e | acc'
    · rfl
    · exact readLinesCased_fst is_http_11 hs acc'

/-- What a line that the `match` keeps leaves of the state: the map, and a `Transfer-Encoding` or
a length already read; a `Content-Length` is kept only before both. -/
theorem readHeader_some {is_http_11 : Bool} {s s' : Scan} {name : HeaderName}
    {value : HeaderValue} (h : readHeader is_http_11 s name value = .ok (some s')) :
    s'.headers = s.headers ∧ (s.is_te → s'.is_te) ∧ (s.con_len.isSome → s'.con_len.isSome) ∧
      (name = CONTENT_LENGTH → ¬s.is_te ∧ s.con_len = none) := by
  rcases readHeader_cases h with ⟨rfl, s'', hte, hs⟩ | ⟨rfl, hcl⟩ | ⟨hte, hcl, s'', hs, hfr, hh⟩
  · cases hs
    unfold onTransferEncoding at hte
    split_ifs at hte <;> cases hte <;> simp
  · rcases onContentLength_cases hcl with ⟨-, hnone⟩ | ⟨hte, len, -, ⟨-, hnone⟩ | ⟨hcon, -, hs⟩⟩
    · cases hnone
    · cases hnone
    · cases hs
      simp [hte, hcon]
  · cases hs
    simp only [Scan.framing, Prod.mk.injEq] at hfr
    obtain ⟨-, hcon, hte', -⟩ := hfr
    exact ⟨hh, fun h ↦ hte' ▸ h, fun h ↦ hcon ▸ h, fun h ↦ absurd h hcl⟩

/-- A line the `match` skips is a `Content-Length` after a `Transfer-Encoding` or a length. -/
theorem readHeader_none {is_http_11 : Bool} {s : Scan} {name : HeaderName} {value : HeaderValue}
    (h : readHeader is_http_11 s name value = .ok none) :
    name = CONTENT_LENGTH ∧ (s.is_te ∨ s.con_len.isSome) := by
  rcases readHeader_cases h with ⟨-, s'', -, hs⟩ | ⟨rfl, hcl⟩ | ⟨-, -, s'', hs, -⟩
  · cases hs
  · rcases onContentLength_cases hcl with ⟨hte, -⟩ | ⟨-, len, -, ⟨hcon, -⟩ | ⟨-, -, hs⟩⟩
    · exact ⟨rfl, .inl hte⟩
    · exact ⟨rfl, .inr (by simp [hcon])⟩
    · cases hs
  · cases hs

/-- What the maps hold after the lines `pre`, for each name: the first `r` of its lines, their
spellings in the `HeaderCaseMap` and their values in the header map, and any later line of it was
skipped because a `Transfer-Encoding` or a length had been read, as every later one will be. -/
def Aligned (pre : List httparse.Header) (s : Scan) (m : HeaderCaseMap) : Prop :=
  ∀ name, ∃ r ≤ (fieldLines name pre).length,
    m.get_all_internal name = ((fieldLines name pre).take r).map (·.name) ∧
    s.headers.getAll name = ((fieldLines name pre).take r).map (fun h ↦ HeaderValue.mk h.value) ∧
    (r < (fieldLines name pre).length → name = CONTENT_LENGTH ∧ (s.is_te ∨ s.con_len.isSome))

theorem aligned_init (method : Method) (is_http_11 : Bool) :
    Aligned [] (Scan.init method is_http_11) HeaderCaseMap.default :=
  fun _ ↦ ⟨0, le_rfl, rfl, rfl, fun h ↦ absurd h (Nat.lt_irrefl 0)⟩

/-- **One line keeps the two maps aligned.** -/
theorem Aligned.readLineCased {is_http_11 : Bool} {pre : List httparse.Header} {s s' : Scan}
    {m : HeaderCaseMap} {o : Option HeaderCaseMap} {h : httparse.Header} (hal : Aligned pre s m)
    (hline : readLineCased is_http_11 (s, some m) h = .ok (s', o)) :
    ∃ m', o = some m' ∧ Aligned (pre ++ [h]) s' m' := by
  rw [Server.readLineCased] at hline
  rcases hname : HeaderName.from_bytes h.name with _ | n
  · simp only [hname, reduceCtorEq] at hline
  rcases hread : readHeader is_http_11 s n ⟨h.value⟩ with e | _ | s''
  · simp only [hname, hread, reduceCtorEq] at hline
  · -- skipped: a `Content-Length` that every later one will follow
    simp only [hname, hread, Except.ok.injEq, Prod.mk.injEq] at hline
    obtain ⟨rfl, rfl⟩ := hline
    obtain ⟨rfl, hskip⟩ := readHeader_none hread
    refine ⟨m, rfl, fun name ↦ ?_⟩
    obtain ⟨r, hr, hm, hv, hlater⟩ := hal name
    rw [fieldLines_concat hname]
    by_cases hk : CONTENT_LENGTH = name
    · subst hk
      refine ⟨r, by simp; omega, ?_, ?_, fun _ ↦ ⟨rfl, hskip⟩⟩
      · rw [if_pos rfl, List.take_append_of_le_length hr, hm]
      · rw [if_pos rfl, List.take_append_of_le_length hr, hv]
    · refine ⟨r, by simpa [hk] using hr, ?_, ?_, ?_⟩
      · simpa [hk] using hm
      · simpa [hk] using hv
      · simpa [hk] using hlater
  · -- kept: the line goes to both maps, after every earlier line of its name
    simp only [hname, hread, Option.map_some, Except.ok.injEq, Prod.mk.injEq] at hline
    obtain ⟨rfl, rfl⟩ := hline
    obtain ⟨hheaders, hte, hcon, hcl⟩ := readHeader_some hread
    refine ⟨_, rfl, fun name ↦ ?_⟩
    obtain ⟨r, hr, hm, hv, hlater⟩ := hal name
    have hlater' : r < (fieldLines name pre).length →
        name = CONTENT_LENGTH ∧ (s''.is_te ∨ s''.con_len.isSome) := fun hlt ↦ by
      obtain ⟨hname', hte' | hcon'⟩ := hlater hlt
      · exact ⟨hname', .inl (hte hte')⟩
      · exact ⟨hname', .inr (hcon hcon')⟩
    rw [fieldLines_concat hname]
    by_cases hk : n = name
    · subst hk
      -- no line of this name was skipped, or this one would be too
      have hall : r = (fieldLines n pre).length := by
        by_contra hne
        obtain ⟨rfl, hte' | hcon'⟩ := hlater (lt_of_le_of_ne hr hne)
        · exact (hcl rfl).1 hte'
        · simp [(hcl rfl).2] at hcon'
      subst hall
      refine ⟨(fieldLines n pre).length + 1, by simp, ?_, ?_, fun hlt ↦ absurd hlt (by simp)⟩
      · simp [HeaderCaseMap.get_all_internal_append, hm]
      · simp [MultiMap.getAll_append, hheaders, hv]
    · refine ⟨r, by simpa [hk] using hr, ?_, ?_, ?_⟩
      · simpa [HeaderCaseMap.get_all_internal_append, hk, Ne.symm hk] using hm
      · simpa [MultiMap.getAll_append, hheaders, hk, Ne.symm hk] using hv
      · simpa [hk] using hlater'

/-- **The server's two maps stay aligned over the loop**: for each name, the spellings recorded and
the values kept come from its first `r` lines, in order. -/
theorem readLinesCased_aligned {is_http_11 : Bool} {method : Method} {hs : List httparse.Header}
    {s : Scan} {o : Option HeaderCaseMap}
    (hrun : readLinesCased is_http_11 (Scan.init method is_http_11, some HeaderCaseMap.default) hs =
      .ok (s, o)) :
    ∃ m, o = some m ∧ ∀ name, ∃ r,
      m.get_all_internal name = ((fieldLines name hs).take r).map (·.name) ∧
      s.headers.getAll name = ((fieldLines name hs).take r).map (fun h ↦ HeaderValue.mk h.value) := by
  have hinv := List.foldlM_inv (fun pre (acc : Scan × Option HeaderCaseMap) ↦
      ∃ m, acc.2 = some m ∧ Aligned pre acc.1 m)
    (fun _ h acc acc' ⟨m, hm, hal⟩ hline ↦ by
      obtain ⟨s, o⟩ := acc
      obtain ⟨s', o'⟩ := acc'
      cases hm
      exact hal.readLineCased hline)
    hs [] ⟨_, rfl, aligned_init method is_http_11⟩ hrun
  obtain ⟨m, hm, hal⟩ := hinv
  refine ⟨m, hm, fun name ↦ ?_⟩
  obtain ⟨r, -, hspell, hvalue, -⟩ := hal name
  exact ⟨r, by simpa using hspell, by simpa using hvalue⟩

end Server

namespace Client

/-- One iteration of the loop of `Client::parse` with `preserve_header_case`: the `Connection`
override of `keep_alive`, and the line appended to the header map and to the `HeaderCaseMap`. -/
def readLineCased (acc : (Bool × HeaderMap) × Option HeaderCaseMap) (h : httparse.Header) :
    Except Parse ((Bool × HeaderMap) × Option HeaderCaseMap) :=
  match HeaderName.from_bytes h.name with
  | none => .error .Internal
  | some name =>
    let value : HeaderValue := ⟨h.value⟩
    let keep_alive :=
      if name = CONNECTION then
        if acc.1.1 then !connection_close value else connection_keep_alive value
      else acc.1.1
    .ok ((keep_alive, acc.1.2.append name value),
      acc.2.map fun header_case_map ↦ header_case_map.append name h.name)

/-- The header loop with the `HeaderCaseMap`, from the version's default `keep_alive`. -/
def readLinesCased (keep_alive : Bool) (header_case_map : Option HeaderCaseMap)
    (hs : List httparse.Header) : Except Parse ((Bool × HeaderMap) × Option HeaderCaseMap) :=
  hs.foldlM readLineCased ((keep_alive, MultiMap.empty), header_case_map)

theorem readLineCased_fst (acc : (Bool × HeaderMap) × Option HeaderCaseMap) (h : httparse.Header) :
    (readLineCased acc h).map Prod.fst = readLine acc.1 h := by
  rw [readLineCased, readLine]
  rcases HeaderName.from_bytes h.name with _ | name <;> rfl

theorem foldlM_readLineCased_fst :
    ∀ (hs : List httparse.Header) (acc : (Bool × HeaderMap) × Option HeaderCaseMap),
      (hs.foldlM readLineCased acc).map Prod.fst = hs.foldlM readLine acc.1
  | [], _ => rfl
  | h :: hs, acc => by
    rw [List.foldlM_cons, List.foldlM_cons, ← readLineCased_fst]
    rcases readLineCased acc h with e | acc'
    · rfl
    · exact foldlM_readLineCased_fst hs acc'

/-- The `HeaderCaseMap` is beside the loop: without it, the loop is `readLines`. -/
theorem readLinesCased_fst (keep_alive : Bool) (header_case_map : Option HeaderCaseMap)
    (hs : List httparse.Header) :
    (readLinesCased keep_alive header_case_map hs).map Prod.fst = readLines keep_alive hs :=
  foldlM_readLineCased_fst hs _

/-- **The client's two maps stay aligned over the loop**: for each name, the spellings recorded and
the values come from all of its lines, in order. -/
theorem readLinesCased_aligned {keep_alive keep_alive' : Bool} {hs : List httparse.Header}
    {headers : HeaderMap} {o : Option HeaderCaseMap}
    (hrun : readLinesCased keep_alive (some HeaderCaseMap.default) hs =
      .ok ((keep_alive', headers), o)) :
    ∃ m, o = some m ∧ ∀ name,
      m.get_all_internal name = (fieldLines name hs).map (·.name) ∧
      headers.getAll name = (fieldLines name hs).map (fun h ↦ HeaderValue.mk h.value) := by
  have hlines : readLines keep_alive hs = .ok (keep_alive', headers) := by
    rw [← readLinesCased_fst keep_alive (some HeaderCaseMap.default), hrun]
    rfl
  have hinv := List.foldlM_inv
    (fun pre (acc : (Bool × HeaderMap) × Option HeaderCaseMap) ↦
      ∃ m, acc.2 = some m ∧ ∀ name, m.get_all_internal name = (fieldLines name pre).map (·.name))
    (fun _ h acc acc' ⟨m, hm, hspell⟩ hline ↦ by
      rw [readLineCased] at hline
      rcases hname : HeaderName.from_bytes h.name with _ | n
      · simp [hname] at hline
      simp only [hname, Except.ok.injEq] at hline
      subst hline
      refine ⟨_, by rw [hm]; rfl, fun name ↦ ?_⟩
      rw [HeaderCaseMap.get_all_internal_append, hspell, fieldLines_concat hname]
      by_cases hk : n = name
      · simp [hk]
      · simp [hk, Ne.symm hk])
    hs [] ⟨_, rfl, fun _ ↦ rfl⟩ hrun
  obtain ⟨m, hm, hspell⟩ := hinv
  refine ⟨m, hm, fun name ↦ ⟨by simpa using hspell name, ?_⟩⟩
  rw [readLines_getAll hlines name, fieldValues, fieldLines, List.map_map]
  rfl

end Client

namespace Server.Impl

/-! ## The spelling writer -/

/-- A writer that spells a call for `name` with `spelling … k`, `k` the calls for `name` before
it; `written` are the names of the calls so far. -/
structure SpellingWriter where
  map : HeaderCaseMap
  title_case_headers : Bool
  written : List HeaderName

namespace SpellingWriter

/-- One call for `name`. -/
def write_header_name (w : SpellingWriter) (name : HeaderName) : SpellingWriter × List UInt8 :=
  ({ w with written := w.written ++ [name] },
    spelling w.map w.title_case_headers name (w.written.count name))

instance : HeaderNameWriter SpellingWriter where
  write_full_header_line w _ name_value :=
    let (w, bytes) := w.write_header_name name_value.1
    (w, bytes ++ name_value.2)
  write_header_name_with_colon w _ name :=
    let (w, bytes) := w.write_header_name name
    (w, bytes ++ ascii ": ")
  write_header_name w name := w.write_header_name name

theorem written_of_called {w w' : SpellingWriter} {name : HeaderName} (h : Called w name w') :
    w'.written = w.written ++ [name] := by
  rcases h with ⟨_, _, rfl⟩ | ⟨_, rfl⟩ | rfl <;> rfl

/-- The `OrigCaseWriter` that has made the calls `w.written`: its iterator is over the last name,
past the spellings of it handed out so far. -/
def toOrigCase (w : SpellingWriter) : OrigCaseWriter :=
  ⟨w.map, w.written.getLast?.map fun n ↦ (n, (w.map.get_all_internal n).drop (w.written.count n)),
    w.title_case_headers⟩

/-- A call for `name` that `OrigCaseWriter` answers as the spelling writer does: `name` is new, or
it is the name of the last call. -/
def Allowed (w : SpellingWriter) (name : HeaderName) : Prop :=
  name ∉ w.written ∨ w.written.getLast? = some name

theorem toOrigCase_write_header_name {w : SpellingWriter} {name : HeaderName}
    (h : w.Allowed name) :
    (toOrigCase w).write_header_name name = Prod.map toOrigCase id (w.write_header_name name) := by
  -- the iterator the call goes on with: the one over `name`, past the spellings handed out
  have hcur : (if (toOrigCase w).current.all (fun c ↦ c.1 != name) then none
      else (toOrigCase w).current).getD (name, (toOrigCase w).map.get_all_internal name) =
      (name, (w.map.get_all_internal name).drop (w.written.count name)) := by
    rcases h with hnew | hlast
    · -- a new name: the iterator is started again, and none of its spellings was handed out
      have hc : w.written.count name = 0 := List.count_eq_zero.mpr hnew
      rcases hl : w.written.getLast? with _ | l
      · simp [toOrigCase, hl, hc]
      · have hne : l ≠ name := fun e ↦ hnew (e ▸ List.mem_of_getLast? hl)
        simp [toOrigCase, hl, hc, hne]
    · simp [toOrigCase, hlast]
  unfold OrigCaseWriter.write_header_name
  dsimp only
  rw [hcur]
  have hnext : (w.map.get_all_internal name).drop (w.written.count name + 1) =
      ((w.map.get_all_internal name).drop (w.written.count name)).tail := by
    rw [List.tail_drop]
  have hhead : (w.map.get_all_internal name)[w.written.count name]? =
      ((w.map.get_all_internal name).drop (w.written.count name)).head? := by
    rw [List.head?_drop]
  rcases hd : (w.map.get_all_internal name).drop (w.written.count name) with _ | ⟨orig, rest⟩ <;>
    rw [hd] at hnext hhead
  · simp [toOrigCase, write_header_name, spelling, hnext, hhead]
    rfl
  · simp [toOrigCase, write_header_name, spelling, hnext, hhead]

theorem commutes_toOrigCase {w : SpellingWriter} {name : HeaderName} (h : w.Allowed name) :
    Commutes toOrigCase w name where
  full_header_line line rest := by
    simp only [HeaderNameWriter.write_full_header_line, toOrigCase_write_header_name h]
    rfl
  with_colon name_with_colon := by
    simp only [HeaderNameWriter.write_header_name_with_colon, toOrigCase_write_header_name h]
    rfl
  header_name := toOrigCase_write_header_name h

end SpellingWriter

/-! ## `OrigCaseWriter` in the header loop -/

open SpellingWriter

/-- What the loop keeps of the spelling writer: the names of its calls are among `names`, and a
framing name or `DATE` is among them only once its flag is set. -/
structure Fits (names : List HeaderName) (s : Writing SpellingWriter) : Prop where
  written : ∀ n ∈ s.writer.written, n ∈ names
  transfer_encoding : TRANSFER_ENCODING ∈ s.writer.written → s.wrote_len = true
  content_length : CONTENT_LENGTH ∈ s.writer.written → s.wrote_len = true
  date : DATE ∈ s.writer.written → s.wrote_date = true

theorem Fits.mono {names names' : List HeaderName} {s : Writing SpellingWriter}
    (hs : Fits names s) (hsub : names ⊆ names') : Fits names' s :=
  ⟨fun n hn ↦ hsub (hs.written n hn), hs.transfer_encoding, hs.content_length, hs.date⟩

/-- **One step keeps `Fits`**, and adds `name` to the calls or nothing. -/
theorem Fits.stepsBy {names : List HeaderName} {name : HeaderName} {s s' : Writing SpellingWriter}
    (hs : Fits names s) (hn : name ∈ names) (h : StepsBy name s s') :
    Fits names s' ∧
      (s'.writer.written = s.writer.written ∨ s'.writer.written = s.writer.written ++ [name]) := by
  rcases h.writer with hw | ⟨hc, hlen, hdate⟩
  · have hw' : s'.writer.written = s.writer.written := by
      rw [hw]
    refine ⟨⟨fun n hn' ↦ hs.written n (hw' ▸ hn'), fun h' ↦ ?_, fun h' ↦ ?_, fun h' ↦ ?_⟩, Or.inl hw'⟩
    · exact h.wrote_len (hs.transfer_encoding (hw' ▸ h'))
    · exact h.wrote_len (hs.content_length (hw' ▸ h'))
    · exact h.wrote_date (hs.date (hw' ▸ h'))
  · have hw := written_of_called hc
    -- a name of the calls after the step is an old one, or `name`, whose flag the call set
    have hmem : ∀ n, n ∈ s'.writer.written → n ∈ s.writer.written ∨ n = name := by
      intro n hn'
      rwa [hw, List.mem_append, List.mem_singleton] at hn'
    refine ⟨⟨fun n hn' ↦ ?_, fun hn' ↦ ?_, fun hn' ↦ ?_, fun hn' ↦ ?_⟩, Or.inr hw⟩
    · rcases hmem n hn' with h' | rfl
      exacts [hs.written n h', hn]
    · rcases hmem _ hn' with h' | h'
      exacts [h.wrote_len (hs.transfer_encoding h'), hlen (Or.inl h'.symm)]
    · rcases hmem _ hn' with h' | h'
      exacts [h.wrote_len (hs.content_length h'), hlen (Or.inr h'.symm)]
    · rcases hmem _ hn' with h' | h'
      exacts [h.wrote_date (hs.date h'), hdate h'.symm]

variable (ctx : EncodeCtx) (head : MessageHead StatusCode) (body : Option BodyLength) (orig_len : ℕ)

/-- **One entry**: from a spelling writer that has called only names of the entries before, the
`OrigCaseWriter` run is the image of the spelling writer's, value by value: each call is for the
entry's name, which is new or the last one called. -/
theorem encodeEntry_toOrigCase {pre : List (HeaderName × List HeaderValue)}
    {e : HeaderName × List HeaderValue} {s : Writing SpellingWriter}
    (hs : Fits (pre.map Prod.fst) s) (hnew : e.1 ∉ pre.map Prod.fst) :
    Except.Agree (fun o s' ↦ o = s'.mapWriter toOrigCase ∧ Fits ((pre ++ [e]).map Prod.fst) s')
      Eq (encodeEntry ctx head body orig_len (s.mapWriter toOrigCase) e)
      (encodeEntry ctx head body orig_len s e) := by
  have hnames : (pre ++ [e]).map Prod.fst = pre.map Prod.fst ++ [e.1] := by
    simp
  rw [hnames]
  unfold Impl.encodeEntry
  -- the entry starts from the same writer and flags
  have hfit : Fits (pre.map Prod.fst ++ [e.1])
      { s with toHeaderLoop := { s.handle_is_name_written with is_name_written := false } } := by
    have hlen := wrote_len_handle_is_name_written s.toHeaderLoop
    have hdate := wrote_date_handle_is_name_written s.toHeaderLoop
    refine (Fits.mono ⟨hs.written, ?_, ?_, ?_⟩ (List.subset_append_left _ _))
    · exact fun h ↦ hlen.trans (hs.transfer_encoding h)
    · exact fun h ↦ hlen.trans (hs.content_length h)
    · exact fun h ↦ hdate.trans (hs.date h)
  have hallowed : Allowed s.writer e.1 := Or.inl fun h ↦ hnew (hs.written _ h)
  refine (List.foldlM_agree e.2
    (fun _ o s' ↦ o = s'.mapWriter toOrigCase ∧ Fits (pre.map Prod.fst ++ [e.1]) s' ∧
      Allowed s'.writer e.1) Eq ?_ ⟨rfl, hfit, hallowed⟩).imp
    (fun _ _ h ↦ ⟨h.1, h.2.1⟩) (fun _ _ h ↦ h)
  rintro _ value _ _ s' - ⟨rfl, hf, hal⟩
  rw [(commutes_toOrigCase hal).encodeValue]
  rcases hv : encodeValue ctx head body orig_len e.1 s' value with err | s''
  · rfl
  · -- the step adds `e.1` to the calls or nothing, so the next call is allowed too
    obtain ⟨hf', hw⟩ := hf.stepsBy (by simp) (stepsBy_encodeValue ctx head body orig_len value e.1 hv)
    refine ⟨rfl, hf', ?_⟩
    rcases hw with hw | hw
    · rw [Allowed, hw]
      exact hal
    · right
      rw [hw, List.getLast?_concat]

/-- The end of the loop: with no framing name called while `wrote_len` is unset and no `DATE`
while `wrote_date` is, the framing and date calls are allowed too. -/
theorem encodeEnd_toOrigCase {names : List HeaderName} {s : Writing SpellingWriter}
    (hs : Fits names s) (date : List UInt8) :
    encodeEnd ctx date head body (s.mapWriter toOrigCase) = encodeEnd ctx date head body s := by
  refine Commutes.encodeEnd ctx head body (fun hlen ↦ ?_) (fun hdate ↦ ?_) date
  · have hlen' : s.wrote_len = false := by simpa using hlen
    exact ⟨commutes_toOrigCase (Or.inl fun h ↦ by simp [hs.transfer_encoding h] at hlen'),
      commutes_toOrigCase (Or.inl fun h ↦ by simp [hs.content_length h] at hlen')⟩
  · -- the framing keeps `wrote_date` and calls a framing name at most
    obtain ⟨hd, hw⟩ := encodeFraming_writer ctx head body s
    have hdate' : s.wrote_date = false := by simpa [hd] using hdate
    have hnot : DATE ∉ s.writer.written := fun h ↦ by simp [hs.date h] at hdate'
    refine commutes_toOrigCase (Or.inl ?_)
    rcases hw with hw | ⟨name, hname, hc⟩
    · rwa [hw]
    · rw [written_of_called hc, List.mem_append, List.mem_singleton]
      rintro (h | rfl)
      · exact hnot h
      · rcases hname with h | h <;> exact absurd h (by decide)

/-- **`Server::encode_headers_with_original_case` is the header loop with the spelling writer**:
`OrigCaseWriter` starts its iterator again whenever the name changes, and the loop makes the calls
of an entry together, one entry per name, so the `k`-th call for a name gets the spelling
`spelling orig_headers title_case_headers name k`. -/
theorem encode_headers_with_original_case_spelled (title_case_headers : Bool) (date : List UInt8)
    (dst : List UInt8) (is_last wrote_len : Bool) (orig_headers : HeaderCaseMap) :
    encode_headers_with_original_case ctx title_case_headers date head body dst is_last orig_len
        wrote_len orig_headers =
      encode_headers ctx date head body dst is_last orig_len wrote_len
        (⟨orig_headers, title_case_headers, []⟩ : SpellingWriter) := by
  unfold encode_headers_with_original_case encode_headers
  dsimp only
  -- entry by entry, the names called are those of the entries before
  have hloop := List.foldlM_agree head.headers.entries
    (fun pre o s ↦ o = s.mapWriter toOrigCase ∧ Fits (pre.map Prod.fst) s) Eq
    (fun pre e rest _ s hsplit ⟨ho, hs⟩ ↦ by
      have hnd := head.headers.nodup
      rw [← hsplit, List.map_append, List.map_cons] at hnd
      have hnew : e.1 ∉ pre.map Prod.fst :=
        fun hin ↦ List.disjoint_of_nodup_append hnd hin (List.mem_cons_self ..)
      rw [ho]
      exact encodeEntry_toOrigCase ctx head body orig_len hs hnew)
    (b := (⟨{ HeaderLoop.init is_last wrote_len with dst := dst },
      ⟨orig_headers, none, title_case_headers⟩⟩ : Writing OrigCaseWriter))
    (c := (⟨{ HeaderLoop.init is_last wrote_len with dst := dst },
      ⟨orig_headers, title_case_headers, []⟩⟩ : Writing SpellingWriter))
    ⟨rfl, ⟨fun _ h ↦ absurd h List.not_mem_nil, fun h ↦ absurd h List.not_mem_nil,
      fun h ↦ absurd h List.not_mem_nil, fun h ↦ absurd h List.not_mem_nil⟩⟩
  -- the two loops fail alike, or end in states that `encodeEnd` does not tell apart
  split
  · next e dst' h1 =>
    split
    · next e' dst'' h2 =>
      rw [h1, h2] at hloop
      cases hloop
      rfl
    · next s h2 =>
      rw [h1, h2] at hloop
      exact hloop.elim
  · next o h1 =>
    split
    · next e' dst'' h2 =>
      rw [h1, h2] at hloop
      exact hloop.elim
    · next s h2 =>
      rw [h1, h2] at hloop
      obtain ⟨rfl, hs⟩ := hloop
      exact encodeEnd_toOrigCase ctx head body hs date

end Server.Impl

/-! ## The round trip -/

/-- **Header names keep their case over a parse and an encode.**  `Server::parse` followed by
`Client::encode` (a request passed on), and `Client::parse` followed by `Server::encode` (a
response passed on): each parse loop records, for every name, the spellings of the lines whose
values it keeps, in the same order; `Client::encode` writes the `k`-th value of a name on a line
spelled `spelling … k`, and `Server::encode` spells its `k`-th call for a name the same way, a
combined line taking one spelling. -/
theorem header_case_round_trip :
    (∀ (is_http_11 : Bool) (method : Method) (hs : List httparse.Header) (s : Server.Scan)
        (o : Option HeaderCaseMap),
      Server.readLinesCased is_http_11 (Server.Scan.init method is_http_11,
          some HeaderCaseMap.default) hs = .ok (s, o) →
        ∃ m, o = some m ∧ ∀ name, ∃ r,
          m.get_all_internal name = ((fieldLines name hs).take r).map (·.name) ∧
          s.headers.getAll name =
            ((fieldLines name hs).take r).map (fun h ↦ HeaderValue.mk h.value)) ∧
    (∀ (headers : HeaderMap) (orig_case : HeaderCaseMap) (title_case_headers : Bool),
      Client.write_headers_original_case headers orig_case title_case_headers =
        headers.keys.flatMap fun name ↦ ((headers.getAll name).mapIdx fun k value ↦
          spelling orig_case title_case_headers name k ++ Client.valueRest value).flatten) ∧
    (∀ (keep_alive keep_alive' : Bool) (hs : List httparse.Header) (headers : HeaderMap)
        (o : Option HeaderCaseMap),
      Client.readLinesCased keep_alive (some HeaderCaseMap.default) hs =
          .ok ((keep_alive', headers), o) →
        ∃ m, o = some m ∧ ∀ name,
          m.get_all_internal name = (fieldLines name hs).map (·.name) ∧
          headers.getAll name = (fieldLines name hs).map (fun h ↦ HeaderValue.mk h.value)) ∧
    (∀ (ctx : Server.EncodeCtx) (title_case_headers : Bool) (date : List UInt8)
        (head : MessageHead StatusCode) (body : Option BodyLength) (dst : List UInt8)
        (is_last : Bool) (orig_len : ℕ) (wrote_len : Bool) (orig_headers : HeaderCaseMap),
      Server.Impl.encode_headers_with_original_case ctx title_case_headers date head body dst
          is_last orig_len wrote_len orig_headers =
        Server.Impl.encode_headers ctx date head body dst is_last orig_len wrote_len
          (⟨orig_headers, title_case_headers, []⟩ : Server.Impl.SpellingWriter)) :=
  ⟨fun _ _ _ _ _ hrun ↦ Server.readLinesCased_aligned hrun,
    Client.write_headers_original_case_eq,
    fun _ _ _ _ _ hrun ↦ Client.readLinesCased_aligned hrun,
    fun ctx title_case_headers date head body dst is_last orig_len wrote_len orig_headers ↦
      Server.Impl.encode_headers_with_original_case_spelled ctx head body orig_len
        title_case_headers date dst is_last wrote_len orig_headers⟩

/-- A name in two spellings, `X-Id: 1` then `x-ID: 2`, after `Host: a`: each parse records both
spellings in order beside the two values (the server, of the lines it keeps). -/
theorem header_case_round_trip_two_spellings :
    (∃ s m r, Server.readLinesCased true (Server.Scan.init Method.GET true,
        some HeaderCaseMap.default)
        [⟨ascii "Host", ascii "a"⟩, ⟨ascii "X-Id", ascii "1"⟩, ⟨ascii "x-ID", ascii "2"⟩] =
          .ok (s, some m) ∧
      m.get_all_internal ⟨ascii "x-id", by decide +kernel⟩ = [ascii "X-Id", ascii "x-ID"].take r ∧
      s.headers.getAll ⟨ascii "x-id", by decide +kernel⟩ = [⟨ascii "1"⟩, ⟨ascii "2"⟩].take r) ∧
    (∃ keep_alive headers m, Client.readLinesCased true (some HeaderCaseMap.default)
        [⟨ascii "Host", ascii "a"⟩, ⟨ascii "X-Id", ascii "1"⟩, ⟨ascii "x-ID", ascii "2"⟩] =
          .ok ((keep_alive, headers), some m) ∧
      m.get_all_internal ⟨ascii "x-id", by decide +kernel⟩ = [ascii "X-Id", ascii "x-ID"] ∧
      headers.getAll ⟨ascii "x-id", by decide +kernel⟩ = [⟨ascii "1"⟩, ⟨ascii "2"⟩]) := by
  -- the lines of `x-id`, whichever spelling they came in
  have hlines : fieldLines ⟨ascii "x-id", by decide +kernel⟩
      [⟨ascii "Host", ascii "a"⟩, ⟨ascii "X-Id", ascii "1"⟩, ⟨ascii "x-ID", ascii "2"⟩] =
      [⟨ascii "X-Id", ascii "1"⟩, ⟨ascii "x-ID", ascii "2"⟩] := by
    decide +kernel
  constructor
  · have hok : (Server.readLinesCased true (Server.Scan.init Method.GET true,
        some HeaderCaseMap.default)
        [⟨ascii "Host", ascii "a"⟩, ⟨ascii "X-Id", ascii "1"⟩, ⟨ascii "x-ID", ascii "2"⟩]).toBool =
          true := by
      decide +kernel
    rcases hrun : Server.readLinesCased true (Server.Scan.init Method.GET true,
        some HeaderCaseMap.default)
        [⟨ascii "Host", ascii "a"⟩, ⟨ascii "X-Id", ascii "1"⟩, ⟨ascii "x-ID", ascii "2"⟩]
      with e | ⟨s, o⟩
    · rw [hrun] at hok
      cases hok
    obtain ⟨m, rfl, hm⟩ := header_case_round_trip.1 true Method.GET _ s o hrun
    obtain ⟨r, hspell, hvalue⟩ := hm ⟨ascii "x-id", by decide +kernel⟩
    rw [hlines] at hspell hvalue
    refine ⟨s, m, r, rfl, ?_, ?_⟩
    · rw [hspell, List.map_take]
      rfl
    · rw [hvalue, List.map_take]
      rfl
  · have hok : (Client.readLinesCased true (some HeaderCaseMap.default)
        [⟨ascii "Host", ascii "a"⟩, ⟨ascii "X-Id", ascii "1"⟩, ⟨ascii "x-ID", ascii "2"⟩]).toBool =
          true := by
      decide +kernel
    rcases hrun : Client.readLinesCased true (some HeaderCaseMap.default)
        [⟨ascii "Host", ascii "a"⟩, ⟨ascii "X-Id", ascii "1"⟩, ⟨ascii "x-ID", ascii "2"⟩]
      with e | ⟨⟨keep_alive, headers⟩, o⟩
    · rw [hrun] at hok
      cases hok
    obtain ⟨m, rfl, hm⟩ := header_case_round_trip.2.2.1 true keep_alive _ headers o hrun
    obtain ⟨hspell, hvalue⟩ := hm ⟨ascii "x-id", by decide +kernel⟩
    rw [hlines] at hspell hvalue
    exact ⟨keep_alive, headers, m, rfl, hspell, hvalue⟩

end Hyper.H1
