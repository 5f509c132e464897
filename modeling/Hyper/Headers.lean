import Hyper.Http

/-!
# Reading the framing headers (`headers.rs`)

The functions hyper uses to read `Connection`, `Content-Length` and `Transfer-Encoding`, and to
add `chunked` to a `Transfer-Encoding`.

`from_digits` is the parser of a content length: a non-empty run of ASCII digits whose value fits
a `u64`, read with checked arithmetic.  `from_digits_eq_some_iff` says what it accepts, in terms
of `IsDecimal`: the statement of "a decimal digit string worth `n`".
`content_length_parse_all_values` reads every comma-separated item of every `Content-Length`
line and accepts only when they all agree; `content_length_parse_all_values_eq_some_iff` says
so.  `is_chunked_` looks at the last coding of one `Transfer-Encoding` line, and `is_chunked` at
the last line.
-/

set_option autoImplicit false

namespace Hyper

namespace headers

open HeaderName

/-! ## `Connection` -/

/-- `connection_has`: whether one of the comma-separated items of the value is `needle`, in any
case. -/
def connection_has (value : HeaderValue) (needle : List UInt8) : Bool :=
  match value.to_str with
  | some s => (splitComma s).any fun v ↦ eq_ignore_ascii_case (trim v) needle
  | none => false

/-- `connection_keep_alive`. -/
def connection_keep_alive (value : HeaderValue) : Bool := connection_has value (ascii "keep-alive")

/-- `connection_close`. -/
def connection_close (value : HeaderValue) : Bool := connection_has value (ascii "close")

/-! ## `Content-Length` -/

/-- Whether a byte is an ASCII digit. -/
def isDigit (b : UInt8) : Bool := 48 ≤ b ∧ b ≤ 57

/-- The loop of `from_digits`: `result * 10 + digit` for each byte, with checked arithmetic;
`None` at the first byte that is not a digit or would overflow. -/
def from_digits_loop : ℕ → List UInt8 → Option ℕ
  | result, [] => some result
  | result, b :: bs =>
    if isDigit b then do
      let r ← checked_mul result 10
      let r' ← checked_add r (b.toNat - 48)
      from_digits_loop r' bs
    else none

/-- `from_digits`: a non-empty run of ASCII digits whose value fits a `u64`. -/
def from_digits (bytes : List UInt8) : Option ℕ :=
  if bytes = [] then none else from_digits_loop 0 bytes

/-- The specification: `bytes` is a decimal numeral worth `n`. -/
def IsDecimal (bytes : List UInt8) (n : ℕ) : Prop :=
  bytes ≠ [] ∧ (∀ b ∈ bytes, isDigit b) ∧ Numeral.value 10 0 (bytes.map fun b ↦ b.toNat - 48) = n

/-- One digit of `from_digits_loop`: the two checked steps fail together, exactly when
`acc * 10 + d` leaves `u64`. -/
theorem from_digits_loop_digit {acc : ℕ} {b : UInt8} (bs : List UInt8) (hb : isDigit b) :
    from_digits_loop acc (b :: bs) =
      if acc * 10 + (b.toNat - 48) < 2 ^ 64 then from_digits_loop (acc * 10 + (b.toNat - 48)) bs
      else none := by
  by_cases hfit : acc * 10 + (b.toNat - 48) < 2 ^ 64
  · simp only [from_digits_loop, hb, if_true, checked_mul_of_lt (by omega : acc * 10 < 2 ^ 64),
      checked_add_of_lt hfit, if_pos hfit, Option.bind_eq_bind, Option.bind_some]
  · by_cases hmul : acc * 10 < 2 ^ 64
    · simp only [from_digits_loop, hb, if_true, checked_mul_of_lt hmul,
        checked_add_of_le (by omega : 2 ^ 64 ≤ acc * 10 + (b.toNat - 48)), if_neg hfit,
        Option.bind_eq_bind, Option.bind_some, Option.bind_none]
    · simp only [from_digits_loop, hb, if_true, checked_mul_of_le (by omega : 2 ^ 64 ≤ acc * 10),
        if_neg hfit, Option.bind_eq_bind, Option.bind_none]

theorem from_digits_loop_eq_some_iff (bytes : List UInt8) {acc n : ℕ} (hacc : acc < 2 ^ 64) :
    from_digits_loop acc bytes = some n ↔
      (∀ b ∈ bytes, isDigit b) ∧ Numeral.value 10 acc (bytes.map fun b ↦ b.toNat - 48) = n ∧
        n < 2 ^ 64 := by
  induction bytes generalizing acc with
  | nil =>
    simp only [from_digits_loop, Option.some.injEq, List.not_mem_nil, IsEmpty.forall_iff,
      implies_true, List.map_nil, Numeral.value_nil, true_and]
    constructor
    · rintro rfl
      exact ⟨rfl, hacc⟩
    · rintro ⟨rfl, -⟩
      rfl
  | cons b bs ih =>
    by_cases hb : isDigit b
    · rw [from_digits_loop_digit bs hb]
      simp only [List.map_cons, Numeral.value_cons, List.forall_mem_cons, hb, true_and]
      by_cases hfit : acc * 10 + (b.toNat - 48) < 2 ^ 64
      · rw [if_pos hfit, ih hfit]
      · -- the value only grows, so it leaves `u64` with its first digits
        have hgrow : acc * 10 + (b.toNat - 48) ≤
            Numeral.value 10 (acc * 10 + (b.toNat - 48)) (bs.map fun b ↦ b.toNat - 48) :=
          Numeral.le_value (by norm_num) _ _
        rw [if_neg hfit]
        simp only [reduceCtorEq, false_iff, not_and]
        intro _ hv
        omega
    · simp [from_digits_loop, hb]

/-- **What `from_digits` accepts**: exactly the decimal numerals worth less than `2 ^ 64`. -/
theorem from_digits_eq_some_iff {bytes : List UInt8} {n : ℕ} :
    from_digits bytes = some n ↔ IsDecimal bytes n ∧ n < 2 ^ 64 := by
  unfold from_digits IsDecimal
  by_cases h : bytes = []
  · simp [h]
  · rw [if_neg h, from_digits_loop_eq_some_iff bytes (by norm_num)]
    simp [h, and_assoc]

/-- The value hyper writes for a length is read back as that length. -/
theorem from_digits_from_u64 {n : ℕ} (hn : n < 2 ^ 64) :
    from_digits (HeaderValue.from_u64 n).bytes = some n := by
  have hsym : ∀ d < 10, (HeaderValue.digitSym d).toNat - 48 = d ∧ isDigit (HeaderValue.digitSym d) :=
    by decide
  refine from_digits_eq_some_iff.mpr ⟨⟨Numeral.render_ne_nil _ n, fun b hb ↦ ?_, ?_⟩, hn⟩
  · obtain ⟨d, hd, rfl⟩ := List.mem_map.mp hb
    exact (hsym d (Numeral.lt_of_mem_digitList (by norm_num) hd)).2
  · exact Numeral.value_render (by norm_num) (fun d hd ↦ (hsym d hd).1) n

/-- A written length is the only one its value reads as. -/
theorem isDecimal_from_u64 {m n : ℕ} (hm : m < 2 ^ 64) (hn : n < 2 ^ 64)
    (h : IsDecimal (HeaderValue.from_u64 m).bytes n) : n = m := by
  have hread := from_digits_eq_some_iff.mpr ⟨h, hn⟩
  rw [from_digits_from_u64 hm] at hread
  exact (Option.some.inj hread).symm

/-- `content_length_parse`: the whole value as one numeral. -/
def content_length_parse (value : HeaderValue) : Option ℕ := from_digits value.bytes

/-- The inner loop of `content_length_parse_all_values`, over the items of one line: `none` is
its `return None`, and `some` the length found so far. -/
def parse_items (acc : Option ℕ) : List (List UInt8) → Option (Option ℕ)
  | [] => some acc
  | v :: vs =>
    match from_digits (trim v) with
    | none => none
    | some n =>
      match acc with
      | none => parse_items (some n) vs
      | some m => if m = n then parse_items acc vs else none

/-- The outer loop of `content_length_parse_all_values`, over the lines. -/
def parse_lines (acc : Option ℕ) : List HeaderValue → Option (Option ℕ)
  | [] => some acc
  | h :: hs =>
    match h.to_str with
    | none => none
    | some line =>
      match parse_items acc (splitComma line) with
      | none => none
      | some acc' => parse_lines acc' hs

/-- `content_length_parse_all_values`: the one length every item of every line gives. -/
def content_length_parse_all_values (values : List HeaderValue) : Option ℕ :=
  (parse_lines none values).bind id

/-- `content_length_parse_all`. -/
def content_length_parse_all (headers : HeaderMap) : Option ℕ :=
  content_length_parse_all_values (headers.getAll CONTENT_LENGTH)

/-- The specification of `content_length_parse_all_values` at `n`: every line is text, and each
of its comma-separated items, trimmed, is a numeral worth `n`. -/
def AllItemsAre (values : List HeaderValue) (n : ℕ) : Prop :=
  ∀ v ∈ values, ∃ s, v.to_str = some s ∧ ∀ item ∈ splitComma s, from_digits (trim item) = some n

/-- Once a length is known, the items of a line keep it exactly when they all give it. -/
theorem parse_items_some_iff (m : ℕ) (items : List (List UInt8)) (acc : Option ℕ) :
    parse_items (some m) items = some acc ↔
      acc = some m ∧ ∀ item ∈ items, from_digits (trim item) = some m := by
  induction items with
  | nil => simp [parse_items, eq_comm]
  | cons v vs ih =>
    rcases hv : from_digits (trim v) with _ | n
    · simp [parse_items, hv]
    · by_cases hmn : m = n
      · subst hmn
        simp [parse_items, hv, ih]
      · simp [parse_items, hv, hmn, Ne.symm hmn]

/-- The first item of a line sets the length, and the others must give it too. -/
theorem parse_items_none_iff (v : List UInt8) (vs : List (List UInt8)) (acc : Option ℕ) :
    parse_items none (v :: vs) = some acc ↔
      ∃ n, acc = some n ∧ ∀ item ∈ v :: vs, from_digits (trim item) = some n := by
  rcases hv : from_digits (trim v) with _ | n
  · simp [parse_items, hv]
  · simp only [parse_items, hv, parse_items_some_iff, List.forall_mem_cons]
    constructor
    · rintro ⟨rfl, hall⟩
      exact ⟨n, rfl, rfl, hall⟩
    · rintro ⟨n', rfl, hn', hall⟩
      cases Option.some.inj hn'
      exact ⟨rfl, hall⟩

theorem parse_lines_some_iff (m : ℕ) (values : List HeaderValue) (acc : Option ℕ) :
    parse_lines (some m) values = some acc ↔ acc = some m ∧ AllItemsAre values m := by
  induction values with
  | nil => simp [parse_lines, AllItemsAre, eq_comm]
  | cons h hs ih =>
    rcases hstr : h.to_str with _ | line
    · simp [parse_lines, AllItemsAre, hstr]
    · rcases hitems : parse_items (some m) (splitComma line) with _ | acc'
      · have hbad := mt (parse_items_some_iff m (splitComma line) (some m)).mpr
          (by simp [hitems])
        simp only [parse_lines, hstr, hitems, reduceCtorEq, false_iff, not_and]
        intro _ hall
        obtain ⟨s, hs', hitems'⟩ := hall h (by simp)
        rw [hstr, Option.some.injEq] at hs'
        subst hs'
        exact hbad ⟨rfl, hitems'⟩
      · obtain ⟨rfl, hline⟩ := (parse_items_some_iff m _ _).mp hitems
        simp only [parse_lines, hstr, hitems, ih, AllItemsAre, List.forall_mem_cons]
        constructor
        · rintro ⟨rfl, hrest⟩
          exact ⟨rfl, ⟨line, rfl, hline⟩, hrest⟩
        · rintro ⟨rfl, -, hrest⟩
          exact ⟨rfl, hrest⟩

/-- After the first length is known, the lines yield `n` exactly when it was `n` and the rest of
the lines all give it. -/
theorem parse_lines_bind_some_iff (m : ℕ) (values : List HeaderValue) (n : ℕ) :
    (parse_lines (some m) values).bind id = some n ↔ m = n ∧ AllItemsAre values m := by
  rcases hlines : parse_lines (some m) values with _ | acc
  · simp only [Option.bind_none, reduceCtorEq, false_iff, not_and]
    rintro rfl hall
    have := (parse_lines_some_iff m values (some m)).mpr ⟨rfl, hall⟩
    rw [hlines] at this
    cases this
  · obtain ⟨rfl, hall⟩ := (parse_lines_some_iff m values acc).mp hlines
    simp [hall]

/-- **What `content_length_parse_all_values` accepts**: at least one line, and every item of
every line a numeral worth the same `n`. -/
theorem content_length_parse_all_values_eq_some_iff (values : List HeaderValue) (n : ℕ) :
    content_length_parse_all_values values = some n ↔ values ≠ [] ∧ AllItemsAre values n := by
  cases values with
  | nil => simp [content_length_parse_all_values, parse_lines]
  | cons h hs =>
    simp only [content_length_parse_all_values, ne_eq, reduceCtorEq, not_false_eq_true, true_and]
    rcases hstr : h.to_str with _ | line
    · simp [parse_lines, AllItemsAre, hstr]
    -- `split` always gives at least one item, so the first line sets the length
    obtain ⟨v, vs, hsplit⟩ := List.exists_cons_of_ne_nil (List.splitOn_ne_nil 44 line)
    have hfirst : ∀ acc, parse_items none (splitComma line) = some acc ↔
        ∃ k, acc = some k ∧ ∀ item ∈ splitComma line, from_digits (trim item) = some k := by
      intro acc
      rw [splitComma, hsplit, parse_items_none_iff]
    have hhead : ∀ k, AllItemsAre (h :: hs) k ↔
        (∀ item ∈ splitComma line, from_digits (trim item) = some k) ∧ AllItemsAre hs k := by
      intro k
      simp [AllItemsAre, hstr]
    rcases hitems : parse_items none (splitComma line) with _ | acc
    · simp only [parse_lines, hstr, hitems, Option.bind_none, reduceCtorEq, false_iff, hhead,
        not_and]
      intro hline _
      have := (hfirst (some n)).mpr ⟨n, rfl, hline⟩
      rw [hitems] at this
      cases this
    · obtain ⟨m, rfl, hline⟩ := (hfirst acc).mp hitems
      simp only [parse_lines, hstr, hitems]
      rw [parse_lines_bind_some_iff, hhead]
      constructor
      · rintro ⟨rfl, hrest⟩
        exact ⟨hline, hrest⟩
      · rintro ⟨hline', hrest⟩
        -- the first item gives both `m` and `n`
        have hv : v ∈ splitComma line := by simp [splitComma, hsplit]
        have hmn : m = n := Option.some.inj ((hline v hv).symm.trans (hline' v hv))
        subst hmn
        exact ⟨rfl, hrest⟩

theorem IsDecimal.unique {bytes : List UInt8} {m n : ℕ} (hm : IsDecimal bytes m)
    (hn : IsDecimal bytes n) : m = n :=
  hm.2.2.symm.trans hn.2.2

/-- A numeral is rejected exactly when its value leaves `u64`: the overflow check fires from
`2 ^ 64` on and not before. -/
theorem from_digits_eq_none_iff {bytes : List UInt8} {v : ℕ} (hv : IsDecimal bytes v) :
    from_digits bytes = none ↔ 2 ^ 64 ≤ v := by
  constructor
  · intro hnone
    by_contra hlt
    have hsome := from_digits_eq_some_iff.mpr ⟨hv, not_le.mp hlt⟩
    rw [hnone] at hsome
    cases hsome
  · intro hge
    rcases hread : from_digits bytes with _ | n
    · rfl
    · obtain ⟨hn, hlt⟩ := from_digits_eq_some_iff.mp hread
      have := hv.unique hn
      omega

/-- `AllItemsAre` in the terms of the source: visible ASCII lines, and numerals for items.  The
bound on `n` comes from any one item, and there is one as soon as there is a line. -/
theorem allItemsAre_iff_decimal {values : List HeaderValue} (hne : values ≠ []) (n : ℕ) :
    AllItemsAre values n ↔ n < 2 ^ 64 ∧ ∀ v ∈ values, v.bytes.all HeaderValue.is_visible_ascii ∧
      ∀ item ∈ splitComma v.bytes, IsDecimal (trim item) n := by
  simp only [AllItemsAre, HeaderValue.to_str_eq_some_iff, from_digits_eq_some_iff]
  constructor
  · intro hall
    obtain ⟨v, hv⟩ := List.exists_mem_of_ne_nil values hne
    obtain ⟨_, ⟨-, rfl⟩, hitems⟩ := hall v hv
    obtain ⟨item, hitem⟩ := List.exists_mem_of_ne_nil _ (List.splitOn_ne_nil 44 v.bytes)
    refine ⟨(hitems item hitem).2, fun w hw ↦ ?_⟩
    obtain ⟨_, ⟨hvis, rfl⟩, hwitems⟩ := hall w hw
    exact ⟨hvis, fun item hitem ↦ (hwitems item hitem).1⟩
  · rintro ⟨hlt, hall⟩ w hw
    exact ⟨w.bytes, ⟨(hall w hw).1, rfl⟩, fun item hitem ↦ ⟨(hall w hw).2 item hitem, hlt⟩⟩

/-- The length read from the lines does not depend on their order. -/
theorem content_length_parse_all_values_perm {values values' : List HeaderValue}
    (h : values.Perm values') :
    content_length_parse_all_values values' = content_length_parse_all_values values := by
  have hne : values' ≠ [] ↔ values ≠ [] := by
    simp only [ne_eq, ← List.length_eq_zero_iff, h.length_eq]
  refine Option.ext fun n ↦ ?_
  simp only [content_length_parse_all_values_eq_some_iff, AllItemsAre, h.mem_iff, hne]

/-- **`Content-Length` parsing**: the lines give `n` exactly when there is one, every line is
visible ASCII, and every comma-separated item, trimmed, is a decimal numeral worth `n`, with
`n < 2 ^ 64`.  `from_digits` accepts exactly the numerals that fit a `u64`, rejects one exactly
from `2 ^ 64` on, and the order of the lines does not matter. -/
theorem content_length_parse_all_values_iff (values : List HeaderValue) (n : ℕ) :
    (content_length_parse_all_values values = some n ↔
      values ≠ [] ∧ n < 2 ^ 64 ∧ ∀ v ∈ values, v.bytes.all HeaderValue.is_visible_ascii ∧
        ∀ item ∈ splitComma v.bytes, IsDecimal (trim item) n) ∧
    (∀ (bytes : List UInt8) (v : ℕ), from_digits bytes = some v ↔ IsDecimal bytes v ∧ v < 2 ^ 64) ∧
    (∀ (bytes : List UInt8) (v : ℕ), IsDecimal bytes v → (from_digits bytes = none ↔ 2 ^ 64 ≤ v)) ∧
    ∀ values' : List HeaderValue, values.Perm values' →
      content_length_parse_all_values values' = content_length_parse_all_values values := by
  refine ⟨?_, fun _ _ ↦ from_digits_eq_some_iff, fun _ _ hv ↦ from_digits_eq_none_iff hv,
    fun _ h ↦ content_length_parse_all_values_perm h⟩
  rw [content_length_parse_all_values_eq_some_iff]
  exact and_congr_right fun hne ↦ allItemsAre_iff_decimal hne n

/-- The inner loop of `is_chunked_` on the text of a line: its last comma-separated coding is
`chunked`, in any case. -/
def lastCodingIsChunked (s : List UInt8) : Bool :=
  match (splitComma s).getLast? with
  | some encoding => eq_ignore_ascii_case (trim encoding) (ascii "chunked")
  | none => false

/-- `is_chunked_`: whether the last coding of one `Transfer-Encoding` line is `chunked`. -/
def is_chunked_ (value : HeaderValue) : Bool :=
  match value.to_str with
  | some s => lastCodingIsChunked s
  | none => false

/-- `is_chunked`: whether the last `Transfer-Encoding` line ends in `chunked`. -/
def is_chunked (encodings : List HeaderValue) : Bool :=
  match encodings.getLast? with
  | some line => is_chunked_ line
  | none => false

/-- `transfer_encoding_is_chunked`. -/
def transfer_encoding_is_chunked (headers : HeaderMap) : Bool :=
  is_chunked (headers.getAll TRANSFER_ENCODING)

/-- `add_chunked` on the occupied `Transfer-Encoding` entry: `, chunked` after its last line. -/
def add_chunked (headers : HeaderMap) : HeaderMap :=
  if headers.getAll TRANSFER_ENCODING ≠ [] then
    headers.modifyLast TRANSFER_ENCODING fun line ↦ ⟨line.bytes ++ ascii ", chunked"⟩
  else headers.insert TRANSFER_ENCODING (HeaderValue.from_static "chunked")

end headers

end Hyper
