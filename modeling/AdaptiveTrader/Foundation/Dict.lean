import Mathlib.Data.List.Nodup
import Mathlib.Data.List.Perm.Basic
import Mathlib.Tactic

/-!
# Insertion-ordered dictionaries

A `Dict κ ν` is a list of entries with distinct keys. Assigning an existing key replaces its value
in place and assigning a new key appends, so iteration follows the order in which the keys were
first assigned. The invariant on the keys is a field: a dictionary with a repeated key cannot be
built.

Facts about a dictionary are stated through `get?`. Two dictionaries with the same `get?`
(`Dict.Agree`) can differ in iteration order only: their values are permutations of each other
(`Dict.Agree.values_perm`).
-/

set_option autoImplicit false

namespace Foundation

universe u v

/-- A finite map that remembers the order in which its keys were first assigned. -/
structure Dict (κ : Type u) (ν : Type v) where
  entries : List (κ × ν)
  nodupKeys : (entries.map Prod.fst).Nodup

namespace Dict

variable {κ : Type u} {ν : Type v}

@[ext] theorem ext {d e : Dict κ ν} (h : d.entries = e.entries) : d = e := by
  cases d
  cases e
  simpa using h

instance [DecidableEq κ] [DecidableEq ν] : DecidableEq (Dict κ ν) := fun d e =>
  decidable_of_iff (d.entries = e.entries) ⟨ext, fun h => h ▸ rfl⟩

/-- The dictionary without entries. -/
def empty : Dict κ ν := ⟨[], List.nodup_nil⟩

/-- Keys in assignment order. -/
def keys (d : Dict κ ν) : List κ := d.entries.map Prod.fst

theorem nodup_keys (d : Dict κ ν) : d.keys.Nodup := d.nodupKeys

/-- Values in the assignment order of their keys. -/
def values (d : Dict κ ν) : List ν := d.entries.map Prod.snd

variable [DecidableEq κ]

/-- The value of the first entry with key `k`. -/
def lookup (k : κ) : List (κ × ν) → Option ν
  | [] => none
  | (k', v) :: rest => if k' = k then some v else lookup k rest

/-- Replace the value at key `k` in place, or append the entry when the key is new. -/
def assign (k : κ) (v : ν) : List (κ × ν) → List (κ × ν)
  | [] => [(k, v)]
  | (k', v') :: rest => if k' = k then (k, v) :: rest else (k', v') :: assign k v rest

/-! ## Entries -/

attribute [local simp] lookup assign in
theorem mem_of_lookup {k : κ} {v : ν} {l : List (κ × ν)} (h : lookup k l = some v) :
    (k, v) ∈ l := by
  induction l with
  | nil => simp [lookup] at h
  | cons e rest ih =>
      obtain ⟨k', v'⟩ := e
      by_cases hk : k' = k
      · subst hk
        simp only [lookup, if_true, Option.some.injEq] at h
        subst h
        exact List.mem_cons_self
      · simp only [lookup, if_neg hk] at h
        exact List.mem_cons_of_mem _ (ih h)

theorem lookup_of_mem {k : κ} {v : ν} {l : List (κ × ν)} (hn : (l.map Prod.fst).Nodup)
    (h : (k, v) ∈ l) : lookup k l = some v := by
  induction l with
  | nil => simp at h
  | cons e rest ih =>
      obtain ⟨k', v'⟩ := e
      simp only [List.map_cons, List.nodup_cons] at hn
      rcases List.mem_cons.1 h with heq | hrest
      · obtain ⟨rfl, rfl⟩ := Prod.mk.injEq .. ▸ heq
        simp [lookup]
      · have hne : k' ≠ k := by
          rintro rfl
          exact hn.1 (List.mem_map_of_mem (f := Prod.fst) hrest)
        simpa [lookup, hne] using ih hn.2 hrest

theorem lookup_eq_none_iff {k : κ} {l : List (κ × ν)} :
    lookup k l = none ↔ k ∉ l.map Prod.fst := by
  induction l with
  | nil => simp [lookup]
  | cons e rest ih =>
      obtain ⟨k', v'⟩ := e
      by_cases hk : k' = k
      · simp [lookup, hk]
      · simp [lookup, hk, ih, Ne.symm hk]

theorem lookup_assign_self (k : κ) (v : ν) (l : List (κ × ν)) :
    lookup k (assign k v l) = some v := by
  induction l with
  | nil => simp [assign, lookup]
  | cons e rest ih =>
      obtain ⟨k', v'⟩ := e
      by_cases hk : k' = k
      · simp [assign, lookup, hk]
      · simpa [assign, lookup, hk] using ih

theorem lookup_assign_of_ne {k k₁ : κ} (v : ν) (h : k₁ ≠ k) (l : List (κ × ν)) :
    lookup k₁ (assign k v l) = lookup k₁ l := by
  induction l with
  | nil => simp [assign, lookup, Ne.symm h]
  | cons e rest ih =>
      obtain ⟨k', v'⟩ := e
      by_cases hk : k' = k
      · subst hk
        simp [assign, lookup, Ne.symm h]
      · by_cases hk₁ : k' = k₁
        · simp [assign, lookup, hk₁, h]
        · simpa [assign, lookup, hk, hk₁] using ih

theorem map_fst_assign_of_mem {k : κ} (v : ν) {l : List (κ × ν)} (h : k ∈ l.map Prod.fst) :
    (assign k v l).map Prod.fst = l.map Prod.fst := by
  induction l with
  | nil => simp at h
  | cons e rest ih =>
      obtain ⟨k', v'⟩ := e
      by_cases hk : k' = k
      · simp [assign, hk]
      · have hrest : k ∈ rest.map Prod.fst := by
          rcases List.mem_cons.1 h with h' | h'
          · exact absurd h'.symm hk
          · exact h'
        simp [assign, hk, ih hrest]

theorem assign_of_not_mem {k : κ} (v : ν) {l : List (κ × ν)} (h : k ∉ l.map Prod.fst) :
    assign k v l = l ++ [(k, v)] := by
  induction l with
  | nil => rfl
  | cons e rest ih =>
      obtain ⟨k', v'⟩ := e
      simp only [List.map_cons, List.mem_cons, not_or] at h
      simp [assign, Ne.symm h.1, ih h.2]

theorem nodup_assign (k : κ) (v : ν) {l : List (κ × ν)} (hn : (l.map Prod.fst).Nodup) :
    ((assign k v l).map Prod.fst).Nodup := by
  by_cases h : k ∈ l.map Prod.fst
  · rwa [map_fst_assign_of_mem v h]
  · rw [assign_of_not_mem v h, List.map_append]
    refine List.nodup_append.2 ⟨hn, by simp, ?_⟩
    rintro a ha b hb rfl
    have hak : a = k := by simpa using hb
    exact h (hak ▸ ha)

/-! ## Reading and writing -/

/-- `d.get(k)`. -/
def get? (d : Dict κ ν) (k : κ) : Option ν := lookup k d.entries

/-- `k in d`. -/
def contains (d : Dict κ ν) (k : κ) : Bool := (d.get? k).isSome

/-- `d[k] = v`. -/
def set (d : Dict κ ν) (k : κ) (v : ν) : Dict κ ν := ⟨assign k v d.entries, nodup_assign k v d.nodupKeys⟩

/-- `d.setdefault(k, v)`: an assigned key keeps its value. -/
def setdefault (d : Dict κ ν) (k : κ) (v : ν) : Dict κ ν :=
  if d.contains k then d else d.set k v

/-- The dictionary comprehension `{key(v): v for v in items}`: the last value of a key wins. -/
def ofValues (key : ν → κ) (items : List ν) : Dict κ ν :=
  items.foldl (fun d v => d.set (key v) v) empty

/-- The dictionary in which the first value of a key wins. -/
def firstWins (key : ν → κ) (items : List ν) : Dict κ ν :=
  items.foldl (fun d v => d.setdefault (key v) v) empty

/-- The values whose key has occurred before, given the keys seen so far. -/
def repeatsAfter (key : ν → κ) : List κ → List ν → List ν
  | _, [] => []
  | seen, v :: rest =>
      if key v ∈ seen then v :: repeatsAfter key seen rest
      else repeatsAfter key (key v :: seen) rest

/-- The values whose key has occurred before. -/
def repeats (key : ν → κ) (items : List ν) : List ν := repeatsAfter key [] items

/-- `d.pop(k, None)`: the key is no longer assigned. -/
def erase (d : Dict κ ν) (k : κ) : Dict κ ν :=
  ⟨d.entries.filter fun e => e.1 ≠ k, d.nodupKeys.sublist (List.filter_sublist.map _)⟩

@[simp] theorem get?_empty (k : κ) : (empty : Dict κ ν).get? k = none := rfl

@[simp] theorem get?_set_self (d : Dict κ ν) (k : κ) (v : ν) : (d.set k v).get? k = some v :=
  lookup_assign_self k v d.entries

theorem get?_set_of_ne (d : Dict κ ν) {k k₁ : κ} (v : ν) (h : k₁ ≠ k) :
    (d.set k v).get? k₁ = d.get? k₁ :=
  lookup_assign_of_ne v h d.entries

theorem get?_set (d : Dict κ ν) (k k₁ : κ) (v : ν) :
    (d.set k v).get? k₁ = if k₁ = k then some v else d.get? k₁ := by
  by_cases h : k₁ = k
  · subst h
    simp
  · simp [h, get?_set_of_ne d v h]

/-- Entries kept by their keys. -/
theorem lookup_filter (p : κ → Bool) (k : κ) (l : List (κ × ν)) :
    lookup k (l.filter fun e => p e.1) = if p k = true then lookup k l else none := by
  induction l with
  | nil => simp [lookup]
  | cons e rest ih =>
      obtain ⟨k₀, v⟩ := e
      by_cases hp : p k₀ = true
      · rw [List.filter_cons_of_pos (by simpa using hp)]
        by_cases hk : k₀ = k
        · subst hk
          rw [if_pos hp, lookup, if_pos rfl, lookup, if_pos rfl]
        · rw [lookup, if_neg hk, ih, lookup, if_neg hk]
      · rw [List.filter_cons_of_neg (by simpa using hp), ih]
        by_cases hk : k₀ = k
        · subst hk
          rw [if_neg hp, if_neg hp]
        · rw [lookup, if_neg hk]

theorem get?_erase (d : Dict κ ν) (k k₁ : κ) :
    (d.erase k).get? k₁ = if k₁ = k then none else d.get? k₁ := by
  have h := lookup_filter (fun k' => decide (k' ≠ k)) k₁ d.entries
  by_cases hk : k₁ = k <;> simpa [hk, get?, erase] using h

/-- Assigning a new key adds one entry. -/
theorem get?_set_iff_of_get?_none {d : Dict κ ν} {k k₁ : κ} {v w : ν} (h : d.get? k = none) :
    (d.set k v).get? k₁ = some w ↔ (k₁ = k ∧ w = v) ∨ d.get? k₁ = some w := by
  rw [get?_set]
  split
  · next hk =>
      subst hk
      simp [h, eq_comm]
  · next hk => simp [hk]

@[simp] theorem contains_eq_false {d : Dict κ ν} {k : κ} : d.contains k = false ↔ d.get? k = none := by
  simp [contains]

@[simp] theorem contains_eq_true {d : Dict κ ν} {k : κ} :
    d.contains k = true ↔ ∃ v, d.get? k = some v := by
  simp [contains, Option.isSome_iff_exists]

theorem get?_setdefault (d : Dict κ ν) (k k₁ : κ) (v : ν) :
    (d.setdefault k v).get? k₁ =
      if k₁ = k then some ((d.get? k).getD v) else d.get? k₁ := by
  unfold setdefault
  cases hk : d.get? k with
  | none =>
      have : d.contains k = false := by simpa using hk
      simp [this, get?_set]
  | some w =>
      have : d.contains k = true := by simp [hk]
      by_cases h : k₁ = k
      · subst h
        simp [this, hk]
      · simp [this, h]

theorem setdefault_of_get? {d : Dict κ ν} {k : κ} {w : ν} (h : d.get? k = some w) (v : ν) :
    d.setdefault k v = d := by
  simp [setdefault, contains, h]

theorem setdefault_of_get?_none {d : Dict κ ν} {k : κ} (h : d.get? k = none) (v : ν) :
    d.setdefault k v = d.set k v := by
  simp [setdefault, contains, h]

theorem mem_entries_iff {d : Dict κ ν} {k : κ} {v : ν} : (k, v) ∈ d.entries ↔ d.get? k = some v :=
  ⟨lookup_of_mem d.nodupKeys, mem_of_lookup⟩

theorem mem_keys_iff {d : Dict κ ν} {k : κ} : k ∈ d.keys ↔ ∃ v, d.get? k = some v := by
  constructor
  · intro h
    obtain ⟨⟨k', v⟩, hm, rfl⟩ := List.mem_map.1 h
    exact ⟨v, mem_entries_iff.1 hm⟩
  · rintro ⟨v, h⟩
    exact List.mem_map_of_mem (f := Prod.fst) (mem_entries_iff.2 h)

theorem mem_values_iff {d : Dict κ ν} {v : ν} : v ∈ d.values ↔ ∃ k, d.get? k = some v := by
  constructor
  · intro h
    obtain ⟨⟨k, v'⟩, hm, rfl⟩ := List.mem_map.1 h
    exact ⟨k, mem_entries_iff.1 hm⟩
  · rintro ⟨k, h⟩
    exact List.mem_map_of_mem (f := Prod.snd) (mem_entries_iff.2 h)

/-- Values that know their key are as distinct as the keys. -/
theorem map_values_eq_keys {key : ν → κ} {d : Dict κ ν}
    (h : ∀ k v, d.get? k = some v → key v = k) : d.values.map key = d.keys := by
  rw [values, keys, List.map_map]
  exact List.map_congr_left fun e he => h e.1 e.2 (mem_entries_iff.1 he)

theorem nodup_map_values {key : ν → κ} {d : Dict κ ν}
    (h : ∀ k v, d.get? k = some v → key v = k) : (d.values.map key).Nodup := by
  rw [map_values_eq_keys h]
  exact d.nodup_keys

/-- A value that knows its key is found under it. -/
theorem mem_values_iff_get? {key : ν → κ} {d : Dict κ ν}
    (h : ∀ k v, d.get? k = some v → key v = k) {v : ν} :
    v ∈ d.values ↔ d.get? (key v) = some v := by
  rw [mem_values_iff]
  constructor
  · rintro ⟨k, hk⟩
    rw [h k v hk]
    exact hk
  · exact fun hv => ⟨_, hv⟩

/-- A new key is written behind every other entry. -/
theorem entries_set_of_get?_none {d : Dict κ ν} {k : κ} (h : d.get? k = none) (v : ν) :
    (d.set k v).entries = d.entries ++ [(k, v)] :=
  assign_of_not_mem v (lookup_eq_none_iff.1 h)

theorem values_set_of_get?_none {d : Dict κ ν} {k : κ} (h : d.get? k = none) (v : ν) :
    (d.set k v).values = d.values ++ [v] := by
  simp [values, entries_set_of_get?_none h v]

theorem keys_set_of_get?_none {d : Dict κ ν} {k : κ} (h : d.get? k = none) (v : ν) :
    (d.set k v).keys = d.keys ++ [k] := by
  simp [keys, entries_set_of_get?_none h v]

/-- The only entry under a key. -/
theorem filter_key_of_get?_some {d : Dict κ ν} {k : κ} {v : ν} (h : d.get? k = some v) :
    d.entries.filter (fun e => e.1 = k) = [(k, v)] := by
  have hentries : ∀ l : List (κ × ν), (l.map Prod.fst).Nodup → lookup k l = some v →
      l.filter (fun e => e.1 = k) = [(k, v)] := by
    intro l hn hl
    induction l with
    | nil => simp [lookup] at hl
    | cons e rest ih =>
        obtain ⟨k', v'⟩ := e
        simp only [List.map_cons, List.nodup_cons] at hn
        by_cases hk : k' = k
        · subst hk
          simp only [lookup, if_true, Option.some.injEq] at hl
          subst hl
          have hrest : rest.filter (fun e => e.1 = k') = [] := by
            rw [List.filter_eq_nil_iff]
            intro e he hkey
            exact hn.1 (of_decide_eq_true hkey ▸ List.mem_map_of_mem (f := Prod.fst) he)
          rw [List.filter_cons_of_pos (by simp), hrest]
        · simp only [lookup, if_neg hk] at hl
          rw [List.filter_cons_of_neg (by simpa using hk), ih hn.2 hl]
  exact hentries d.entries d.nodupKeys h

/-- A sum over the entries changes by the entry that is written. -/
theorem sum_map_assign (g : κ × ν → Nat) (k : κ) (v : ν) (l : List (κ × ν)) :
    ((assign k v l).map g).sum + ((lookup k l).map fun w => g (k, w)).getD 0 =
      (l.map g).sum + g (k, v) := by
  induction l with
  | nil => simp [assign, lookup]
  | cons e rest ih =>
      obtain ⟨k', v'⟩ := e
      by_cases hk : k' = k
      · subst hk
        simp only [assign, lookup, if_pos, List.map_cons, List.sum_cons, Option.map_some,
          Option.getD_some]
        omega
      · simp only [assign, lookup, if_neg hk, List.map_cons, List.sum_cons]
        omega

/-- Assigning an existing key replaces its entry in place. -/
theorem entries_set_of_get?_some {d : Dict κ ν} {k : κ} {v : ν} (h : d.get? k = some v) (w : ν) :
    ∃ l m, d.entries = l ++ (k, v) :: m ∧ (d.set k w).entries = l ++ (k, w) :: m := by
  have hassign : ∀ es : List (κ × ν), lookup k es = some v →
      ∃ l m, es = l ++ (k, v) :: m ∧ assign k w es = l ++ (k, w) :: m := by
    intro es
    induction es with
    | nil => simp [lookup]
    | cons e rest ih =>
        obtain ⟨k', v'⟩ := e
        intro hes
        by_cases hk : k' = k
        · subst hk
          simp only [lookup, if_true, Option.some.injEq] at hes
          subst hes
          exact ⟨[], rest, rfl, by simp [assign]⟩
        · simp only [lookup, if_neg hk] at hes
          obtain ⟨l, m, hrest, hset⟩ := ih hes
          exact ⟨(k', v') :: l, m, by rw [hrest]; rfl, by simp [assign, hk, hset]⟩
  exact hassign d.entries h

/-- Replacing the only value of a dictionary. -/
theorem values_set_of_singleton {d : Dict κ ν} {k : κ} {v : ν} (hget : d.get? k = some v)
    (hvalues : d.values = [v]) (w : ν) : (d.set k w).values = [w] := by
  obtain ⟨⟨k', v'⟩, hentries, -⟩ := List.map_eq_singleton_iff.1 hvalues
  have hmem : (k, v) ∈ d.entries := mem_entries_iff.2 hget
  rw [hentries] at hmem
  cases List.mem_singleton.1 hmem
  simp [set, values, hentries, assign]

/-! ## Dictionaries with the same contents -/

/-- Same value for every key; the iteration order is free. -/
def Agree (d e : Dict κ ν) : Prop := ∀ k, d.get? k = e.get? k

namespace Agree

variable {d e : Dict κ ν}

theorem refl (d : Dict κ ν) : Agree d d := fun _ => rfl

theorem symm (h : Agree d e) : Agree e d := fun k => (h k).symm

theorem contains_eq (h : Agree d e) (k : κ) : d.contains k = e.contains k := by
  simp [contains, h k]

theorem mem_keys (h : Agree d e) (k : κ) : k ∈ d.keys ↔ k ∈ e.keys := by
  simp [mem_keys_iff, h k]

theorem keys_perm (h : Agree d e) : d.keys.Perm e.keys :=
  (List.perm_ext_iff_of_nodup d.nodup_keys e.nodup_keys).2 h.mem_keys

theorem entries_perm (h : Agree d e) : d.entries.Perm e.entries := by
  have hd : d.entries.Nodup := List.Nodup.of_map _ d.nodupKeys
  have he : e.entries.Nodup := List.Nodup.of_map _ e.nodupKeys
  refine (List.perm_ext_iff_of_nodup hd he).2 fun ⟨k, v⟩ => ?_
  rw [mem_entries_iff, mem_entries_iff, h k]

theorem values_perm (h : Agree d e) : d.values.Perm e.values := h.entries_perm.map Prod.snd

theorem set (h : Agree d e) (k : κ) (v : ν) : Agree (d.set k v) (e.set k v) := by
  intro k₁
  rw [get?_set, get?_set, h k₁]

end Agree

/-! ## Comprehensions -/

theorem foldl_set_get?_of_not_mem (key : ν → κ) (items : List ν) (d : Dict κ ν) {k : κ}
    (h : ∀ v ∈ items, key v ≠ k) :
    (items.foldl (fun d v => d.set (key v) v) d).get? k = d.get? k := by
  induction items generalizing d with
  | nil => rfl
  | cons v rest ih =>
      simp only [List.foldl_cons]
      rw [ih _ fun w hw => h w (List.mem_cons_of_mem _ hw)]
      exact get?_set_of_ne d v (Ne.symm (h v List.mem_cons_self))

/-- With no key repeated, a comprehension maps each value's key to the value. -/
theorem foldl_set_get?_of_mem (key : ν → κ) {items : List ν} (d : Dict κ ν)
    (hn : (items.map key).Nodup) {v : ν} (hv : v ∈ items) :
    (items.foldl (fun d v => d.set (key v) v) d).get? (key v) = some v := by
  induction items generalizing d with
  | nil => simp at hv
  | cons w rest ih =>
      simp only [List.map_cons, List.nodup_cons] at hn
      simp only [List.foldl_cons]
      rcases List.mem_cons.1 hv with rfl | hrest
      · have hfresh : ∀ x ∈ rest, key x ≠ key v := fun x hx he =>
          hn.1 (List.mem_map.2 ⟨x, hx, he⟩)
        rw [foldl_set_get?_of_not_mem key rest _ hfresh]
        simp
      · exact ih _ hn.2 hrest

theorem foldl_set_key (key : ν → κ) (items : List ν) (d : Dict κ ν)
    (hd : ∀ k v, d.get? k = some v → key v = k) {k : κ} {v : ν}
    (h : (items.foldl (fun d v => d.set (key v) v) d).get? k = some v) : key v = k := by
  induction items generalizing d with
  | nil => exact hd k v h
  | cons w rest ih =>
      refine ih (d.set (key w) w) ?_ h
      intro k₁ v₁ h₁
      rw [get?_set] at h₁
      split at h₁
      · next heq =>
          cases h₁
          exact heq.symm
      · exact hd _ _ h₁

theorem foldl_set_mem (key : ν → κ) (items : List ν) (d : Dict κ ν) {k : κ} {v : ν}
    (h : (items.foldl (fun d v => d.set (key v) v) d).get? k = some v) :
    v ∈ items ∨ d.get? k = some v := by
  induction items generalizing d with
  | nil => exact Or.inr h
  | cons w rest ih =>
      rcases ih (d.set (key w) w) h with hmem | hget
      · exact Or.inl (List.mem_cons_of_mem _ hmem)
      · rw [get?_set] at hget
        split at hget
        · cases hget
          exact Or.inl List.mem_cons_self
        · exact Or.inr hget

/-- After assigning values with distinct keys, a key maps to its new value or keeps its old one. -/
theorem foldl_set_get?_iff (key : ν → κ) {items : List ν} (d : Dict κ ν)
    (hn : (items.map key).Nodup) {k : κ} {v : ν} :
    (items.foldl (fun d v => d.set (key v) v) d).get? k = some v ↔
      (v ∈ items ∧ key v = k) ∨ (k ∉ items.map key ∧ d.get? k = some v) := by
  by_cases hk : k ∈ items.map key
  · obtain ⟨w, hw, rfl⟩ := List.mem_map.1 hk
    rw [foldl_set_get?_of_mem key d hn hw]
    constructor
    · intro h
      cases h
      exact Or.inl ⟨hw, rfl⟩
    · rintro (⟨hv, hkey⟩ | ⟨hnot, -⟩)
      · rw [List.inj_on_of_nodup_map hn hv hw hkey]
      · exact absurd hk hnot
  · have hfresh : ∀ w ∈ items, key w ≠ k := fun w hw he => hk (List.mem_map.2 ⟨w, hw, he⟩)
    rw [foldl_set_get?_of_not_mem key items d hfresh]
    constructor
    · exact fun h => Or.inr ⟨hk, h⟩
    · rintro (⟨hv, hkey⟩ | ⟨-, h⟩)
      · exact absurd hkey (hfresh v hv)
      · exact h

/-- Every key among the items is assigned. -/
theorem foldl_set_isSome (key : ν → κ) (items : List ν) (d : Dict κ ν) {k : κ}
    (h : k ∈ items.map key ∨ ∃ w, d.get? k = some w) :
    ∃ w, (items.foldl (fun d v => d.set (key v) v) d).get? k = some w := by
  induction items generalizing d with
  | nil => simpa using h
  | cons u rest ih =>
      refine ih (d.set (key u) u) ?_
      rcases h with hmem | ⟨w, hw⟩
      · rcases List.mem_cons.1 hmem with rfl | hrest
        · exact Or.inr ⟨u, get?_set_self _ _ _⟩
        · exact Or.inl hrest
      · by_cases hk : k = key u
        · exact Or.inr ⟨u, by rw [hk, get?_set_self]⟩
        · exact Or.inr ⟨w, by rw [get?_set_of_ne _ _ hk, hw]⟩

theorem get?_ofValues_of_mem (key : ν → κ) {items : List ν} (hn : (items.map key).Nodup) {v : ν}
    (hv : v ∈ items) : (ofValues key items).get? (key v) = some v :=
  foldl_set_get?_of_mem key empty hn hv

theorem mem_of_get?_ofValues {key : ν → κ} {items : List ν} {k : κ} {v : ν}
    (h : (ofValues key items).get? k = some v) : v ∈ items ∧ key v = k := by
  refine ⟨?_, foldl_set_key key items empty (by simp) h⟩
  rcases foldl_set_mem key items empty h with hm | hm
  · exact hm
  · simp at hm

/-- When values with the same key are equal, a comprehension holds exactly its values. -/
theorem get?_ofValues_iff {key : ν → κ} {items : List ν}
    (hagree : ∀ v ∈ items, ∀ w ∈ items, key v = key w → v = w) {k : κ} {v : ν} :
    (ofValues key items).get? k = some v ↔ v ∈ items ∧ key v = k := by
  refine ⟨mem_of_get?_ofValues, ?_⟩
  rintro ⟨hv, rfl⟩
  obtain ⟨w, hw⟩ := foldl_set_isSome key items empty (Or.inl (List.mem_map_of_mem hv))
  obtain ⟨hmem, hkey⟩ := mem_of_get?_ofValues hw
  have hsame : w = v := hagree w hmem v hv hkey
  rw [ofValues, hw, hsame]

/-- Assigning values under distinct new keys appends them. -/
theorem foldl_set_values (key : ν → κ) (items : List ν) (d : Dict κ ν) (hn : (items.map key).Nodup)
    (hd : ∀ v ∈ items, d.get? (key v) = none) :
    (items.foldl (fun d v => d.set (key v) v) d).values = d.values ++ items := by
  induction items generalizing d with
  | nil => simp
  | cons w rest ih =>
      simp only [List.map_cons, List.nodup_cons] at hn
      have hw : d.get? (key w) = none := hd w List.mem_cons_self
      rw [List.foldl_cons, ih (d.set (key w) w) hn.2, values_set_of_get?_none hw]
      · simp
      · intro v hv
        have hne : key v ≠ key w := fun he =>
          hn.1 (List.mem_map.2 ⟨v, hv, he⟩)
        rw [get?_set_of_ne d w hne]
        exact hd v (List.mem_cons_of_mem _ hv)

/-- A comprehension over values with distinct keys keeps the values and their order. -/
theorem values_ofValues (key : ν → κ) {items : List ν} (hn : (items.map key).Nodup) :
    (ofValues key items).values = items := by
  simpa [ofValues, values, empty] using foldl_set_values key items empty hn (by simp)

/-- With distinct keys a comprehension does not depend on the order of its values. -/
theorem ofValues_agree_of_perm {key : ν → κ} {l m : List ν} (hp : l.Perm m)
    (hn : (l.map key).Nodup) : Agree (ofValues key l) (ofValues key m) := by
  have hm : (m.map key).Nodup := (hp.map key).nodup_iff.1 hn
  intro k
  apply Option.ext
  intro v
  rw [get?_ofValues_iff fun a ha b hb => List.inj_on_of_nodup_map hn ha hb,
    get?_ofValues_iff fun a ha b hb => List.inj_on_of_nodup_map hm ha hb, hp.mem_iff]

/-- A fold of writes that commute does not depend on their order. -/
theorem Agree.foldl_of_perm {α : Type*} {f : Dict κ ν → α → Dict κ ν}
    (hcongr : ∀ d e a, Agree d e → Agree (f d a) (f e a)) {l m : List α} (hp : l.Perm m)
    (hcomm : l.Pairwise fun a b => ∀ d, Agree (f (f d a) b) (f (f d b) a)) {d e : Dict κ ν}
    (h : Agree d e) : Agree (l.foldl f d) (m.foldl f e) := by
  induction hp generalizing d e with
  | nil => exact h
  | cons a _ ih => exact ih (List.pairwise_cons.1 hcomm).2 (hcongr _ _ a h)
  | swap a b rest =>
      have hba := (List.pairwise_cons.1 hcomm).1 a List.mem_cons_self
      have hwrites : Agree (f (f d b) a) (f (f e a) b) := fun k =>
        (hba d k).trans (hcongr _ _ b (hcongr _ _ a h) k)
      clear hcomm hba h
      simp only [List.foldl_cons]
      generalize f (f d b) a = d', f (f e a) b = e' at hwrites
      induction rest generalizing d' e' with
      | nil => exact hwrites
      | cons c tail ih => exact ih _ _ (hcongr _ _ c hwrites)
  | trans hlm _ ih₁ ih₂ =>
      have hsymm : ∀ a b, (∀ d, Agree (f (f d a) b) (f (f d b) a)) →
          ∀ d, Agree (f (f d b) a) (f (f d a) b) := fun a b hab d => (hab d).symm
      have hcomm' := (hlm.pairwise_iff fun hab => hsymm _ _ hab).1 hcomm
      exact fun k => (ih₁ hcomm h k).trans (ih₂ hcomm' (Agree.refl e) k)

/-! ## First values -/

theorem foldl_setdefault_get? (key : ν → κ) (items : List ν) (d : Dict κ ν) (k : κ) :
    (items.foldl (fun d v => d.setdefault (key v) v) d).get? k =
      (d.get? k).or (items.find? fun v => key v = k) := by
  induction items generalizing d with
  | nil => simp
  | cons v rest ih =>
      rw [List.foldl_cons, ih, get?_setdefault]
      by_cases hk : k = key v
      · subst hk
        cases hd : d.get? (key v) <;> simp
      · have hk' : key v ≠ k := fun h => hk h.symm
        simp [hk, hk']

/-- When values with the same key are equal, new and old ones, adding values adds exactly those. -/
theorem foldl_setdefault_get?_iff {key : ν → κ} {items : List ν} {d : Dict κ ν}
    (hagree : ∀ v ∈ items, ∀ w ∈ items, key v = key w → v = w)
    (hold : ∀ v ∈ items, ∀ w, d.get? (key v) = some w → w = v) {k : κ} {v : ν} :
    (items.foldl (fun d v => d.setdefault (key v) v) d).get? k = some v ↔
      d.get? k = some v ∨ (v ∈ items ∧ key v = k) := by
  rw [foldl_setdefault_get?]
  cases hd : d.get? k with
  | some w =>
      refine ⟨fun h => Or.inl h, ?_⟩
      rintro (h | ⟨hv, rfl⟩)
      · exact h
      · rw [hold v hv w hd]
        rfl
  | none =>
      simp only [Option.none_or, reduceCtorEq, false_or]
      constructor
      · intro h
        exact ⟨List.mem_of_find?_eq_some h, by simpa using List.find?_some h⟩
      · rintro ⟨hv, rfl⟩
        have hfound : (items.find? fun u => decide (key u = key v)).isSome = true :=
          List.find?_isSome.2 ⟨v, hv, decide_eq_true rfl⟩
        obtain ⟨w, hw⟩ := Option.isSome_iff_exists.1 hfound
        have hkey : key w = key v := by simpa using List.find?_some hw
        rw [hw, hagree w (List.mem_of_find?_eq_some hw) v hv hkey]

/-- `firstWins` maps a key to the first value that has it. -/
theorem get?_firstWins (key : ν → κ) (items : List ν) (k : κ) :
    (firstWins key items).get? k = items.find? fun v => key v = k := by
  rw [firstWins, foldl_setdefault_get?]
  simp

theorem foldl_setdefault_eq_foldl_set (key : ν → κ) (items : List ν) (d : Dict κ ν)
    (hn : (items.map key).Nodup) (hd : ∀ v ∈ items, d.get? (key v) = none) :
    items.foldl (fun d v => d.setdefault (key v) v) d =
      items.foldl (fun d v => d.set (key v) v) d := by
  induction items generalizing d with
  | nil => rfl
  | cons w rest ih =>
      simp only [List.map_cons, List.nodup_cons] at hn
      rw [List.foldl_cons, List.foldl_cons, setdefault_of_get?_none (hd w List.mem_cons_self)]
      refine ih _ hn.2 ?_
      intro v hv
      have hne : key v ≠ key w := fun he => hn.1 (List.mem_map.2 ⟨v, hv, he⟩)
      rw [get?_set_of_ne d w hne]
      exact hd v (List.mem_cons_of_mem _ hv)

/-- With distinct keys the first value of a key is its last one. -/
theorem firstWins_eq_ofValues (key : ν → κ) {items : List ν} (hn : (items.map key).Nodup) :
    firstWins key items = ofValues key items :=
  foldl_setdefault_eq_foldl_set key items empty hn fun _ _ => rfl

theorem repeatsAfter_eq_nil_iff (key : ν → κ) (items : List ν) (seen : List κ) :
    repeatsAfter key seen items = [] ↔
      (items.map key).Nodup ∧ ∀ v ∈ items, key v ∉ seen := by
  induction items generalizing seen with
  | nil => simp [repeatsAfter]
  | cons v rest ih =>
      by_cases hv : key v ∈ seen
      · simp [repeatsAfter, hv]
      · simp only [repeatsAfter, if_neg hv, ih, List.map_cons, List.nodup_cons, List.mem_map,
          List.mem_cons, not_or, not_exists, not_and, forall_eq_or_imp]
        constructor
        · rintro ⟨hn, hall⟩
          exact ⟨⟨fun w hw => (hall w hw).1, hn⟩, hv, fun w hw => (hall w hw).2⟩
        · rintro ⟨⟨hfresh, hn⟩, -, hall⟩
          exact ⟨hn, fun w hw => ⟨hfresh w hw, hall w hw⟩⟩

/-- Nothing repeats exactly when the keys are distinct. -/
theorem repeats_eq_nil_iff (key : ν → κ) (items : List ν) :
    repeats key items = [] ↔ (items.map key).Nodup := by
  simp [repeats, repeatsAfter_eq_nil_iff]

/-! ## Assigning a list of entries -/

/-- `for k, v in items: d[k] = v`, from the empty dictionary. -/
def ofEntries (items : List (κ × ν)) : List (κ × ν) :=
  items.foldl (fun d e => assign e.1 e.2 d) []

@[simp] theorem ofEntries_append_singleton (items : List (κ × ν)) (e : κ × ν) :
    ofEntries (items ++ [e]) = assign e.1 e.2 (ofEntries items) := by
  simp [ofEntries]

/-- The last value assigned to a key is the one it keeps. -/
theorem lookup_ofEntries (k : κ) (items : List (κ × ν)) :
    lookup k (ofEntries items) = lookup k items.reverse := by
  induction items using List.reverseRecOn with
  | nil => rfl
  | append_singleton items e ih =>
      obtain ⟨k', v⟩ := e
      by_cases hk : k' = k
      · subst hk
        simp [lookup, lookup_assign_self]
      · simp [lookup, hk, lookup_assign_of_ne v (Ne.symm hk), ih]

theorem nodup_ofEntries (items : List (κ × ν)) : ((ofEntries items).map Prod.fst).Nodup := by
  induction items using List.reverseRecOn with
  | nil => exact List.nodup_nil
  | append_singleton items e ih =>
      rw [ofEntries_append_singleton]
      exact nodup_assign e.1 e.2 ih

theorem map_fst_assign_congr {ν' : Type v} (k : κ) (v : ν) (v' : ν') {l : List (κ × ν)}
    {m : List (κ × ν')} (h : l.map Prod.fst = m.map Prod.fst) :
    (assign k v l).map Prod.fst = (assign k v' m).map Prod.fst := by
  by_cases hk : k ∈ l.map Prod.fst
  · rw [map_fst_assign_of_mem v hk, map_fst_assign_of_mem v' (h ▸ hk), h]
  · rw [assign_of_not_mem v hk, assign_of_not_mem v' (h ▸ hk)]
    simp [h]

/-- The order of the keys does not depend on the values. -/
theorem map_fst_ofEntries_congr {l m : List (κ × ν)}
    (h : List.Forall₂ (fun e f => e.1 = f.1) l m) :
    (ofEntries l).map Prod.fst = (ofEntries m).map Prod.fst := by
  have hrev : List.Forall₂ (fun e f => e.1 = f.1) l.reverse m.reverse := List.rel_reverse h
  have hall : ∀ {r s : List (κ × ν)}, List.Forall₂ (fun e f => e.1 = f.1) r s →
      (ofEntries r.reverse).map Prod.fst = (ofEntries s.reverse).map Prod.fst := by
    intro r s hrs
    induction hrs with
    | nil => rfl
    | cons hef _ ih =>
        rw [List.reverse_cons, List.reverse_cons, ofEntries_append_singleton,
          ofEntries_append_singleton, hef]
        exact map_fst_assign_congr _ _ _ ih
  simpa using hall hrev

/-- Entries with the same keys in the same order and the same values are the same. -/
theorem eq_of_lookup_eq {l m : List (κ × ν)} (hn : (l.map Prod.fst).Nodup)
    (hkeys : l.map Prod.fst = m.map Prod.fst) (hget : ∀ k, lookup k l = lookup k m) : l = m := by
  induction l generalizing m with
  | nil => exact (List.map_eq_nil_iff.1 hkeys.symm).symm
  | cons e rest ih =>
      cases m with
      | nil => simp at hkeys
      | cons f rest' =>
          obtain ⟨k, v⟩ := e
          obtain ⟨k', v'⟩ := f
          simp only [List.map_cons, List.cons.injEq] at hkeys
          obtain ⟨rfl, hrest⟩ := hkeys
          have hv : v = v' := by simpa [lookup] using hget k
          rw [List.map_cons, List.nodup_cons] at hn
          have htail : rest = rest' := by
            apply ih hn.2 hrest
            intro j
            by_cases hj : k = j
            · have hk : k ∉ rest.map Prod.fst := hn.1
              rw [← hj, lookup_eq_none_iff.2 hk, lookup_eq_none_iff.2 (hrest ▸ hk)]
            · simpa [lookup, hj] using hget j
          rw [hv, htail]

end Dict

end Foundation
