import AdaptiveTrader.Foundation.Dict
import Mathlib.Data.List.Sort
import Mathlib.Data.Prod.Lex
import Mathlib.Data.String.Basic
import Mathlib.Tactic

/-!
# Sorting by a key

`sortedBy key l` sorts `l` by `key`, keeping the order of elements with equal keys. It is defined by
insertion, so closed instances evaluate in the kernel. On a list whose keys are distinct the result
does not depend on the order of the input (`sortedBy_eq_of_perm`); a list already in key order is
unchanged (`sortedBy_eq_self`).
-/

set_option autoImplicit false

namespace Foundation

universe u v

variable {α : Type u} {κ : Type v} [LinearOrder κ]

/-- `sorted(l, key=key)`: stable. -/
def sortedBy (key : α → κ) (l : List α) : List α := l.insertionSort fun a b => key a ≤ key b

/-- `sorted(set(l))`. -/
def sortedSet (l : List κ) : List κ := sortedBy id l.dedup

/-- `max(l, key=key)`: the first element with a largest key. -/
def maxBy (key : α → κ) : List α → Option α
  | [] => none
  | a :: rest => some (rest.foldl (fun best b => if key best < key b then b else best) a)

instance keyLE_total (key : α → κ) : Std.Total fun a b : α => key a ≤ key b :=
  ⟨fun a b => le_total (key a) (key b)⟩

instance keyLE_trans (key : α → κ) : IsTrans α fun a b => key a ≤ key b :=
  ⟨fun _ _ _ hab hbc => le_trans hab hbc⟩

theorem sortedBy_perm (key : α → κ) (l : List α) : (sortedBy key l).Perm l :=
  List.perm_insertionSort _ l

@[simp] theorem mem_sortedBy {key : α → κ} {l : List α} {a : α} : a ∈ sortedBy key l ↔ a ∈ l :=
  (sortedBy_perm key l).mem_iff

@[simp] theorem sortedBy_nil (key : α → κ) : sortedBy key [] = [] := rfl

theorem sortedBy_pairwise (key : α → κ) (l : List α) :
    (sortedBy key l).Pairwise fun a b => key a ≤ key b :=
  List.pairwise_insertionSort _ l

/-- A list in key order is already sorted. -/
theorem sortedBy_eq_self {key : α → κ} {l : List α} (h : l.Pairwise fun a b => key a ≤ key b) :
    sortedBy key l = l :=
  List.Pairwise.insertionSort_eq h

theorem sortedBy_sortedBy (key : α → κ) (l : List α) :
    sortedBy key (sortedBy key l) = sortedBy key l :=
  sortedBy_eq_self (sortedBy_pairwise key l)

/-- Lists in key order with the same elements are equal when no two elements share a key. -/
theorem eq_of_perm_of_keyOrdered {key : α → κ} {l m : List α} (hp : l.Perm m)
    (hn : (l.map key).Nodup) (hl : l.Pairwise fun a b => key a ≤ key b)
    (hm : m.Pairwise fun a b => key a ≤ key b) : l = m := by
  refine hp.eq_of_pairwise ?_ hl hm
  intro a b ha hb hab hba
  have hb' : b ∈ l := hp.mem_iff.2 hb
  exact List.inj_on_of_nodup_map hn ha hb' (le_antisymm hab hba)

/-- Sorting forgets the order of its input when no two elements share a key. -/
theorem sortedBy_eq_of_perm {key : α → κ} {l m : List α} (hp : l.Perm m)
    (hn : (l.map key).Nodup) : sortedBy key l = sortedBy key m := by
  refine @eq_of_perm_of_keyOrdered _ _ _ key _ _
    ((sortedBy_perm key l).trans (hp.trans (sortedBy_perm key m).symm)) ?_
    (sortedBy_pairwise key l) (sortedBy_pairwise key m)
  exact ((sortedBy_perm key l).map key).nodup_iff.2 hn

/-- Sorting values by themselves depends on the multiset of values only. -/
theorem sortedBy_id_eq_iff {l m : List κ} : sortedBy id l = sortedBy id m ↔ l.Perm m := by
  constructor
  · intro h
    exact (sortedBy_perm id l).symm.trans (h ▸ sortedBy_perm id m)
  · intro h
    refine ((sortedBy_perm id l).trans (h.trans (sortedBy_perm id m).symm)).eq_of_pairwise ?_
      (sortedBy_pairwise id l) (sortedBy_pairwise id m)
    exact fun a b _ _ hab hba => le_antisymm hab hba

/-- In a sorted list with distinct keys every later key is larger. -/
theorem sortedBy_pairwise_lt {key : α → κ} {l : List α} (hn : (l.map key).Nodup) :
    (sortedBy key l).Pairwise fun a b => key a < key b := by
  have hn' : ((sortedBy key l).map key).Nodup := ((sortedBy_perm key l).map key).nodup_iff.2 hn
  have hne : (sortedBy key l).Pairwise fun a b => key a ≠ key b := List.pairwise_map.1 hn'
  exact ((sortedBy_pairwise key l).and hne).imp fun hab => lt_of_le_of_ne hab.1 hab.2

theorem nodup_sortedSet (l : List κ) : (sortedSet l).Nodup :=
  ((sortedBy_perm id l.dedup).nodup_iff).2 l.nodup_dedup

@[simp] theorem mem_sortedSet {l : List κ} {a : κ} : a ∈ sortedSet l ↔ a ∈ l := by
  simp [sortedSet]

theorem sortedSet_pairwise (l : List κ) : (sortedSet l).Pairwise (· < ·) := by
  have h : (sortedBy id l.dedup).Pairwise fun a b => id a < id b :=
    sortedBy_pairwise_lt (by simpa using l.nodup_dedup)
  simpa [sortedSet] using h

/-- A list equals its own `sorted(set(l))` exactly when it increases strictly. -/
theorem eq_sortedSet_iff {l : List κ} : l = sortedSet l ↔ l.Pairwise (· < ·) := by
  constructor
  · intro h
    rw [h]
    exact sortedSet_pairwise l
  · intro h
    have hn : l.Nodup := h.imp fun hab => ne_of_lt hab
    have hd : l.dedup = l := hn.dedup
    rw [sortedSet, hd]
    exact (@sortedBy_eq_self _ _ _ id _ (h.imp fun hab => le_of_lt hab)).symm

/-- An element with a largest key is sorted to the end. -/
theorem sortedBy_concat {key : α → κ} {l : List α} {x : α} (h : ∀ a ∈ l, key a ≤ key x) :
    sortedBy key (l ++ [x]) = sortedBy key l ++ [x] := by
  have hinsert : ∀ (m : List α) (a : α), key a ≤ key x →
      (m ++ [x]).orderedInsert (fun a b => key a ≤ key b) a =
        m.orderedInsert (fun a b => key a ≤ key b) a ++ [x] := by
    intro m a ha
    induction m with
    | nil => simp [ha]
    | cons b rest ih =>
        by_cases hab : key a ≤ key b
        · simp [hab]
        · simp [hab, ih]
  induction l with
  | nil => rfl
  | cons a rest ih =>
      have hrest : sortedBy key (rest ++ [x]) = sortedBy key rest ++ [x] :=
        ih fun b hb => h b (List.mem_cons_of_mem _ hb)
      show (sortedBy key (rest ++ [x])).orderedInsert _ a =
        (sortedBy key rest).orderedInsert _ a ++ [x]
      rw [hrest, hinsert _ _ (h a List.mem_cons_self)]

/-! ## The latest of a list -/

/-- A member of the list that no member outranks. -/
def IsLatest (rank : α → κ) (l : List α) (a : α) : Prop := a ∈ l ∧ ∀ b ∈ l, rank b ≤ rank a

namespace IsLatest

variable {rank : α → κ} {l m : List α} {a b : α}

/-- The last element in rank order is a latest one. -/
theorem of_getLast?_sortedBy (h : (sortedBy rank l).getLast? = some a) : IsLatest rank l a := by
  obtain ⟨init, hinit⟩ := List.getLast?_eq_some_iff.1 h
  have hpairwise := sortedBy_pairwise rank l
  rw [hinit, List.pairwise_append] at hpairwise
  refine ⟨?_, ?_⟩
  · rw [← @mem_sortedBy _ _ _ rank, hinit]
    exact List.mem_append_right _ (List.mem_singleton_self a)
  · intro b hb
    rw [← @mem_sortedBy _ _ _ rank, hinit] at hb
    rcases List.mem_append.1 hb with hfront | hlast
    · exact hpairwise.2.2 b hfront a (List.mem_singleton_self a)
    · exact (List.mem_singleton.1 hlast) ▸ le_rfl

theorem append_left (ha : IsLatest rank l a) (hb : IsLatest rank m b) (h : ¬ rank a < rank b) :
    IsLatest rank (l ++ m) a := by
  refine ⟨List.mem_append_left _ ha.1, ?_⟩
  intro c hc
  rcases List.mem_append.1 hc with hl | hm
  · exact ha.2 c hl
  · exact (hb.2 c hm).trans (not_lt.1 h)

theorem append_right (ha : IsLatest rank l a) (hb : IsLatest rank m b) (h : rank a < rank b) :
    IsLatest rank (l ++ m) b := by
  refine ⟨List.mem_append_right _ hb.1, ?_⟩
  intro c hc
  rcases List.mem_append.1 hc with hl | hm
  · exact (ha.2 c hl).trans h.le
  · exact hb.2 c hm

/-- Two latest members have one rank. -/
theorem rank_eq (ha : IsLatest rank l a) (hb : IsLatest rank l b) : rank a = rank b :=
  le_antisymm (hb.2 a ha.1) (ha.2 b hb.1)

end IsLatest

/-! ## Windows of an ordered list -/

section Window

variable {l : List α} {q : α → Prop} [DecidablePred q]

omit [DecidablePred q] in
/-- Where the members with `q` come first, any window has one of them. -/
theorem exists_mem_take_iff_of_first (h : l.Pairwise fun a b => q b → q a) {n : Nat} (hn : 0 < n) :
    (∃ a ∈ l.take n, q a) ↔ ∃ a ∈ l, q a := by
  constructor
  · rintro ⟨a, ha, hq⟩
    exact ⟨a, List.mem_of_mem_take ha, hq⟩
  · rintro ⟨b, hb, hq⟩
    cases l with
    | nil => cases hb
    | cons a rest =>
        obtain ⟨k, rfl⟩ : ∃ k, n = k + 1 := ⟨n - 1, by omega⟩
        refine ⟨a, List.mem_cons_self, ?_⟩
        rcases List.mem_cons.1 hb with rfl | hrest
        · exact hq
        · exact (List.pairwise_cons.1 h).1 b hrest hq

/-- Where they come last, a window has one exactly when the others do not fill it. -/
theorem exists_mem_take_iff_of_last (h : l.Pairwise fun a b => q a → q b) {n : Nat} :
    (∃ a ∈ l.take n, q a) ↔ (∃ a ∈ l, q a) ∧ l.countP (fun a => ¬ q a) < n := by
  induction l generalizing n with
  | nil => simp
  | cons a rest ih =>
      obtain ⟨hhead, htail⟩ := List.pairwise_cons.1 h
      cases n with
      | zero => simp
      | succ n =>
          rw [List.take_succ_cons]
          by_cases hq : q a
          · have hnone : (a :: rest).countP (fun a => ¬ q a) = 0 := by
              rw [List.countP_eq_zero]
              intro b hb
              rcases List.mem_cons.1 hb with rfl | hrest
              · simpa using hq
              · simpa using hhead b hrest hq
            rw [hnone]
            exact ⟨fun _ => ⟨⟨a, List.mem_cons_self, hq⟩, n.succ_pos⟩,
              fun _ => ⟨a, List.mem_cons_self, hq⟩⟩
          · have hcount : (a :: rest).countP (fun a => ¬ q a) =
                rest.countP (fun a => ¬ q a) + 1 := by
              simp [hq]
            have hcons : ∀ m : List α, (∃ b ∈ a :: m, q b) ↔ ∃ b ∈ m, q b := by
              intro m
              simp [hq]
            rw [hcount, hcons, hcons, ih htail, Nat.succ_lt_succ_iff]

end Window

/-! ## Dictionaries in key order -/

namespace Dict

variable {ν : Type u}

/-- `d[key] for key in sorted(d)`. -/
def valuesByKey (d : Dict κ ν) : List ν := (sortedBy Prod.fst d.entries).map Prod.snd

theorem valuesByKey_perm (d : Dict κ ν) : d.valuesByKey.Perm d.values :=
  (sortedBy_perm Prod.fst d.entries).map Prod.snd

theorem mem_valuesByKey {d : Dict κ ν} {v : ν} : v ∈ d.valuesByKey ↔ ∃ k, d.get? k = some v := by
  rw [(valuesByKey_perm d).mem_iff, mem_values_iff]

/-- The values in key order depend on the contents only. -/
theorem Agree.valuesByKey_eq {d e : Dict κ ν} (h : Agree d e) :
    d.valuesByKey = e.valuesByKey := by
  rw [valuesByKey, valuesByKey, sortedBy_eq_of_perm h.entries_perm d.nodupKeys]

end Dict

end Foundation
