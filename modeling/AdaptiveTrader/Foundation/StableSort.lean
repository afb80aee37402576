import AdaptiveTrader.Foundation.Sorted

/-!
# Stable sorting and fibers

The fiber of a key in a list is the sublist of the elements with that key. A stable sort keeps every
fiber (`filter_sortedBy`), and a list in key order is determined by its fibers
(`eq_of_fibers_of_keyOrdered`). Two lists with the same fibers are therefore sorted into the same
list even when keys repeat (`sortedBy_eq_of_fibers`), and sorting commutes with choosing elements
(`sortedBy_filter`).

Blocks of elements that belong to distinct owners can be permuted without changing the fiber of a
key that names the owner (`filter_flatMap_of_perm`).
-/

set_option autoImplicit false

namespace Foundation

universe u v w

section Sorting

variable {α : Type u} {κ : Type v} [LinearOrder κ] {key : α → κ}

theorem filter_orderedInsert_of_ne {a : α} {k : κ} (hne : key a ≠ k) (l : List α) :
    (l.orderedInsert (fun a b => key a ≤ key b) a).filter (fun b => key b = k) =
      l.filter fun b => key b = k := by
  induction l with
  | nil => simp [hne]
  | cons b rest ih =>
      by_cases hab : key a ≤ key b
      · simp [hab, hne]
      · simp only [List.orderedInsert_cons, hab, if_false, List.filter_cons, ih]

/-- Inserting an element puts it before the elements with its key. -/
theorem filter_orderedInsert_self (a : α) (l : List α) :
    (l.orderedInsert (fun a b => key a ≤ key b) a).filter (fun b => key b = key a) =
      a :: l.filter fun b => key b = key a := by
  induction l with
  | nil => simp
  | cons b rest ih =>
      by_cases hab : key a ≤ key b
      · simp [hab]
      · have hne : key b ≠ key a := fun heq => hab heq.ge
        simp only [List.orderedInsert_cons, hab, if_false, List.filter_cons, hne, decide_false,
          Bool.false_eq_true, ih]

/-- Sorting keeps the order of elements with equal keys. -/
theorem filter_sortedBy (k : κ) (l : List α) :
    (sortedBy key l).filter (fun a => key a = k) = l.filter fun a => key a = k := by
  induction l with
  | nil => rfl
  | cons a rest ih =>
      show ((sortedBy key rest).orderedInsert (fun a b => key a ≤ key b) a).filter _ = _
      by_cases hk : key a = k
      · subst hk
        rw [filter_orderedInsert_self, ih]
        simp
      · rw [filter_orderedInsert_of_ne hk, ih]
        simp [hk]

/-- In a list in key order the first element has the smallest key. -/
theorem key_le_of_keyOrdered {a b : α} {l : List α}
    (h : (a :: l).Pairwise fun a b => key a ≤ key b) (hb : b ∈ a :: l) : key a ≤ key b := by
  rcases List.mem_cons.1 hb with rfl | hrest
  · exact le_rfl
  · exact (List.pairwise_cons.1 h).1 b hrest

theorem eq_of_fibers_of_keyOrdered {l m : List α} (hl : l.Pairwise fun a b => key a ≤ key b)
    (hm : m.Pairwise fun a b => key a ≤ key b)
    (hfibers : ∀ k, l.filter (fun a => key a = k) = m.filter fun a => key a = k) : l = m := by
  have hmem : ∀ a, a ∈ l ↔ a ∈ m := by
    intro a
    have hfiber := congrArg (a ∈ ·) (hfibers (key a))
    simpa using hfiber
  induction l generalizing m with
  | nil =>
      have hempty : ∀ a, a ∉ m := fun a ha => List.not_mem_nil ((hmem a).2 ha)
      exact (List.eq_nil_iff_forall_not_mem.2 hempty).symm
  | cons a rest ih =>
      cases m with
      | nil => exact absurd ((hmem a).1 List.mem_cons_self) List.not_mem_nil
      | cons b tail =>
          -- Both heads have the smallest key, so they start the same fiber.
          have hab : key a = key b := le_antisymm
            (key_le_of_keyOrdered hl ((hmem b).2 List.mem_cons_self))
            (key_le_of_keyOrdered hm ((hmem a).1 List.mem_cons_self))
          have hfirst := hfibers (key a)
          simp only [List.filter_cons, hab, decide_true, if_true] at hfirst
          obtain ⟨rfl, -⟩ := List.cons.inj hfirst
          have htails : ∀ k, rest.filter (fun c => key c = k) = tail.filter fun c => key c = k := by
            intro k
            have hk := hfibers k
            by_cases heq : key a = k
            · simpa [heq] using hk
            · simpa [heq] using hk
          have hrest : ∀ c, c ∈ rest ↔ c ∈ tail := by
            intro c
            have hfiber := congrArg (c ∈ ·) (htails (key c))
            simpa using hfiber
          rw [ih (List.pairwise_cons.1 hl).2 (List.pairwise_cons.1 hm).2 htails hrest]

/-- The result of a stable sort depends on the fibers only. -/
theorem sortedBy_eq_of_fibers {l m : List α}
    (hfibers : ∀ k, l.filter (fun a => key a = k) = m.filter fun a => key a = k) :
    sortedBy key l = sortedBy key m := by
  apply @eq_of_fibers_of_keyOrdered _ _ _ key _ _ (sortedBy_pairwise key l) (sortedBy_pairwise key m)
  intro k
  rw [filter_sortedBy, filter_sortedBy, hfibers k]

/-- The elements kept after sorting are the kept elements, sorted. -/
theorem sortedBy_filter (key : α → κ) (p : α → Bool) (l : List α) :
    sortedBy key (l.filter p) = (sortedBy key l).filter p := by
  refine @eq_of_fibers_of_keyOrdered _ _ _ key _ _ (sortedBy_pairwise key _)
    ((sortedBy_pairwise key l).filter p) ?_
  intro k
  rw [filter_sortedBy, List.filter_comm _ p, List.filter_comm _ p, filter_sortedBy]

/-- Two keys that order the elements alike sort them alike. -/
theorem sortedBy_congr {κ' : Type w} [LinearOrder κ'] {key' : α → κ'} {l : List α}
    (h : ∀ a ∈ l, ∀ b ∈ l, key a ≤ key b ↔ key' a ≤ key' b) : sortedBy key l = sortedBy key' l := by
  have hordered : (sortedBy key' l).Pairwise fun a b => key a ≤ key b := by
    refine (sortedBy_pairwise key' l).imp_of_mem ?_
    intro a b ha hb hab
    exact (h a (mem_sortedBy.1 ha) b (mem_sortedBy.1 hb)).2 hab
  refine @eq_of_fibers_of_keyOrdered _ _ _ key _ _ (sortedBy_pairwise key l) hordered ?_
  intro k
  rw [filter_sortedBy]
  by_cases hk : ∃ a ∈ l, key a = k
  · obtain ⟨a, ha, rfl⟩ := hk
    -- among the elements the two fibers of `a` are one
    have hfiber : ∀ b ∈ l, key b = key a ↔ key' b = key' a := by
      intro b hb
      rw [le_antisymm_iff, h b hb a ha, h a ha b hb, ← le_antisymm_iff]
    have hleft : l.filter (fun b => key b = key a) = l.filter fun b => key' b = key' a :=
      List.filter_congr fun b hb => by simp [hfiber b hb]
    have hright : (sortedBy key' l).filter (fun b => key b = key a) =
        (sortedBy key' l).filter fun b => key' b = key' a :=
      List.filter_congr fun b hb => by simp [hfiber b (mem_sortedBy.1 hb)]
    rw [hleft, hright, filter_sortedBy]
  · have hnone : ∀ m : List α, (∀ b ∈ m, b ∈ l) → m.filter (fun b => key b = k) = [] := by
      intro m hm
      rw [List.filter_eq_nil_iff]
      exact fun b hb hkey => hk ⟨b, hm b hb, of_decide_eq_true hkey⟩
    rw [hnone l fun b hb => hb, hnone _ fun b hb => mem_sortedBy.1 hb]

/-- `sorted(set(l))` depends on the members only. -/
theorem sortedSet_congr {l m : List κ} (h : ∀ a, a ∈ l ↔ a ∈ m) : sortedSet l = sortedSet m := by
  have hperm : l.dedup.Perm m.dedup := by
    rw [List.perm_ext_iff_of_nodup l.nodup_dedup m.nodup_dedup]
    intro a
    rw [List.mem_dedup, List.mem_dedup, h a]
  exact sortedBy_id_eq_iff.2 hperm

end Sorting

/-! ## Fibers of sets and of blocks -/

theorem filter_dedup {α : Type u} [DecidableEq α] (p : α → Bool) (l : List α) :
    l.dedup.filter p = (l.filter p).dedup := by
  induction l with
  | nil => rfl
  | cons a rest ih =>
      by_cases hmem : a ∈ rest
      · by_cases hp : p a = true
        · have hkept : a ∈ rest.filter p := List.mem_filter.2 ⟨hmem, hp⟩
          rw [List.dedup_cons_of_mem hmem, ih, List.filter_cons_of_pos hp,
            List.dedup_cons_of_mem hkept]
        · rw [List.dedup_cons_of_mem hmem, ih, List.filter_cons_of_neg hp]
      · by_cases hp : p a = true
        · have hnew : a ∉ rest.filter p := fun h => hmem (List.mem_filter.1 h).1
          rw [List.dedup_cons_of_notMem hmem, List.filter_cons_of_pos hp,
            List.filter_cons_of_pos hp, List.dedup_cons_of_notMem hnew, ih]
        · rw [List.dedup_cons_of_notMem hmem, List.filter_cons_of_neg hp,
            List.filter_cons_of_neg hp, ih]

variable {α : Type u} {β : Type v} {ι : Type w} [DecidableEq ι]

/-- With distinct owners the elements of one owner do not depend on the order. -/
theorem filter_owner_eq_of_perm {owner : α → ι} {l m : List α} (hp : l.Perm m)
    (hn : (l.map owner).Nodup) (i : ι) :
    l.filter (fun a => owner a = i) = m.filter fun a => owner a = i := by
  have hfiltered := hp.filter fun a => decide (owner a = i)
  have hlength : (l.filter fun a => owner a = i).length ≤ 1 := by
    have howners : (l.filter fun a => owner a = i).map owner =
        List.replicate (l.filter fun a => owner a = i).length i := by
      rw [List.eq_replicate_iff]
      refine ⟨List.length_map _, ?_⟩
      intro j hj
      obtain ⟨a, ha, rfl⟩ := List.mem_map.1 hj
      simpa using (List.mem_filter.1 ha).2
    have hnodup : ((l.filter fun a => owner a = i).map owner).Nodup :=
      hn.sublist (List.filter_sublist.map owner)
    rw [howners] at hnodup
    exact List.nodup_replicate.1 hnodup
  rcases Nat.le_one_iff_eq_zero_or_eq_one.1 hlength with hzero | hone
  · rw [List.length_eq_zero_iff.1 hzero] at hfiltered ⊢
    exact hfiltered.nil_eq
  · obtain ⟨a, ha⟩ := List.length_eq_one_iff.1 hone
    rw [ha] at hfiltered ⊢
    exact List.singleton_perm.1 hfiltered

/-- Blocks of distinct owners can be permuted: a predicate that only elements of one owner satisfy
selects the same list. -/
theorem filter_flatMap_of_perm {owner : α → ι} {l m : List α} (hp : l.Perm m)
    (hn : (l.map owner).Nodup) {block : α → List β} {p : β → Bool} {i : ι}
    (howner : ∀ a, ∀ b ∈ block a, p b = true → owner a = i) :
    (l.flatMap block).filter p = (m.flatMap block).filter p := by
  have hblocks : ∀ n : List α, (n.flatMap block).filter p =
      (n.filter fun a => owner a = i).flatMap fun a => (block a).filter p := by
    intro n
    induction n with
    | nil => rfl
    | cons a rest ih =>
        rw [List.flatMap_cons, List.filter_append, ih]
        by_cases ha : owner a = i
        · rw [List.filter_cons_of_pos (by simpa using ha), List.flatMap_cons]
        · have hnone : (block a).filter p = [] := by
            rw [List.filter_eq_nil_iff]
            exact fun b hb hpb => ha (howner a b hb hpb)
          rw [hnone, List.filter_cons_of_neg (by simpa using ha), List.nil_append]
  rw [hblocks, hblocks, filter_owner_eq_of_perm hp hn]

end Foundation
