import AdaptiveTrader.Foundation.Sorted
import Mathlib.Tactic

/-!
# Hash chains

A log holds the entries of several streams. Each entry has a number in its stream and refers to the
entry before it by a hash; the first one refers to a genesis value. `Linked` says that the entries
of one stream continue each other, and `Verified` that this holds of every stream of a log in key
order.

The head of a chain commits to the whole chain: when equal hashes have equal contents, two linked
streams with the same head agree (`Linked.map_eq`), and two verified logs whose streams have the
same heads agree (`Verified.map_eq`). A table whose streams are linked is a verified log once it is
sorted (`verified_sortedBy`).
-/

set_option autoImplicit false

namespace Foundation

universe u v w x

/-- How the entries of a log refer to one another. -/
structure Chaining (α : Type u) (σ : Type v) (η : Type w) where
  stream : α → σ
  number : α → Nat
  previous : α → η
  hash : α → η
  genesis : η

namespace Chaining

variable {α : Type u} {σ : Type v} {η : Type w} (c : Chaining α σ η)

/-! ## One stream -/

/-- The number and the hash of the last entry; an empty stream stands at its genesis. -/
def head (l : List α) : Nat × η :=
  match l.getLast? with
  | none => (0, c.genesis)
  | some a => (c.number a, c.hash a)

/-- Every entry continues the ones before it. -/
inductive Linked : List α → Prop
  | nil : Linked []
  | snoc {l : List α} {a : α} : Linked l → c.number a = (c.head l).1 + 1 →
      c.previous a = (c.head l).2 → Linked (l ++ [a])

variable {c} {l m : List α} {a : α}

@[simp] theorem head_nil : c.head [] = (0, c.genesis) := rfl

@[simp] theorem head_concat : c.head (l ++ [a]) = (c.number a, c.hash a) := by
  simp [head]

theorem linked_concat_iff : c.Linked (l ++ [a]) ↔
    c.Linked l ∧ c.number a = (c.head l).1 + 1 ∧ c.previous a = (c.head l).2 := by
  constructor
  · intro h
    generalize hm : l ++ [a] = m at h
    cases h with
    | nil => simp at hm
    | snoc hl hnumber hprevious =>
        obtain ⟨rfl, hlast⟩ := List.append_inj' hm rfl
        cases List.singleton_inj.1 hlast
        exact ⟨hl, hnumber, hprevious⟩
  · rintro ⟨hl, hnumber, hprevious⟩
    exact Linked.snoc hl hnumber hprevious

namespace Linked

/-- The entries of a linked stream are numbered from one. -/
theorem head_fst (h : c.Linked l) : (c.head l).1 = l.length := by
  induction h with
  | nil => rfl
  | snoc _ hnumber _ ih => rw [head_concat, hnumber, ih, List.length_append, List.length_singleton]

theorem number_le (h : c.Linked l) : ∀ a ∈ l, c.number a ≤ l.length := by
  induction h with
  | nil => intro a ha; cases ha
  | snoc hl hnumber _ ih =>
      intro b hb
      rw [List.length_append, List.length_singleton]
      rcases List.mem_append.1 hb with hb | hb
      · exact (ih b hb).trans (Nat.le_succ _)
      · cases List.mem_singleton.1 hb
        rw [hnumber, hl.head_fst]

/-- Numbers increase along a linked stream. -/
theorem pairwise (h : c.Linked l) : l.Pairwise fun a b => c.number a < c.number b := by
  induction h with
  | nil => exact List.Pairwise.nil
  | snoc hl hnumber _ ih =>
      refine List.pairwise_append.2 ⟨ih, List.pairwise_singleton _ _, ?_⟩
      intro b hb d hd
      cases List.mem_singleton.1 hd
      rw [hnumber, hl.head_fst]
      exact Nat.lt_succ_of_le (hl.number_le b hb)

/-- The head of a chain commits to its contents. The induction runs from the last entry backwards:
equal hashes give equal contents, and these name the hash of the entry before. -/
theorem map_eq {β : Type x} {f : α → β} (hl : c.Linked l) (hm : c.Linked m)
    (hf : ∀ a ∈ l, ∀ b ∈ m, c.hash a = c.hash b → f a = f b ∧ c.previous a = c.previous b)
    (h : c.head l = c.head m) : l.map f = m.map f := by
  induction hl generalizing m with
  | nil =>
      have hlength : m.length = 0 := by rw [← hm.head_fst, ← h, head_nil]
      rw [List.length_eq_zero_iff.1 hlength]
  | @snoc l a hl hnumber hprevious ih =>
      cases hm with
      | nil =>
          have hzero : c.number a = 0 := by simpa using congrArg Prod.fst h
          omega
      | @snoc m b hm hnumber' hprevious' =>
          rw [head_concat, head_concat] at h
          have hnumbers : c.number a = c.number b := congrArg Prod.fst h
          obtain ⟨hcontent, hlink⟩ :=
            hf a (List.mem_append_right _ (List.mem_singleton_self a)) b
              (List.mem_append_right _ (List.mem_singleton_self b)) (congrArg Prod.snd h)
          have hheads : c.head l = c.head m := by
            apply Prod.ext
            · omega
            · rw [← hprevious, ← hprevious', hlink]
          have hfront := ih hm (fun a ha b hb => hf a (List.mem_append_left _ ha) b
            (List.mem_append_left _ hb)) hheads
          rw [List.map_append, List.map_append, hfront, List.map_singleton, List.map_singleton,
            hcontent]

end Linked

/-! ## Logs of several streams -/

section Streams

variable [DecidableEq σ]

variable (c) in
/-- The entries of one stream, in the order of the log. -/
def entriesOf (s : σ) (l : List α) : List α := l.filter fun a => c.stream a = s

theorem mem_entriesOf {s : σ} : a ∈ c.entriesOf s l ↔ a ∈ l ∧ c.stream a = s := by
  simp [entriesOf]

theorem entriesOf_concat_self : c.entriesOf (c.stream a) (l ++ [a]) =
    c.entriesOf (c.stream a) l ++ [a] := by
  simp [entriesOf]

theorem entriesOf_concat_of_ne {s : σ} (h : c.stream a ≠ s) :
    c.entriesOf s (l ++ [a]) = c.entriesOf s l := by
  simp [entriesOf, h]

variable (c) in
/-- Every stream of the log is linked. -/
def StreamsLinked (l : List α) : Prop := ∀ s, c.Linked (c.entriesOf s l)

theorem streamsLinked_nil : c.StreamsLinked [] := fun _ => Linked.nil

theorem streamsLinked_concat_iff : c.StreamsLinked (l ++ [a]) ↔ c.StreamsLinked l ∧
    c.number a = (c.head (c.entriesOf (c.stream a) l)).1 + 1 ∧
    c.previous a = (c.head (c.entriesOf (c.stream a) l)).2 := by
  constructor
  · intro h
    have hown := h (c.stream a)
    rw [entriesOf_concat_self, linked_concat_iff] at hown
    refine ⟨fun s => ?_, hown.2⟩
    by_cases hs : c.stream a = s
    · exact hs ▸ hown.1
    · have hother := h s
      rwa [entriesOf_concat_of_ne hs] at hother
  · rintro ⟨hl, hnumber, hprevious⟩ s
    by_cases hs : c.stream a = s
    · subst hs
      rw [entriesOf_concat_self]
      exact Linked.snoc (hl _) hnumber hprevious
    · rw [entriesOf_concat_of_ne hs]
      exact hl s

/-- Two entries of one stream stand in the order of their numbers. -/
theorem StreamsLinked.pairwise (h : c.StreamsLinked l) :
    l.Pairwise fun a b => c.stream a = c.stream b → c.number a < c.number b := by
  rw [List.pairwise_iff_forall_sublist]
  intro a b hab hstream
  have hfiltered := hab.filter fun x => decide (c.stream x = c.stream b)
  have hpair : [a, b].Sublist (c.entriesOf (c.stream b) l) := by
    simpa [entriesOf, hstream] using hfiltered
  exact List.pairwise_iff_forall_sublist.1 (h (c.stream b)).pairwise hpair

variable [LinearOrder σ]

variable (c) in
/-- The order of a complete log: by stream, then by number. -/
def key (a : α) : σ ×ₗ Nat := toLex (c.stream a, c.number a)

variable (c) in
/-- A log in key order whose streams are linked. -/
structure Verified (l : List α) : Prop where
  ordered : l.Pairwise fun a b => c.key a < c.key b
  linked : c.StreamsLinked l

theorem verified_nil : c.Verified [] := ⟨List.Pairwise.nil, streamsLinked_nil⟩

theorem verified_concat_iff : c.Verified (l ++ [a]) ↔ c.Verified l ∧
    (∀ b ∈ l, c.key b < c.key a) ∧
    c.number a = (c.head (c.entriesOf (c.stream a) l)).1 + 1 ∧
    c.previous a = (c.head (c.entriesOf (c.stream a) l)).2 := by
  constructor
  · rintro ⟨hordered, hlinked⟩
    obtain ⟨hl, hlink⟩ := streamsLinked_concat_iff.1 hlinked
    obtain ⟨hfront, -, hlast⟩ := List.pairwise_append.1 hordered
    exact ⟨⟨hfront, hl⟩, fun b hb => hlast b hb a (List.mem_singleton_self a), hlink⟩
  · rintro ⟨hl, hlast, hlink⟩
    refine ⟨List.pairwise_append.2 ⟨hl.ordered, List.pairwise_singleton _ _, ?_⟩,
      streamsLinked_concat_iff.2 ⟨hl.linked, hlink⟩⟩
    intro b hb d hd
    cases List.mem_singleton.1 hd
    exact hlast b hb

/-- The front of a verified log is verified. -/
theorem Verified.of_append (h : c.Verified (l ++ m)) : c.Verified l := by
  induction m using List.reverseRecOn with
  | nil => rwa [List.append_nil] at h
  | append_singleton rest a ih =>
      rw [← List.append_assoc, verified_concat_iff] at h
      exact ih h.1

/-- The heads of the streams commit to a complete log. -/
theorem Verified.map_eq {β : Type x} {f : α → β} (keyOf : β → σ ×ₗ Nat)
    (hkey : ∀ a, keyOf (f a) = c.key a) (hl : c.Verified l) (hm : c.Verified m)
    (hf : ∀ a ∈ l, ∀ b ∈ m, c.hash a = c.hash b → f a = f b ∧ c.previous a = c.previous b)
    (h : ∀ s, c.head (c.entriesOf s l) = c.head (c.entriesOf s m)) : l.map f = m.map f := by
  have hstreams : ∀ s, (c.entriesOf s l).map f = (c.entriesOf s m).map f := by
    intro s
    apply (hl.linked s).map_eq (hm.linked s) _ (h s)
    intro a ha b hb
    exact hf a (mem_entriesOf.1 ha).1 b (mem_entriesOf.1 hb).1
  have hordered : ∀ {k : List α}, c.Verified k →
      (k.map f).Pairwise fun x y => keyOf x < keyOf y := by
    intro k hk
    rw [List.pairwise_map]
    simpa only [hkey] using hk.ordered
  have hkeys : ∀ {k : List α}, c.Verified k → ((k.map f).map keyOf).Nodup := by
    intro k hk
    exact List.pairwise_map.2 ((hordered hk).imp fun hxy => ne_of_lt hxy)
  have hincluded : ∀ {k k' : List α},
      (∀ s, (c.entriesOf s k).map f = (c.entriesOf s k').map f) →
        ∀ x ∈ k.map f, x ∈ k'.map f := by
    intro k k' hkk x hx
    obtain ⟨a, ha, rfl⟩ := List.mem_map.1 hx
    have hmem : f a ∈ (c.entriesOf (c.stream a) k).map f :=
      List.mem_map_of_mem (mem_entriesOf.2 ⟨ha, rfl⟩)
    rw [hkk] at hmem
    obtain ⟨b, hb, hfb⟩ := List.mem_map.1 hmem
    exact hfb ▸ List.mem_map_of_mem (mem_entriesOf.1 hb).1
  have hperm : (l.map f).Perm (m.map f) := by
    rw [List.perm_ext_iff_of_nodup (List.Nodup.of_map _ (hkeys hl)) (List.Nodup.of_map _ (hkeys hm))]
    exact fun x => ⟨hincluded hstreams x, hincluded (fun s => (hstreams s).symm) x⟩
  exact eq_of_perm_of_keyOrdered hperm (hkeys hl) ((hordered hl).imp le_of_lt)
    ((hordered hm).imp le_of_lt)

namespace StreamsLinked

omit [LinearOrder σ] in
theorem nodup_keys (h : c.StreamsLinked l) : (l.map c.key).Nodup := by
  refine List.pairwise_map.2 (h.pairwise.imp ?_)
  intro a b hab hkey
  have hpair : (c.stream a, c.number a) = (c.stream b, c.number b) := toLex.injective hkey
  exact (hab (congrArg Prod.fst hpair)).ne (congrArg Prod.snd hpair)

omit [LinearOrder σ] in
theorem entriesOf (h : c.StreamsLinked l) (t : σ) : c.StreamsLinked (c.entriesOf t l) := by
  intro s
  by_cases hs : t = s
  · subst hs
    have hself : c.entriesOf t (c.entriesOf t l) = c.entriesOf t l := by
      simp [Chaining.entriesOf, List.filter_filter]
    exact hself.symm ▸ h t
  · have hnil : c.entriesOf s (c.entriesOf t l) = [] := by
      simp only [Chaining.entriesOf, List.filter_eq_nil_iff, List.mem_filter, decide_eq_true_eq]
      rintro a ⟨-, rfl⟩
      exact hs
    exact hnil.symm ▸ Linked.nil

/-- The entries of one stream are a verified log. -/
theorem verified_entriesOf (h : c.StreamsLinked l) (s : σ) : c.Verified (c.entriesOf s l) where
  ordered := by
    refine (h s).pairwise.imp_of_mem ?_
    intro a b ha hb hab
    have hstream : c.stream a = c.stream b :=
      (mem_entriesOf.1 ha).2.trans (mem_entriesOf.1 hb).2.symm
    exact (Prod.Lex.lt_iff (x := c.key a) (y := c.key b)).2 (Or.inr ⟨hstream, hab⟩)
  linked := h.entriesOf s

/-- Sorting by key keeps the entries of each stream in order. -/
theorem entriesOf_sortedBy (h : c.StreamsLinked l) (s : σ) :
    c.entriesOf s (sortedBy c.key l) = c.entriesOf s l := by
  apply @eq_of_perm_of_keyOrdered _ _ _ c.key
  · exact (sortedBy_perm c.key l).filter _
  · have hn : ((sortedBy c.key l).map c.key).Nodup :=
      ((sortedBy_perm c.key l).map c.key).nodup_iff.2 h.nodup_keys
    exact hn.sublist (List.filter_sublist.map _)
  · exact (sortedBy_pairwise c.key l).sublist List.filter_sublist
  · exact (h.verified_entriesOf s).ordered.imp le_of_lt

/-- A table whose streams are linked is a verified log once it is sorted. -/
theorem verified_sortedBy (h : c.StreamsLinked l) : c.Verified (sortedBy c.key l) where
  ordered := sortedBy_pairwise_lt h.nodup_keys
  linked s := (h.entriesOf_sortedBy s).symm ▸ h s

end StreamsLinked

end Streams

end Chaining

end Foundation
