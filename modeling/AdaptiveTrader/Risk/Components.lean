import AdaptiveTrader.Foundation.ParentForest
import AdaptiveTrader.Risk.Policy
import Mathlib.Combinatorics.SimpleGraph.Connectivity.Connected

/-!
# Correlation components are connected components

`correlation_components` unites the symbols of every pair whose absolute correlation exceeds the
threshold and groups the symbols by root. The parents it keeps always form a forest in which a parent
precedes its children (`Forest`), and the classes of this forest are those the united pairs generate.
The groups are therefore the connected components of the graph of these pairs
(`correlation_components_connected`), whatever the order of the pairs.

The source searches a root with a loop. `Finds`, `UnitesAll` and `GroupsAll` are its loops as
derivations, without a bound on their length: a derivation is finite, so that its existence says that
the loops end.
-/

set_option autoImplicit false

namespace AdaptiveTrader

open Foundation Foundation.ParentForest

/-! ## The forest of parents -/

/-- A parent precedes its children. -/
def Forest (symbols : List String) (parent : Dict String String) : Prop :=
  ∀ x, parentOf parent x = x ∨
    (x ∈ symbols ∧ parentOf parent x ∈ symbols ∧ parentOf parent x < x)

/-- How many symbols precede `x`. -/
def symbolRank (symbols : List String) (x : String) : Nat := symbols.countP (· < x)

variable {symbols : List String} {parent : Dict String String} {x y r : String}

theorem symbolRank_lt (hx : x ∈ symbols) (hlt : x < y) :
    symbolRank symbols x < symbolRank symbols y :=
  countP_lt_countP hx hlt

theorem parentOf_set (parent : Dict String String) (x y : String) :
    parentOf (parent.set x y) = Function.update (parentOf parent) x y := by
  funext z
  by_cases hz : z = x
  · subst hz
    simp [parentOf]
  · simp [parentOf, hz, Dict.get?_set_of_ne]

theorem Forest.rank_parent (h : Forest symbols parent) (hx : parentOf parent x ≠ x) :
    symbolRank symbols (parentOf parent x) < symbolRank symbols x := by
  rcases h x with hown | ⟨-, hparent, hlt⟩
  · exact absurd hown hx
  · exact symbolRank_lt hparent hlt

theorem Forest.rooted (h : Forest symbols parent) : Rooted (parentOf parent) :=
  rooted_of_rank (symbolRank symbols) fun _ hx => h.rank_parent hx

/-- The root of a symbol is a symbol. -/
theorem Forest.root_mem (h : Forest symbols parent) (hroot : Root (parentOf parent) x r)
    (hx : x ∈ symbols) : r ∈ symbols := by
  induction hroot with
  | own _ => exact hx
  | @up x r hne _ ih =>
      rcases h x with hown | ⟨-, hparent, -⟩
      · exact absurd hown hne
      · exact ih hparent

theorem Forest.grandparent (h : Forest symbols parent) (hx : parentOf parent x ≠ x) :
    x ∈ symbols ∧ parentOf parent (parentOf parent x) ∈ symbols ∧
      parentOf parent (parentOf parent x) < x := by
  rcases h x with hown | ⟨hmem, hparent, hlt⟩
  · exact absurd hown hx
  · rcases h (parentOf parent x) with hroot | ⟨-, hgrand, hgrandlt⟩
    · rw [hroot]
      exact ⟨hmem, hparent, hlt⟩
    · exact ⟨hmem, hgrand, lt_trans hgrandlt hlt⟩

theorem Forest.set (h : Forest symbols parent) (hx : x ∈ symbols) (hy : y ∈ symbols)
    (hlt : y < x) : Forest symbols (parent.set x y) := by
  intro z
  rw [parentOf_set]
  by_cases hz : z = x
  · subst hz
    rw [Function.update_self]
    exact Or.inr ⟨hx, hy, hlt⟩
  · simpa [hz] using h z

/-! ## The loops as derivations -/

/-- The loop of `find`. -/
inductive Finds : Dict String String → String → String × Dict String String → Prop
  | root {parent : Dict String String} {symbol : String} (h : parentOf parent symbol = symbol) :
      Finds parent symbol (symbol, parent)
  | climb {parent : Dict String String} {symbol : String} {found : String × Dict String String}
      (h : parentOf parent symbol ≠ symbol)
      (hnext : Finds (parent.set symbol (parentOf parent (parentOf parent symbol)))
        (parentOf parent (parentOf parent symbol)) found) :
      Finds parent symbol found

/-- The end of `union`. -/
def linkRoots (left : String) (right : String × Dict String String) : Dict String String :=
  if left = right.1 then right.2 else right.2.set (max left right.1) (min left right.1)

/-- `union` of one pair after another. -/
inductive UnitesAll : Dict String String → List (String × String) → Dict String String → Prop
  | nil {parent : Dict String String} : UnitesAll parent [] parent
  | cons {parent united : Dict String String} {pair : String × String}
      {rest : List (String × String)} {left right : String × Dict String String}
      (hleft : Finds parent pair.1 left) (hright : Finds left.2 pair.2 right)
      (hrest : UnitesAll (linkRoots left.1 right) rest united) :
      UnitesAll parent (pair :: rest) united

/-- The loop that groups the symbols by root. -/
inductive GroupsAll : List String → Dict String String → Dict String (List String) →
    Dict String (List String) → Prop
  | nil {parent : Dict String String} {groups : Dict String (List String)} :
      GroupsAll [] parent groups groups
  | cons {symbol : String} {rest : List String} {parent : Dict String String}
      {groups result : Dict String (List String)} {found : String × Dict String String}
      (hfound : Finds parent symbol found)
      (hrest : GroupsAll rest found.2
        (groups.set found.1 ((groups.get? found.1).getD [] ++ [symbol])) result) :
      GroupsAll (symbol :: rest) parent groups result

/-- The loops end with these components when the pairs are united in the given order. -/
def ComputesComponents (symbols : List String) (pairs : List (String × String))
    (components : List (List String)) : Prop :=
  ∃ parent groups, UnitesAll (ownParents symbols) pairs parent ∧
    GroupsAll symbols parent .empty groups ∧ components = sortedBy componentHead groups.values

/-! ## Find -/

theorem symbolRank_le (symbols : List String) (x : String) :
    symbolRank symbols x ≤ symbols.length := List.countP_le_length

/-- As many rounds as symbols precede the symbol end the loop. -/
theorem findRoot_finds {rounds : Nat} (h : Forest symbols parent)
    (hrounds : symbolRank symbols x ≤ rounds) : Finds parent x (findRoot rounds parent x) := by
  induction rounds generalizing parent x with
  | zero =>
      apply Finds.root
      by_contra hx
      have := h.rank_parent hx
      omega
  | succ rounds ih =>
      unfold findRoot
      split
      · next hx => exact Finds.root hx
      · next hx =>
          obtain ⟨hmem, hgrand, hlt⟩ := h.grandparent hx
          apply Finds.climb hx
          apply ih (h.set hmem hgrand hlt)
          have := symbolRank_lt hgrand hlt
          omega

/-- What a search leaves behind: a forest with the same roots. -/
structure SameForest (symbols : List String) (parent parent' : Dict String String) : Prop where
  forest : Forest symbols parent'
  roots : ∀ y r, Root (parentOf parent) y r ↔ Root (parentOf parent') y r

theorem Finds.spec {found : String × Dict String String} (h : Finds parent x found)
    (hforest : Forest symbols parent) :
    Root (parentOf parent) x found.1 ∧ SameForest symbols parent found.2 := by
  induction h with
  | root h => exact ⟨Root.own h, hforest, fun _ _ => Iff.rfl⟩
  | @climb parent symbol found h hnext ih =>
      obtain ⟨hmem, hgrand, hlt⟩ := hforest.grandparent h
      obtain ⟨hroot, hsame⟩ := ih (hforest.set hmem hgrand hlt)
      have hkept : ∀ y r, Root (parentOf parent) y r ↔
          Root (parentOf (parent.set symbol (parentOf parent (parentOf parent symbol)))) y r := by
        intro y r
        rw [parentOf_set, root_compress_iff hforest.rooted]
      refine ⟨?_, hsame.forest, fun y r => (hkept y r).trans (hsame.roots y r)⟩
      rw [← hkept] at hroot
      rw [Root.up_iff h]
      by_cases hparent : parentOf parent (parentOf parent symbol) = parentOf parent symbol
      · rwa [hparent] at hroot
      · exact Root.up hparent hroot

/-! ## Union -/

theorem mem_of_mem_cons {pair : String × String} {rest : List (String × String)}
    (h : ∀ p ∈ pair :: rest, p.1 ∈ symbols ∧ p.2 ∈ symbols) :
    (pair.1 ∈ symbols ∧ pair.2 ∈ symbols) ∧ ∀ p ∈ rest, p.1 ∈ symbols ∧ p.2 ∈ symbols :=
  ⟨h pair List.mem_cons_self, fun p hp => h p (List.mem_cons_of_mem _ hp)⟩

/-- Uniting a pair keeps the forest and adds the pair to those that generate its classes. -/
theorem linkRoots_spec {E : String → String → Prop} {pair : String × String}
    {left right : String × Dict String String} (hforest : Forest symbols parent)
    (hE : Generates E (parentOf parent)) (hleft : Finds parent pair.1 left)
    (hright : Finds left.2 pair.2 right) (hmem : pair.1 ∈ symbols ∧ pair.2 ∈ symbols) :
    Forest symbols (linkRoots left.1 right) ∧
      Generates (WithPair E pair.1 pair.2) (parentOf (linkRoots left.1 right)) := by
  obtain ⟨hroot₁, hsame₁⟩ := hleft.spec hforest
  obtain ⟨hroot₂, hsame₂⟩ := hright.spec hsame₁.forest
  have hu : Root (parentOf right.2) pair.1 left.1 :=
    (hsame₂.roots _ _).1 ((hsame₁.roots _ _).1 hroot₁)
  have hv : Root (parentOf right.2) pair.2 right.1 := (hsame₂.roots _ _).1 hroot₂
  have hgenerates : Generates E (parentOf right.2) :=
    (hE.of_roots hsame₁.roots).of_roots hsame₂.roots
  unfold linkRoots
  split
  · next heq =>
      rw [heq] at hu
      exact ⟨hsame₂.forest, hgenerates.idle hu hv⟩
  · next hne =>
      have hl := hsame₂.forest.root_mem hu hmem.1
      have hr := hsame₂.forest.root_mem hv hmem.2
      rw [parentOf_set]
      rcases lt_or_gt_of_ne hne with hlt | hlt
      · rw [max_eq_right hlt.le, min_eq_left hlt.le]
        exact ⟨hsame₂.forest.set hr hl hlt, hgenerates.link hlt.ne' (Or.inr ⟨hu, hv⟩)⟩
      · rw [max_eq_left hlt.le, min_eq_right hlt.le]
        exact ⟨hsame₂.forest.set hl hr hlt, hgenerates.link hlt.ne' (Or.inl ⟨hu, hv⟩)⟩

theorem generates_congr {E F : String → String → Prop} {p : String → String}
    (h : ∀ x y, E x y ↔ F x y) (hE : Generates E p) : Generates F p := by
  have heq : E = F := by
    funext x y
    exact propext (h x y)
  exact heq ▸ hE

theorem UnitesAll.spec {E : String → String → Prop} {pairs : List (String × String)}
    {united : Dict String String} (h : UnitesAll parent pairs united)
    (hforest : Forest symbols parent) (hE : Generates E (parentOf parent))
    (hmem : ∀ p ∈ pairs, p.1 ∈ symbols ∧ p.2 ∈ symbols) :
    Forest symbols united ∧
      Generates (fun x y => E x y ∨ (x, y) ∈ pairs) (parentOf united) := by
  induction h generalizing E with
  | nil => exact ⟨hforest, by simpa using hE⟩
  | @cons parent united pair rest left right hleft hright _ ih =>
      obtain ⟨hpair, hrest⟩ := mem_of_mem_cons hmem
      obtain ⟨hlinked, hgenerates⟩ := linkRoots_spec hforest hE hleft hright hpair
      obtain ⟨hunited, hall⟩ := ih hlinked hgenerates hrest
      refine ⟨hunited, generates_congr ?_ hall⟩
      intro x y
      simp only [WithPair, List.mem_cons, Prod.ext_iff]
      tauto

/-- The bounded searches of `unite` are the loops of the source. -/
theorem unitesAll_foldl {E : String → String → Prop} {rounds : Nat}
    {pairs : List (String × String)} (hrounds : symbols.length ≤ rounds)
    (hforest : Forest symbols parent) (hE : Generates E (parentOf parent))
    (hmem : ∀ p ∈ pairs, p.1 ∈ symbols ∧ p.2 ∈ symbols) :
    UnitesAll parent pairs (pairs.foldl (unite rounds) parent) := by
  induction pairs generalizing parent E with
  | nil => exact UnitesAll.nil
  | cons pair rest ih =>
      obtain ⟨hpair, hrest⟩ := mem_of_mem_cons hmem
      have hleft : Finds parent pair.1 (findRoot rounds parent pair.1) :=
        findRoot_finds hforest ((symbolRank_le _ _).trans hrounds)
      have hright := @findRoot_finds symbols _ pair.2 rounds (hleft.spec hforest).2.forest
        ((symbolRank_le _ _).trans hrounds)
      obtain ⟨hlinked, hgenerates⟩ := linkRoots_spec hforest hE hleft hright hpair
      exact UnitesAll.cons hleft hright (ih hlinked hgenerates hrest)

/-! ## Groups -/

/-- The group of a root holds the symbols that have it. -/
def GroupedByRoot (p : String → String) (done : List String) (groups : Dict String (List String)) :
    Prop :=
  ∀ r x, x ∈ (groups.get? r).getD [] ↔ x ∈ done ∧ Root p x r

theorem GroupedByRoot.add {p : String → String} {done : List String}
    {groups : Dict String (List String)} (h : GroupedByRoot p done groups) {symbol root : String}
    (hroot : Root p symbol root) :
    GroupedByRoot p (done ++ [symbol])
      (groups.set root ((groups.get? root).getD [] ++ [symbol])) := by
  intro r x
  rw [Dict.get?_set]
  by_cases hr : r = root
  · subst hr
    rw [if_pos rfl, Option.getD_some, List.mem_append, List.mem_append, List.mem_singleton, h]
    constructor
    · rintro (⟨hx, hxr⟩ | rfl)
      · exact ⟨Or.inl hx, hxr⟩
      · exact ⟨Or.inr rfl, hroot⟩
    · rintro ⟨hx | rfl, hxr⟩
      · exact Or.inl ⟨hx, hxr⟩
      · exact Or.inr rfl
  · rw [if_neg hr, h, List.mem_append, List.mem_singleton]
    constructor
    · rintro ⟨hx, hxr⟩
      exact ⟨Or.inl hx, hxr⟩
    · rintro ⟨hx | rfl, hxr⟩
      · exact ⟨hx, hxr⟩
      · exact absurd (hxr.unique hroot) hr

/-- The loop groups the symbols as if every search started from the same parents. -/
theorem GroupsAll.spec {p : String → String} {rest done : List String}
    {groups result : Dict String (List String)} (h : GroupsAll rest parent groups result)
    (hforest : Forest symbols parent) (hroots : ∀ x r, Root p x r ↔ Root (parentOf parent) x r)
    (hordered : (done ++ rest).Pairwise (· < ·)) (hgrouped : Grouped done groups)
    (hkeyed : GroupedByRoot p done groups) :
    Grouped (done ++ rest) result ∧ GroupedByRoot p (done ++ rest) result := by
  induction h generalizing done with
  | nil => simpa using ⟨hgrouped, hkeyed⟩
  | @cons symbol rest parent groups result found hfound _ ih =>
      have hnew : ∀ s ∈ done, s < symbol := fun s hs =>
        (List.pairwise_append.1 hordered).2.2 s hs symbol List.mem_cons_self
      have hsplit : done ++ symbol :: rest = (done ++ [symbol]) ++ rest := by simp
      obtain ⟨hroot, hsame⟩ := hfound.spec hforest
      rw [hsplit] at hordered ⊢
      exact ih hsame.forest (fun x r => (hroots x r).trans (hsame.roots x r)) hordered
        (hgrouped.add _ hnew) (hkeyed.add ((hroots _ _).2 hroot))

/-- The bounded searches of `groupByRoot` are the loop of the source. -/
theorem groupsAll_groupByRoot {rounds : Nat} {rest : List String}
    {groups : Dict String (List String)} (hrounds : symbols.length ≤ rounds)
    (hforest : Forest symbols parent) :
    GroupsAll rest parent groups (groupByRoot rounds rest parent groups) := by
  induction rest generalizing parent groups with
  | nil => exact GroupsAll.nil
  | cons symbol rest ih =>
      have hfound := @findRoot_finds symbols _ symbol rounds hforest
        ((symbolRank_le _ _).trans hrounds)
      exact GroupsAll.cons hfound (ih (hfound.spec hforest).2.forest)

/-! ## Connected components -/

/-- The connected components of a graph on the symbols, in order. -/
structure ConnectedComponents (G : SimpleGraph String) (symbols : List String)
    (components : List (List String)) : Prop where
  partition : components.flatten.Perm symbols
  nonempty : [] ∉ components
  ordered : ∀ c ∈ components, c.Pairwise (· < ·)
  sorted : components.Pairwise fun c d => componentHead c < componentHead d
  connected : ∀ c ∈ components, ∀ x ∈ c, ∀ y ∈ symbols, y ∈ c ↔ G.Reachable x y

namespace ConnectedComponents

variable {G : SimpleGraph String} {components others : List (List String)}

theorem mem_symbols (h : ConnectedComponents G symbols components) {c : List String}
    (hc : c ∈ components) (hx : x ∈ c) : x ∈ symbols :=
  h.partition.mem_iff.1 (List.mem_flatten.2 ⟨c, hc, hx⟩)

/-- Every component of one list is a component of the other. -/
theorem subset (h : ConnectedComponents G symbols components)
    (h' : ConnectedComponents G symbols others) {c : List String} (hc : c ∈ components) :
    c ∈ others := by
  obtain ⟨x, hx⟩ := List.exists_mem_of_ne_nil c fun hnil => h.nonempty (hnil ▸ hc)
  obtain ⟨d, hd, hxd⟩ := List.mem_flatten.1 (h'.partition.mem_iff.2 (h.mem_symbols hc hx))
  have hmem : ∀ y, y ∈ c ↔ y ∈ d := by
    intro y
    constructor
    · intro hy
      have hsymbol := h.mem_symbols hc hy
      exact (h'.connected d hd x hxd y hsymbol).2 ((h.connected c hc x hx y hsymbol).1 hy)
    · intro hy
      have hsymbol := h'.mem_symbols hd hy
      exact (h.connected c hc x hx y hsymbol).2 ((h'.connected d hd x hxd y hsymbol).1 hy)
  have hperm : c.Perm d := (List.perm_ext_iff_of_nodup ((h.ordered c hc).imp ne_of_lt)
    ((h'.ordered d hd).imp ne_of_lt)).2 hmem
  have heq : c = d := hperm.eq_of_pairwise (fun a b _ _ hab hba => absurd hab (lt_asymm hba))
    (h.ordered c hc) (h'.ordered d hd)
  exact heq ▸ hd

/-- A graph has one list of components. -/
theorem unique (h : ConnectedComponents G symbols components)
    (h' : ConnectedComponents G symbols others) : components = others := by
  have hne : ∀ {l : List (List String)},
      (l.Pairwise fun c d => componentHead c < componentHead d) → l.Nodup := fun hl =>
    hl.imp fun hlt heq => absurd (heq ▸ hlt) (lt_irrefl _)
  have hperm : components.Perm others := (List.perm_ext_iff_of_nodup (hne h.sorted)
    (hne h'.sorted)).2 fun c => ⟨h.subset h', h'.subset h⟩
  exact hperm.eq_of_pairwise (fun a b _ _ hab hba => absurd hab (lt_asymm hba)) h.sorted h'.sorted

end ConnectedComponents

/-- The pairs are the edges of the graph, each in either orientation. -/
def Supplies (G : SimpleGraph String) (pairs : List (String × String)) : Prop :=
  ∀ x y, G.Adj x y ↔ (x, y) ∈ pairs ∨ (y, x) ∈ pairs

theorem Supplies.reachable_iff {G : SimpleGraph String} {pairs : List (String × String)}
    (h : Supplies G pairs) :
    Relation.EqvGen (fun x y => (x, y) ∈ pairs) x y ↔ G.Reachable x y := by
  constructor
  · intro hgen
    induction hgen with
    | rel x y hpair => exact ((h x y).2 (Or.inl hpair)).reachable
    | refl x => exact SimpleGraph.Reachable.refl x
    | symm _ _ _ ih => exact ih.symm
    | trans _ _ _ _ _ ih ih' => exact ih.trans ih'
  · intro hreach
    rw [SimpleGraph.reachable_iff_reflTransGen] at hreach
    induction hreach with
    | refl => exact Relation.EqvGen.refl _
    | @tail y z _ hadj ih =>
        apply ih.trans
        rcases (h y z).1 hadj with hpair | hpair
        · exact Relation.EqvGen.rel _ _ hpair
        · exact (Relation.EqvGen.rel _ _ hpair).symm _ _

theorem parentOf_ownParents (symbols : List String) (x : String) :
    parentOf (ownParents symbols) x = x := by
  unfold ownParents
  have hkept : ∀ (l : List String) (d : Dict String String), (∀ y, parentOf d y = y) →
      ∀ y, parentOf (l.foldl (fun parent symbol => parent.set symbol symbol) d) y = y := by
    intro l
    induction l with
    | nil => exact fun _ hd => hd
    | cons s rest ih =>
        intro d hd
        apply ih
        intro y
        rw [parentOf_set]
        by_cases hy : y = s
        · subst hy
          simp
        · simp [hy, hd]
  exact hkept symbols .empty (fun _ => rfl) x

theorem forest_ownParents (symbols : List String) : Forest symbols (ownParents symbols) :=
  fun x => Or.inl (parentOf_ownParents symbols x)

theorem mem_symbols_of_supplied {G : SimpleGraph String} {pairs : List (String × String)}
    (hG : ∀ x y, G.Adj x y → x ∈ symbols ∧ y ∈ symbols) (hpairs : Supplies G pairs) :
    ∀ p ∈ pairs, p.1 ∈ symbols ∧ p.2 ∈ symbols :=
  fun p hp => hG p.1 p.2 ((hpairs p.1 p.2).2 (Or.inl hp))

/-- Components that the loops compute are the connected components. -/
theorem ComputesComponents.connected {G : SimpleGraph String} {pairs : List (String × String)}
    {components : List (List String)} (hordered : symbols.Pairwise (· < ·))
    (hG : ∀ x y, G.Adj x y → x ∈ symbols ∧ y ∈ symbols) (hpairs : Supplies G pairs)
    (h : ComputesComponents symbols pairs components) :
    ConnectedComponents G symbols components := by
  obtain ⟨united, groups, hunites, hgroups, rfl⟩ := h
  obtain ⟨hforest, hgenerates⟩ := hunites.spec (forest_ownParents symbols)
    (Generates.of_own (parentOf_ownParents symbols)) (mem_symbols_of_supplied hG hpairs)
  have hclass : ∀ x y, Same (parentOf united) x y ↔ G.Reachable x y := by
    intro x y
    rw [hgenerates.same_iff, ← hpairs.reachable_iff]
    simp
  have hempty : Grouped [] (Dict.empty : Dict String (List String)) :=
    ⟨List.Perm.refl _, by simp [Dict.values, Dict.empty], by simp [Dict.values, Dict.empty]⟩
  have hkeyed : GroupedByRoot (parentOf united) [] (Dict.empty : Dict String (List String)) := by
    intro r x
    simp
  obtain ⟨hgrouped, hbyRoot⟩ := @GroupsAll.spec symbols united _ symbols [] _ _ hgroups hforest
    (fun _ _ => Iff.rfl) hordered hempty hkeyed
  rw [List.nil_append] at hgrouped hbyRoot
  have hnodup : groups.values.flatten.Nodup :=
    hgrouped.perm.nodup_iff.2 (hordered.imp ne_of_lt)
  have hheads : (groups.values.map componentHead).Nodup := by
    apply List.pairwise_map.2
    apply (List.nodup_flatten.1 hnodup).2.imp_of_mem
    intro c d hc hd hdisjoint heq
    have hhead : ∀ {e : List String}, e ∈ groups.values → componentHead e ∈ e := by
      intro e he
      cases e with
      | nil => exact absurd rfl (hgrouped.nonempty [] he)
      | cons s rest => exact List.mem_cons_self
    exact hdisjoint (hhead hc) (heq ▸ hhead hd)
  constructor
  · exact (sortedBy_perm componentHead groups.values).flatten.trans hgrouped.perm
  · intro hnil
    exact hgrouped.nonempty [] (mem_sortedBy.1 hnil) rfl
  · intro c hc
    exact hgrouped.ordered c (mem_sortedBy.1 hc)
  · exact sortedBy_pairwise_lt hheads
  · intro c hc x hx y hy
    obtain ⟨root, hroot⟩ := Dict.mem_values_iff.1 (mem_sortedBy.1 hc)
    have hmem : ∀ z, z ∈ c ↔ z ∈ symbols ∧ Root (parentOf united) z root := by
      intro z
      simpa [hroot] using hbyRoot root z
    have hxroot := ((hmem x).1 hx).2
    rw [hmem, ← hclass]
    constructor
    · rintro ⟨-, hyroot⟩
      exact ⟨root, hxroot, hyroot⟩
    · rintro ⟨root', hx', hy'⟩
      cases hxroot.unique hx'
      exact ⟨hy, hy'⟩

/-- The loops end, with the components of the bounded searches. -/
theorem computesComponents_bounded {pairs : List (String × String)}
    (hmem : ∀ p ∈ pairs, p.1 ∈ symbols ∧ p.2 ∈ symbols) :
    ComputesComponents symbols pairs (sortedBy componentHead
      (groupByRoot symbols.length symbols
        (pairs.foldl (unite symbols.length) (ownParents symbols)) .empty).values) := by
  have hown := Generates.of_own (parentOf_ownParents symbols)
  have hunites := unitesAll_foldl le_rfl (forest_ownParents symbols) hown hmem
  have hforest := (hunites.spec (forest_ownParents symbols) hown hmem).1
  exact ⟨_, _, hunites, groupsAll_groupByRoot le_rfl hforest, rfl⟩

/-! ## The correlation graph -/

/-- Two symbols are joined when their absolute correlation exceeds the threshold. -/
def correlationGraph (statistics : RiskStatistics) (threshold : ℚ) : SimpleGraph String :=
  SimpleGraph.fromRel fun left right => left ∈ statistics.symbols ∧ right ∈ statistics.symbols ∧
    threshold < |statistics.correlationFor left right|

theorem mem_orderedPairs {l : List String} (hl : l.Pairwise (· < ·)) :
    (x, y) ∈ orderedPairs l ↔ x ∈ l ∧ y ∈ l ∧ x < y := by
  induction l with
  | nil => simp [orderedPairs]
  | cons s rest ih =>
      obtain ⟨hhead, hrest⟩ := List.pairwise_cons.1 hl
      rw [orderedPairs, List.mem_append, ih hrest, List.mem_map]
      constructor
      · rintro (⟨t, ht, heq⟩ | ⟨hx, hy, hlt⟩)
        · cases heq
          exact ⟨List.mem_cons_self, List.mem_cons_of_mem _ ht, hhead _ ht⟩
        · exact ⟨List.mem_cons_of_mem _ hx, List.mem_cons_of_mem _ hy, hlt⟩
      · rintro ⟨hx, hy, hlt⟩
        rcases List.mem_cons.1 hx with rfl | hxrest
        · rcases List.mem_cons.1 hy with rfl | hyrest
          · exact absurd hlt (lt_irrefl _)
          · exact Or.inl ⟨y, hyrest, rfl⟩
        · rcases List.mem_cons.1 hy with rfl | hyrest
          · exact absurd hlt (lt_asymm (hhead x hxrest))
          · exact Or.inr ⟨hxrest, hyrest, hlt⟩

/-- The pairs the source unites are the edges of the graph. -/
theorem supplies_edges {statistics : RiskStatistics} {threshold : ℚ}
    (hordered : statistics.symbols.Pairwise (· < ·))
    (hsymmetric : ∀ left ∈ statistics.symbols, ∀ right ∈ statistics.symbols,
      statistics.correlationFor left right = statistics.correlationFor right left) :
    Supplies (correlationGraph statistics threshold)
      ((orderedPairs statistics.symbols).filter fun pair =>
        threshold < |statistics.correlationFor pair.1 pair.2|) := by
  intro x y
  simp only [correlationGraph, SimpleGraph.fromRel_adj, List.mem_filter, mem_orderedPairs hordered,
    decide_eq_true_eq]
  constructor
  · rintro ⟨hne, hjoined⟩
    have hxy : x ∈ statistics.symbols ∧ y ∈ statistics.symbols ∧
        threshold < |statistics.correlationFor x y| := by
      rcases hjoined with h | ⟨hy, hx, h⟩
      · exact h
      · exact ⟨hx, hy, hsymmetric y hy x hx ▸ h⟩
    obtain ⟨hx, hy, h⟩ := hxy
    rcases lt_or_gt_of_ne hne with hlt | hlt
    · exact Or.inl ⟨⟨hx, hy, hlt⟩, h⟩
    · exact Or.inr ⟨⟨hy, hx, hlt⟩, hsymmetric x hx y hy ▸ h⟩
  · rintro (⟨⟨hx, hy, hlt⟩, h⟩ | ⟨⟨hy, hx, hlt⟩, h⟩)
    · exact ⟨hlt.ne, Or.inl ⟨hx, hy, h⟩⟩
    · exact ⟨hlt.ne', Or.inr ⟨hy, hx, h⟩⟩

/-- For distinct symbols with symmetric correlations, `correlation_components` returns the connected
components of the correlation graph; the loops of the source end with them, and with no others,
whatever the order and the orientation in which the pairs are united. -/
theorem correlation_components_connected {symbols : List String} (hsymbols : symbols.Nodup)
    {statistics : RiskStatistics} (hordered : statistics.symbols = sortedBy id symbols)
    (hsymmetric : ∀ left ∈ symbols, ∀ right ∈ symbols,
      statistics.correlationFor left right = statistics.correlationFor right left)
    {threshold : ℚ} (hthreshold : 0 ≤ threshold ∧ threshold ≤ 1) :
    ∃ components, correlationComponents statistics threshold = .ok components ∧
      ConnectedComponents (correlationGraph statistics threshold) statistics.symbols components ∧
      ∀ pairs, Supplies (correlationGraph statistics threshold) pairs →
        ∀ others, ComputesComponents statistics.symbols pairs others ↔ others = components := by
  have hlt : statistics.symbols.Pairwise (· < ·) := by
    rw [hordered]
    exact sortedBy_pairwise_lt (by simpa using hsymbols)
  have hmem : ∀ s, s ∈ statistics.symbols ↔ s ∈ symbols := by
    intro s
    rw [hordered, mem_sortedBy]
  have hedges := @supplies_edges statistics threshold hlt fun left hl right hr =>
    hsymmetric left ((hmem _).1 hl) right ((hmem _).1 hr)
  have hG : ∀ x y, (correlationGraph statistics threshold).Adj x y →
      x ∈ statistics.symbols ∧ y ∈ statistics.symbols := by
    intro x y hadj
    rcases (SimpleGraph.fromRel_adj _ _ _).1 hadj with ⟨-, ⟨hx, hy, -⟩ | ⟨hy, hx, -⟩⟩
    · exact ⟨hx, hy⟩
    · exact ⟨hx, hy⟩
  have hcomputed : ∀ {pairs}, Supplies (correlationGraph statistics threshold) pairs →
      ComputesComponents statistics.symbols pairs _ := fun hpairs =>
    computesComponents_bounded (mem_symbols_of_supplied hG hpairs)
  have hconnected := (hcomputed hedges).connected hlt hG hedges
  refine ⟨_, ?_, hconnected, ?_⟩
  · simp only [correlationComponents, rejectIf_bind_eq_ok, pure_eq_ok, not_not]
    exact ⟨hthreshold, trivial⟩
  · intro pairs hpairs others
    constructor
    · intro hothers
      exact (hothers.connected hlt hG hpairs).unique hconnected
    · rintro rfl
      have hsame := ((hcomputed hpairs).connected hlt hG hpairs).unique hconnected
      exact hsame ▸ hcomputed hpairs

/-- Three symbols, the first two of which are correlated. -/
def linkedStatistics : RiskStatistics where
  symbols := ["AAPL", "MSFT", "NVDA"]
  eigenvalueFloor := 1 / 100000000
  annualizedCovariance := [[1 / 25, 9 / 250, 0], [9 / 250, 1 / 25, 0], [0, 0, 1 / 25]]
  priorCorrelation := [[1, 9 / 10, 0], [9 / 10, 1, 0], [0, 0, 1]]
  annualizedSigma := [1 / 5, 1 / 5, 1 / 5]
  outputHash := "a3f5a3f5a3f5a3f5a3f5a3f5a3f5a3f5a3f5a3f5a3f5a3f5a3f5a3f5a3f5a3f5"

theorem linked_components_connected :
    correlationComponents linkedStatistics (1 / 2) = .ok [["AAPL", "MSFT"], ["NVDA"]] ∧
      (correlationGraph linkedStatistics (1 / 2)).Reachable "AAPL" "MSFT" ∧
      ¬ (correlationGraph linkedStatistics (1 / 2)).Reachable "AAPL" "NVDA" := by
  have hcomputed : correlationComponents linkedStatistics (1 / 2) =
      .ok [["AAPL", "MSFT"], ["NVDA"]] := by
    decide +kernel
  obtain ⟨components, hcomponents, hconnected, -⟩ :=
    @correlation_components_connected ["NVDA", "AAPL", "MSFT"] (by decide) linkedStatistics
      (by decide) (by decide +kernel) (1 / 2) (by norm_num)
  cases hcomputed.symm.trans hcomponents
  have hreachable := hconnected.connected ["AAPL", "MSFT"] (by simp) "AAPL" (by simp)
  refine ⟨hcomputed, ?_, ?_⟩
  · exact (hreachable "MSFT" (by decide)).1 (by simp)
  · intro h
    have hmem := (hreachable "NVDA" (by decide)).2 h
    simp at hmem

end AdaptiveTrader
