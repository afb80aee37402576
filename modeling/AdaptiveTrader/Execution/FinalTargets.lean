import AdaptiveTrader.Execution.Splitting

/-!
# The recorded final targets

Every intent of a plan records the quantity its symbol is to reach. Filling all intents of a symbol
leads its position to the plan's target, or to zero when the transition is a reversal
(`positionAfter_eq`). The recorded quantity agrees with this position except for an increase of an
open position: `_entry` records the quantity it adds. `final_targets_truthful_iff` says that a plan
is truthful exactly when it increases no position.
-/

set_option autoImplicit false

namespace AdaptiveTrader

open Foundation

/-- Bought quantities count up, sold ones down. -/
def OrderSide.signed : OrderSide → ℚ → ℚ
  | buy, quantity => quantity
  | sell, quantity => -quantity

theorem OrderSide.signed_sum (side : OrderSide) (quantities : List ℚ) :
    (quantities.map side.signed).sum = side.signed quantities.sum := by
  induction quantities with
  | nil => cases side <;> simp [OrderSide.signed]
  | cons quantity rest ih =>
      rw [List.map_cons, List.sum_cons, List.sum_cons, ih]
      cases side with
      | buy => rfl
      | sell =>
          show -quantity + -rest.sum = -(quantity + rest.sum)
          ring

/-- A transition increases an open position without crossing zero. -/
def IncreasesPosition (current target : ℚ) : Prop :=
  (0 < current ∧ current < target) ∨ (current < 0 ∧ target < current)

/-! ## One transition -/

/-- Where a draft of a transition leads, and whether it records that. -/
structure Settles (symbol : String) (current target : ℚ) (reversal : Bool) (d : IntentDraft) :
    Prop where
  symbol_eq : d.symbol = symbol
  quantity_pos : 0 < d.quantity
  reached : current + d.side.signed d.quantity = if reversal then 0 else target
  recorded : d.stageTarget = current + d.side.signed d.quantity ↔ ¬ IncreasesPosition current target

/-- A draft that records where it leads. -/
theorem Settles.of_recorded {symbol : String} {current target : ℚ} {reversal : Bool}
    {d : IntentDraft} (hsymbol : d.symbol = symbol) (hpos : 0 < d.quantity)
    (hreached : current + d.side.signed d.quantity = if reversal then 0 else target)
    (hstage : d.stageTarget = if reversal then 0 else target)
    (hno : ¬ IncreasesPosition current target) : Settles symbol current target reversal d :=
  ⟨hsymbol, hpos, hreached, fun _ => hno, fun _ => hstage.trans hreached.symm⟩

theorem not_increases_of_nonneg_of_le {current target : ℚ} (h : 0 ≤ current)
    (hle : target ≤ current) : ¬ IncreasesPosition current target := by
  rintro (⟨-, hlt⟩ | ⟨hneg, -⟩)
  · exact absurd hlt (not_lt.2 hle)
  · exact absurd hneg (not_lt.2 h)

theorem not_increases_of_nonpos_of_le {current target : ℚ} (h : current ≤ 0)
    (hle : current ≤ target) : ¬ IncreasesPosition current target := by
  rintro (⟨hpos, -⟩ | ⟨-, hlt⟩)
  · exact absurd hpos (not_lt.2 h)
  · exact absurd hlt (not_lt.2 hle)

theorem not_increases_of_zero (target : ℚ) : ¬ IncreasesPosition 0 target := by
  rintro (⟨h, -⟩ | ⟨h, -⟩)
  · exact lt_irrefl _ h
  · exact lt_irrefl _ h

/-- What each branch of `_transition_draft` settles. -/
theorem transitionDraft_settles {symbol : String} {current target : ℚ} {forcedFlat : Bool}
    {draft : Option IntentDraft} {reversal : Bool}
    (h : transitionDraft symbol current target forcedFlat = .ok (draft, reversal))
    (hflat : forcedFlat = true → target = 0) :
    (draft = none → current = target ∧ reversal = false) ∧
      ∀ d, draft = some d → Settles symbol current target reversal d := by
  unfold transitionDraft at h
  by_cases heq : current = target
  · rw [if_pos heq] at h
    cases h
    exact ⟨fun _ => ⟨heq, rfl⟩, nofun⟩
  rw [if_neg heq] at h
  cases forcedFlat with
  | true =>
      obtain rfl := hflat rfl
      rw [if_pos rfl, if_neg (by simp)] at h
      split at h
      · next hpos =>
          cases h
          refine ⟨nofun, ?_⟩
          rintro d ⟨⟩
          exact Settles.of_recorded rfl hpos (by simp [OrderSide.signed]) rfl
            (not_increases_of_nonneg_of_le hpos.le hpos.le)
      split at h
      · next hneg =>
          cases h
          refine ⟨nofun, ?_⟩
          rintro d ⟨⟩
          exact Settles.of_recorded rfl (abs_pos.2 hneg.ne)
            (by simp [OrderSide.signed, abs_of_neg hneg]) rfl
            (not_increases_of_nonpos_of_le hneg.le hneg.le)
      · next hpos hneg => exact absurd (le_antisymm (not_lt.1 hpos) (not_lt.1 hneg)) heq
  | false =>
      rw [if_neg Bool.false_ne_true] at h
      split at h
      · -- An entry from flat.
        next hentry =>
          obtain ⟨rfl, hpos⟩ := hentry
          cases h
          refine ⟨nofun, ?_⟩
          rintro d ⟨⟩
          exact Settles.of_recorded rfl hpos (by simp [OrderSide.signed, entryDraft])
            (by simp [entryDraft]) (not_increases_of_zero target)
      split at h
      · next hentry =>
          obtain ⟨rfl, hneg⟩ := hentry
          cases h
          refine ⟨nofun, ?_⟩
          rintro d ⟨⟩
          exact Settles.of_recorded rfl (abs_pos.2 hneg.ne)
            (by simp [OrderSide.signed, entryDraft, abs_of_neg hneg])
            (by simp [entryDraft, abs_of_neg hneg]) (not_increases_of_zero target)
      split at h
      · next hlong =>
          obtain ⟨hpos, htarget⟩ := hlong
          split at h
          · -- An increase records the quantity it adds.
            next hlt =>
              cases h
              refine ⟨nofun, ?_⟩
              rintro d ⟨⟩
              refine ⟨rfl, sub_pos.2 hlt, by simp [OrderSide.signed, entryDraft], ?_⟩
              constructor
              · intro hstage
                simp only [entryDraft, if_true, OrderSide.signed] at hstage
                linarith
              · intro hno
                exact absurd (Or.inl ⟨hpos, hlt⟩) hno
          · next hge =>
              have hle := not_lt.1 hge
              have hlt : target < current := lt_of_le_of_ne hle (Ne.symm heq)
              cases h
              refine ⟨nofun, ?_⟩
              rintro d ⟨⟩
              refine Settles.of_recorded rfl (sub_pos.2 hlt) ?_ rfl
                (not_increases_of_nonneg_of_le hpos.le hle)
              by_cases hzero : target = 0
              · simp [exitDraft, hzero, OrderSide.signed]
              · simp [exitDraft, hzero, OrderSide.signed]
      split at h
      · next hshort =>
          obtain ⟨hneg, htarget⟩ := hshort
          split at h
          · next hlt =>
              cases h
              refine ⟨nofun, ?_⟩
              rintro d ⟨⟩
              have hsub : target - current < 0 := sub_neg.2 hlt
              refine ⟨rfl, abs_pos.2 hsub.ne, ?_, ?_⟩
              · simp [OrderSide.signed, entryDraft, abs_of_neg hsub]
              constructor
              · intro hstage
                simp [entryDraft, OrderSide.signed, abs_of_neg hsub] at hstage
                linarith
              · intro hno
                exact absurd (Or.inr ⟨hneg, hlt⟩) hno
          · next hge =>
              have hle := not_lt.1 hge
              have hlt : current < target := lt_of_le_of_ne hle heq
              cases h
              refine ⟨nofun, ?_⟩
              rintro d ⟨⟩
              refine Settles.of_recorded rfl (sub_pos.2 hlt) ?_ rfl
                (not_increases_of_nonpos_of_le hneg.le hle)
              by_cases hzero : target = 0
              · simp [exitDraft, hzero, OrderSide.signed]
              · simp [exitDraft, hzero, OrderSide.signed]
      split at h
      · -- A reversal stops at zero.
        next hreverse =>
          obtain ⟨hpos, hneg⟩ := hreverse
          cases h
          refine ⟨nofun, ?_⟩
          rintro d ⟨⟩
          exact Settles.of_recorded rfl hpos (by simp [exitDraft, OrderSide.signed]) rfl
            (not_increases_of_nonneg_of_le hpos.le (hneg.trans hpos).le)
      split at h
      · next hreverse =>
          obtain ⟨hneg, hpos⟩ := hreverse
          cases h
          refine ⟨nofun, ?_⟩
          rintro d ⟨⟩
          exact Settles.of_recorded rfl (abs_pos.2 hneg.ne)
            (by simp [exitDraft, OrderSide.signed, abs_of_neg hneg]) rfl
            (not_increases_of_nonpos_of_le hneg.le (hneg.trans hpos).le)
      · cases h

/-! ## The parts of a transition -/

/-- The parts take the whole quantity. -/
theorem sum_of_splitQuantities {maximum : ℚ} {allowed : Nat} {quantity : ℚ} {quantities : List ℚ}
    (h : splitQuantities maximum allowed quantity = .ok quantities) (hnonneg : 0 ≤ quantity) :
    quantities.sum = quantity := by
  induction allowed generalizing quantity quantities with
  | zero =>
      simp only [splitQuantities] at h
      split at h
      · next hle =>
          cases h
          exact le_antisymm hnonneg hle
      · cases h
  | succ allowed ih =>
      simp only [splitQuantities] at h
      split at h
      · next hle =>
          cases h
          exact le_antisymm hnonneg hle
      · simp only [bind_eq_ok, pure_eq_ok] at h
        obtain ⟨rest, hrest, rfl⟩ := h
        have hsum := ih hrest (sub_nonneg.2 (min_le_left _ _))
        rw [List.sum_cons, hsum]
        ring

theorem map_quantity_partsFrom (d : IntentDraft) (part : Nat) (quantities : List ℚ) :
    (partsFrom d part quantities).map (·.quantity) = quantities := by
  induction quantities generalizing part with
  | nil => rfl
  | cons quantity rest ih =>
      rw [partsFrom, List.map_cons, ih]

theorem fields_of_mem_partsFrom {d p : IntentDraft} {part : Nat} {quantities : List ℚ}
    (h : p ∈ partsFrom d part quantities) :
    p.symbol = d.symbol ∧ p.side = d.side ∧ p.stageTarget = d.stageTarget := by
  induction quantities generalizing part with
  | nil => simp [partsFrom] at h
  | cons quantity rest ih =>
      rcases List.mem_cons.1 h with rfl | hrest
      · exact ⟨rfl, rfl, rfl⟩
      · exact ih hrest

/-- Symbol, signed quantity and recorded target of a draft. -/
def IntentDraft.move (d : IntentDraft) : String × ℚ × ℚ :=
  (d.symbol, d.side.signed d.quantity, d.stageTarget)

/-- The same of an intent. -/
def OrderIntentBase.move (i : OrderIntentBase) : String × ℚ × ℚ :=
  (i.symbol, i.side.signed i.quantity, i.finalTargetQuantity)

/-- What splitting keeps of a draft. -/
structure KeptBy (d : IntentDraft) (parts : List IntentDraft) : Prop where
  nonempty : parts ≠ []
  fields : ∀ p ∈ parts, p.symbol = d.symbol ∧ p.stageTarget = d.stageTarget
  total : (parts.map fun p => p.side.signed p.quantity).sum = d.side.signed d.quantity

theorem splitDraft_kept {d : IntentDraft} {price maximumNotional : ℚ} {parts : List IntentDraft}
    (h : splitDraft d price maximumNotional = .ok parts) (hpos : 0 < d.quantity) :
    KeptBy d parts := by
  unfold splitDraft at h
  split at h
  · cases h
    exact ⟨List.cons_ne_nil _ _, by simp, by simp⟩
  · simp only [bind_eq_ok, pure_eq_ok] at h
    obtain ⟨-, -, quantities, hquantities, rfl⟩ := h
    have hsum := sum_of_splitQuantities hquantities hpos.le
    refine ⟨?_, ?_, ?_⟩
    · intro hnil
      have hmap := map_quantity_partsFrom d 0 quantities
      rw [hnil] at hmap
      rw [← hmap] at hsum
      simp only [List.map_nil, List.sum_nil] at hsum
      exact absurd hsum hpos.ne
    · intro p hp
      obtain ⟨hsymbol, -, hstage⟩ := fields_of_mem_partsFrom hp
      exact ⟨hsymbol, hstage⟩
    · have hsides : (partsFrom d 0 quantities).map (fun p => p.side.signed p.quantity) =
          ((partsFrom d 0 quantities).map (·.quantity)).map d.side.signed := by
        rw [List.map_map]
        apply List.map_congr_left
        intro p hp
        show p.side.signed p.quantity = d.side.signed p.quantity
        rw [(fields_of_mem_partsFrom hp).2.1]
      rw [hsides, map_quantity_partsFrom, OrderSide.signed_sum, hsum]

/-! ## The drafts of one symbol -/

/-- The drafts of a plan belong to the symbols of its targets. -/
theorem symbol_mem_of_drafts {targets : List Position} {transitions : List (List IntentDraft × Bool)}
    (h : List.Forall₂ (fun t d => ∀ p ∈ d.1, p.symbol = t.symbol) targets transitions)
    {p : IntentDraft} (hp : p ∈ transitions.flatMap Prod.fst) :
    p.symbol ∈ targets.map (·.symbol) := by
  induction h with
  | nil => simp at hp
  | cons hd _ ih =>
      rcases List.mem_append.1 hp with hfirst | hrest
      · rw [hd p hfirst]
        exact List.mem_cons_self
      · exact List.mem_cons_of_mem _ (ih hrest)

/-- Among all drafts, those of a target's symbol are the drafts of this target. -/
theorem filter_drafts {targets : List Position} {transitions : List (List IntentDraft × Bool)}
    (h : List.Forall₂ (fun t d => ∀ p ∈ d.1, p.symbol = t.symbol) targets transitions)
    (hnodup : (targets.map (·.symbol)).Nodup) {t : Position} {d : List IntentDraft × Bool}
    (htd : (t, d) ∈ targets.zip transitions) :
    (transitions.flatMap Prod.fst).filter (·.symbol = t.symbol) = d.1 := by
  induction h with
  | nil => simp at htd
  | @cons t₀ d₀ targets transitions hd hrest ih =>
      rw [List.map_cons, List.nodup_cons] at hnodup
      rw [List.flatMap_cons, List.filter_append]
      rcases List.mem_cons.1 htd with heq | hlater
      · cases heq
        have hown : d.1.filter (fun p => p.symbol = t.symbol) = d.1 :=
          List.filter_eq_self.2 fun p hp => by simpa using hd p hp
        have hother : (transitions.flatMap Prod.fst).filter (fun p => p.symbol = t.symbol) = [] := by
          apply List.filter_eq_nil_iff.2
          intro p hp hsymbol
          have hmem := symbol_mem_of_drafts hrest hp
          rw [of_decide_eq_true hsymbol] at hmem
          exact hnodup.1 hmem
        rw [hown, hother, List.append_nil]
      · have hmem : t.symbol ∈ targets.map (·.symbol) :=
          List.mem_map_of_mem (List.of_mem_zip hlater).1
        have hother : d₀.1.filter (fun p => p.symbol = t.symbol) = [] := by
          apply List.filter_eq_nil_iff.2
          intro p hp hsymbol
          rw [hd p hp] at hsymbol
          rw [of_decide_eq_true hsymbol] at hnodup
          exact hnodup.1 hmem
        rw [hother, List.nil_append]
        exact ih hnodup.2 hlater

/-- The signed quantity that moves add to a symbol. -/
def movedBy (moves : List (String × ℚ × ℚ)) (symbol : String) : ℚ :=
  ((moves.filter fun m => m.1 = symbol).map fun m => m.2.1).sum

theorem movedBy_perm {moves moves' : List (String × ℚ × ℚ)} (h : moves.Perm moves')
    (symbol : String) : movedBy moves symbol = movedBy moves' symbol :=
  ((h.filter _).map _).sum_eq

theorem movedBy_drafts (drafts : List IntentDraft) (symbol : String) :
    movedBy (drafts.map IntentDraft.move) symbol =
      ((drafts.filter (·.symbol = symbol)).map fun d => d.side.signed d.quantity).sum := by
  unfold movedBy
  rw [List.filter_map, List.map_map]
  rfl

section Plans

variable [ContentHasher] {r : ExecutionPlanningRequest} {result : ExecutionPlanningResult}

namespace ExecutionPlanningRequest

/-- The signed quantity of a symbol before the plan. -/
def currentOf (r : ExecutionPlanningRequest) (symbol : String) : ℚ :=
  pairValue (positionPairs r.currentPositions) symbol

/-- The signed quantity of a symbol after all given intents have been filled. -/
def positionAfter (r : ExecutionPlanningRequest) (intents : List OrderIntent) (symbol : String) :
    ℚ :=
  r.currentOf symbol +
    ((intents.filter (·.symbol = symbol)).map fun i => i.side.signed i.quantity).sum

/-- The plan increases an open position. -/
def Increases (r : ExecutionPlanningRequest) (symbol : String) : Prop :=
  r.forcedFlat = false ∧ IncreasesPosition (r.currentOf symbol) (r.targetOf symbol)

end ExecutionPlanningRequest

omit [ContentHasher] in
theorem positionAfter_eq_movedBy (intents : List OrderIntent) (symbol : String) :
    r.positionAfter intents symbol =
      r.currentOf symbol + movedBy (intents.map fun i => i.move) symbol := by
  unfold ExecutionPlanningRequest.positionAfter movedBy
  rw [List.filter_map, List.map_map]
  rfl

omit [ContentHasher] in
theorem planTarget_fields {symbol : String} {t : Position} (h : planTarget r symbol = .ok t) :
    t.symbol = symbol ∧ t.quantity = if r.forcedFlat then 0 else r.targetOf symbol := by
  simp only [planTarget, bind_eq_ok] at h
  obtain ⟨quantity, hquantity, hcreate⟩ := h
  unfold Position.create at hcreate
  split at hcreate
  · cases hcreate
    refine ⟨rfl, ?_⟩
    cases hflat : r.forcedFlat with
    | true =>
        rw [hflat] at hquantity
        cases hquantity
        rfl
    | false =>
        rw [hflat] at hquantity
        simp only [Bool.false_eq_true, if_false, signedTargetQuantity, rejectIf_bind_eq_ok,
          pure_eq_ok] at hquantity
        exact hquantity.2.symm
  · cases hcreate

omit [ContentHasher] in
/-- What the drafts of one target do to its symbol. -/
theorem targetDrafts_settle {t : Position} {d : List IntentDraft × Bool}
    (hflat : r.forcedFlat = true → t.quantity = 0) (h : targetDrafts r t = .ok d) :
    (d.1 = [] ∧ d.2 = false ∧ r.currentOf t.symbol = t.quantity) ∨
      ∃ draft, KeptBy draft d.1 ∧ Settles t.symbol (r.currentOf t.symbol) t.quantity d.2 draft := by
  simp only [targetDrafts, bind_eq_ok] at h
  obtain ⟨⟨draft, reversal⟩, htransition, h⟩ := h
  obtain ⟨hnone, hsome⟩ := transitionDraft_settles htransition hflat
  cases draft with
  | none =>
      cases h
      exact Or.inl ⟨rfl, (hnone rfl).2, (hnone rfl).1⟩
  | some draft =>
      simp only [bind_eq_ok, pure_eq_ok] at h
      obtain ⟨parts, hparts, rfl⟩ := h
      have hsettles := hsome draft rfl
      exact Or.inr ⟨draft, splitDraft_kept hparts hsettles.quantity_pos, hsettles⟩

namespace Planned

theorem symbols_targets (h : Planned r result) :
    h.targets.map (·.symbol) = sortedSet r.riskDecision.symbols := by
  rw [← List.forall₂_eq_eq_eq, List.forall₂_map_left_iff]
  exact h.targets_eq.flip.imp fun _ _ ht => (planTarget_fields ht).1

theorem quantity_of_target (h : Planned r result) {t : Position} (ht : t ∈ h.targets) :
    t.quantity = if r.forcedFlat then 0 else r.targetOf t.symbol := by
  obtain ⟨n, hn, rfl⟩ := List.mem_iff_getElem.1 ht
  have hn' := h.targets_eq.length_eq ▸ hn
  obtain ⟨hsymbol, hquantity⟩ := planTarget_fields (h.targets_eq.get hn' hn)
  rw [List.get_eq_getElem, List.get_eq_getElem] at hsymbol hquantity
  rw [hsymbol]
  exact hquantity

/-- Each target with its drafts. -/
theorem settles (h : Planned r result) {t : Position} {d : List IntentDraft × Bool}
    (htd : (t, d) ∈ h.targets.zip h.transitions) :
    (d.1 = [] ∧ d.2 = false ∧ r.currentOf t.symbol = t.quantity) ∨
      ∃ draft, KeptBy draft d.1 ∧ Settles t.symbol (r.currentOf t.symbol) t.quantity d.2 draft := by
  have hok : targetDrafts r t = .ok d := (List.forall₂_iff_zip.1 h.transitions_eq).2 htd
  apply targetDrafts_settle _ hok
  intro hflat
  rw [h.quantity_of_target (List.of_mem_zip htd).1, hflat, if_pos rfl]

theorem symbols_drafts (h : Planned r result) :
    List.Forall₂ (fun t d => ∀ p ∈ d.1, p.symbol = t.symbol) h.targets h.transitions := by
  apply List.forall₂_iff_zip.2
  refine ⟨h.transitions_eq.length_eq, fun htd p hp => ?_⟩
  rcases h.settles htd with ⟨hnil, -⟩ | ⟨draft, hkept, hsettles⟩
  · rw [hnil] at hp
    cases hp
  · exact (hkept.fields p hp).1.trans hsettles.symbol_eq

/-- The moves of the intents are those of the drafts, in the order of submission. -/
theorem moves_perm (h : Planned r result) :
    (result.intents.map fun i => i.move).Perm
      ((h.transitions.flatMap Prod.fst).map IntentDraft.move) := by
  have hmoves : result.intents.map (fun i => i.move) =
      (sortedBy IntentDraft.sortKey (h.transitions.flatMap Prod.fst)).zipIdx.map
        fun d => d.1.move := by
    rw [← List.forall₂_eq_eq_eq, List.forall₂_map_left_iff, List.forall₂_map_right_iff]
    apply h.intents_eq.flip.imp
    intro i d hd
    have hbase := (OrderIntent.create_eq_ok hd).1
    show OrderIntentBase.move _ = _
    rw [hbase]
    rfl
  have hzip : (fun d : IntentDraft × Nat => d.1.move) = IntentDraft.move ∘ Prod.fst := rfl
  rw [hmoves, hzip, ← List.map_map, List.zipIdx_map_fst]
  exact (sortedBy_perm _ _).map _

/-- What the intents add to the symbol of a target. -/
theorem movedBy_target (h : Planned r result) {t : Position} {d : List IntentDraft × Bool}
    (htd : (t, d) ∈ h.targets.zip h.transitions) :
    movedBy (result.intents.map fun i => i.move) t.symbol =
      (d.1.map fun p => p.side.signed p.quantity).sum := by
  have hnodup : (h.targets.map (·.symbol)).Nodup := by
    rw [h.symbols_targets]
    exact nodup_sortedSet _
  rw [movedBy_perm h.moves_perm, movedBy_drafts, filter_drafts h.symbols_drafts hnodup htd]

/-- Every symbol of the decision has a target with drafts. -/
theorem exists_target (h : Planned r result) {symbol : String}
    (hsymbol : symbol ∈ r.riskDecision.symbols) :
    ∃ t d, (t, d) ∈ h.targets.zip h.transitions ∧ t.symbol = symbol := by
  have hmem : symbol ∈ h.targets.map (·.symbol) := by
    rw [h.symbols_targets]
    exact mem_sortedSet.2 hsymbol
  obtain ⟨t, ht, rfl⟩ := List.mem_map.1 hmem
  obtain ⟨n, hn, rfl⟩ := List.mem_iff_getElem.1 ht
  have hn' := h.transitions_eq.length_eq ▸ hn
  have hzip : n < (h.targets.zip h.transitions).length := by
    rw [List.length_zip]
    exact lt_min hn hn'
  refine ⟨h.targets[n], h.transitions[n], ?_, rfl⟩
  have hget := List.getElem_mem hzip
  rwa [List.getElem_zip] at hget

/-- The move of an intent is the move of a draft of its symbol's target. -/
theorem exists_move (h : Planned r result) {i : OrderIntent} (hi : i ∈ result.intents) :
    ∃ t d, (t, d) ∈ h.targets.zip h.transitions ∧ t.symbol = i.symbol ∧
      ∃ p ∈ d.1, p.move = i.move := by
  have hmove := h.moves_perm.mem_iff.1 (List.mem_map_of_mem (f := fun i => i.move) hi)
  obtain ⟨p, hp, hpi⟩ := List.mem_map.1 hmove
  have hsymbol : p.symbol = i.symbol := congrArg Prod.fst hpi
  obtain ⟨t, ht, htsymbol⟩ := List.mem_map.1 (symbol_mem_of_drafts h.symbols_drafts hp)
  have hdecision : t.symbol ∈ r.riskDecision.symbols := by
    rw [← mem_sortedSet, ← h.symbols_targets]
    exact List.mem_map_of_mem ht
  obtain ⟨t', d, htd, hsame⟩ := h.exists_target hdecision
  have hnodup : (h.targets.map (·.symbol)).Nodup := by
    rw [h.symbols_targets]
    exact nodup_sortedSet _
  refine ⟨t', d, htd, hsame.trans (htsymbol.trans hsymbol), p, ?_, hpi⟩
  rw [← filter_drafts h.symbols_drafts hnodup htd]
  exact List.mem_filter.2 ⟨hp, by simpa [hsame] using htsymbol.symm⟩

/-- A target is determined by its symbol. -/
theorem target_unique (h : Planned r result) {t t' : Position} {d d' : List IntentDraft × Bool}
    (htd : (t, d) ∈ h.targets.zip h.transitions) (htd' : (t', d') ∈ h.targets.zip h.transitions)
    (hsymbol : t.symbol = t'.symbol) : (t, d) = (t', d') := by
  have hnodup : ((h.targets.zip h.transitions).map fun e => e.1.symbol).Nodup := by
    have hcomp : (fun e : Position × (List IntentDraft × Bool) => e.1.symbol) =
        Position.symbol ∘ Prod.fst := rfl
    rw [hcomp, ← List.map_map, List.map_fst_zip h.transitions_eq.length_eq.le, h.symbols_targets]
    exact nodup_sortedSet _
  exact List.inj_on_of_nodup_map hnodup htd htd' hsymbol

theorem mem_reversalSymbols_iff (h : Planned r result) {t : Position} {d : List IntentDraft × Bool}
    (htd : (t, d) ∈ h.targets.zip h.transitions) :
    t.symbol ∈ result.reversalSymbols ↔ d.2 = true := by
  rw [h.reversals_eq, mem_sortedBy, List.mem_map]
  constructor
  · rintro ⟨⟨t', d'⟩, hmem, hsymbol⟩
    obtain ⟨hzip, hreversal⟩ := List.mem_filter.1 hmem
    cases h.target_unique hzip htd hsymbol
    exact hreversal
  · intro hreversal
    exact ⟨(t, d), List.mem_filter.2 ⟨htd, hreversal⟩, rfl⟩

theorem quantity_in_plan (h : Planned r result) {t : Position} (ht : t ∈ h.targets) :
    pairValue (positionPairs result.plan.targetQuantities) t.symbol = t.quantity := by
  have hplan : result.plan.targetQuantities = h.targets := by
    rw [h.plan_eq]
    rfl
  have hkeys : (positionPairs h.targets).map Prod.fst = h.targets.map (·.symbol) := by
    simp [positionPairs]
  have hnodup : ((positionPairs h.targets).map Prod.fst).Nodup := by
    rw [hkeys, h.symbols_targets]
    exact nodup_sortedSet _
  have hmem : (t.symbol, t.quantity) ∈ positionPairs h.targets := List.mem_map.2 ⟨t, ht, rfl⟩
  rw [hplan, pairValue, Dict.lookup_of_mem hnodup hmem]
  rfl

/-- Where the intents lead the symbol of a target, and whether each of them records it. -/
theorem position_of_target (h : Planned r result) {t : Position} {d : List IntentDraft × Bool}
    (htd : (t, d) ∈ h.targets.zip h.transitions) :
    r.positionAfter result.intents t.symbol = (if d.2 then 0 else t.quantity) ∧
      ∀ p ∈ d.1, p.stageTarget = r.positionAfter result.intents t.symbol ↔
        ¬ IncreasesPosition (r.currentOf t.symbol) t.quantity := by
  rw [positionAfter_eq_movedBy, h.movedBy_target htd]
  rcases h.settles htd with ⟨hnil, hreversal, hcurrent⟩ | ⟨draft, hkept, hsettles⟩
  · rw [hnil, hreversal]
    exact ⟨by simpa using hcurrent, by simp⟩
  · rw [hkept.total]
    refine ⟨hsettles.reached, fun p hp => ?_⟩
    rw [(hkept.fields p hp).2]
    exact hsettles.recorded

/-- A position that increases has a draft. -/
theorem nonempty_of_increase (h : Planned r result) {t : Position} {d : List IntentDraft × Bool}
    (htd : (t, d) ∈ h.targets.zip h.transitions)
    (hincrease : IncreasesPosition (r.currentOf t.symbol) t.quantity) : d.1 ≠ [] := by
  rcases h.settles htd with ⟨-, -, hcurrent⟩ | ⟨draft, hkept, -⟩
  · rw [hcurrent] at hincrease
    rcases hincrease with ⟨-, hlt⟩ | ⟨-, hlt⟩
    · exact absurd hlt (lt_irrefl _)
    · exact absurd hlt (lt_irrefl _)
  · exact hkept.nonempty

theorem increases_iff (h : Planned r result) {t : Position} (ht : t ∈ h.targets) :
    IncreasesPosition (r.currentOf t.symbol) t.quantity ↔ r.Increases t.symbol := by
  rw [h.quantity_of_target ht, ExecutionPlanningRequest.Increases]
  cases hflat : r.forcedFlat with
  | true =>
      simp only [if_true, Bool.true_eq_false, false_and, iff_false]
      rintro (⟨hpos, hlt⟩ | ⟨hneg, hlt⟩)
      · exact absurd hpos (lt_asymm hlt)
      · exact absurd hneg (lt_asymm hlt)
  | false => simp

end Planned

/-- In every plan, filling the intents of a symbol leads it to the target of the plan, or to zero for
a reversal. The intents all record this position exactly when the plan increases no open position,
long or short. -/
theorem final_targets_truthful_iff (hplan : planSignedOrders r = .ok result) :
    (∀ symbol ∈ r.riskDecision.symbols, r.positionAfter result.intents symbol =
      if symbol ∈ result.reversalSymbols then 0
      else pairValue (positionPairs result.plan.targetQuantities) symbol) ∧
    ((∀ i ∈ result.intents, i.finalTargetQuantity = r.positionAfter result.intents i.symbol) ↔
      ∀ symbol ∈ r.riskDecision.symbols, ¬ r.Increases symbol) := by
  obtain ⟨h⟩ := planSignedOrders_planned hplan
  refine ⟨?_, ?_, ?_⟩
  · intro symbol hsymbol
    obtain ⟨t, d, htd, rfl⟩ := h.exists_target hsymbol
    rw [(h.position_of_target htd).1, h.quantity_in_plan (List.of_mem_zip htd).1]
    simp only [h.mem_reversalSymbols_iff htd]
  · intro htruthful symbol hsymbol hincrease
    obtain ⟨t, d, htd, rfl⟩ := h.exists_target hsymbol
    have hgrows := (h.increases_iff (List.of_mem_zip htd).1).2 hincrease
    obtain ⟨p, hp⟩ := List.exists_mem_of_ne_nil _ (h.nonempty_of_increase htd hgrows)
    -- The draft is the draft of some intent, which records what the draft does.
    have hdraft : p ∈ h.transitions.flatMap Prod.fst :=
      List.mem_flatMap.2 ⟨d, (List.of_mem_zip htd).2, hp⟩
    obtain ⟨i, hi, hmove⟩ :=
      List.mem_map.1 (h.moves_perm.mem_iff.2 (List.mem_map_of_mem (f := IntentDraft.move) hdraft))
    have hsame : i.symbol = t.symbol := by
      have hsymbolOf : i.symbol = p.symbol := congrArg Prod.fst hmove
      rw [hsymbolOf]
      exact (List.forall₂_iff_zip.1 h.symbols_drafts).2 htd p hp
    have hstage : i.finalTargetQuantity = p.stageTarget :=
      congrArg (fun m : String × ℚ × ℚ => m.2.2) hmove
    have hrecorded := htruthful i hi
    rw [hstage, hsame] at hrecorded
    exact ((h.position_of_target htd).2 p hp).1 hrecorded hgrows
  · intro hnone i hi
    obtain ⟨t, d, htd, hsymbol, p, hp, hmove⟩ := h.exists_move hi
    have hstage : p.stageTarget = i.finalTargetQuantity :=
      congrArg (fun m : String × ℚ × ℚ => m.2.2) hmove
    have ht := (List.of_mem_zip htd).1
    have hdecision : t.symbol ∈ r.riskDecision.symbols := by
      rw [← mem_sortedSet, ← h.symbols_targets]
      exact List.mem_map_of_mem ht
    have hstays : ¬ IncreasesPosition (r.currentOf t.symbol) t.quantity := by
      rw [h.increases_iff ht]
      exact hnone _ hdecision
    rw [← hstage, ← hsymbol]
    exact ((h.position_of_target htd).2 p hp).2 hstays

end Plans

/-! ## An entry from flat and an increase -/

section Sample

local instance targetsHasher : ContentHasher := polynomialHasher

/-- A plan that buys a hundred shares from flat records a hundred. -/
theorem flat_entry_truthful : ∃ result, planSignedOrders sampleRequest = .ok result ∧
    ∀ i ∈ result.intents,
      i.finalTargetQuantity = sampleRequest.positionAfter result.intents i.symbol := by
  have hplanned : (planSignedOrders sampleRequest).map (fun result =>
      result.intents.map fun i => i.move) = .ok [("SPY", 100, 100)] := by
    decide +kernel
  obtain ⟨result, hresult, -⟩ := map_eq_ok.1 hplanned
  refine ⟨result, hresult, (final_targets_truthful_iff hresult).2.2 ?_⟩
  rintro symbol hsymbol ⟨-, hincrease⟩
  have hspy : symbol = "SPY" := by
    rw [show sampleRequest.riskDecision.symbols = ["SPY"] by decide +kernel] at hsymbol
    exact List.mem_singleton.1 hsymbol
  have hflat : sampleRequest.currentOf "SPY" = 0 := by decide +kernel
  rw [hspy, hflat] at hincrease
  exact not_increases_of_zero _ hincrease

/-- The same targets with fifty shares held. -/
def increasingRequest : ExecutionPlanningRequest :=
  ⟨{ riskDecision := ⟨{ sampleDecisionFields with
       planningPositions := [⟨"SPY", 50, isSymbol_spy⟩] }, by decide +kernel⟩,
     currentPositions := [⟨"SPY", 50, isSymbol_spy⟩],
     referencePrices := [("SPY", 100)], equity := 100000, targetVersion := 1, createdAt := 0,
     deadlineAt := 1000, forcedFlat := false }, by decide +kernel⟩

/-- Fifty shares are bought to reach a hundred, and fifty are recorded as the final target. -/
theorem increase_records_added_quantity :
    ∃ result, planSignedOrders increasingRequest = .ok result ∧ ∃ i ∈ result.intents,
      i.finalTargetQuantity = 50 ∧
        increasingRequest.positionAfter result.intents i.symbol = 100 := by
  have hplanned : (planSignedOrders increasingRequest).map (fun result =>
      result.intents.map fun i => i.move) = .ok [("SPY", 50, 50)] := by
    decide +kernel
  obtain ⟨result, hresult, hmoves⟩ := map_eq_ok.1 hplanned
  have hmem : (("SPY", 50, 50) : String × ℚ × ℚ) ∈ result.intents.map fun i => i.move := by
    rw [hmoves]
    exact List.mem_singleton_self _
  obtain ⟨i, hi, hmove⟩ := List.mem_map.1 hmem
  have hsymbol : i.symbol = "SPY" := congrArg Prod.fst hmove
  refine ⟨result, hresult, i, hi, congrArg (fun m : String × ℚ × ℚ => m.2.2) hmove, ?_⟩
  rw [positionAfter_eq_movedBy, hmoves, hsymbol]
  decide +kernel

end Sample

end AdaptiveTrader
