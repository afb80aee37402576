import AdaptiveTrader.Platform.CanonicalBytes

/-!
# Canonical encoding is a normal form

What `canonicalJsonBytes` accepts and returns, read off the value. The walk over a value is followed
once, in `normalizeValue_spends`; what it returns is `normalForm`, it spends `nodeCount` nodes and
`textBytes` of text, and it passes where the value is `Encodable` and both budgets hold
(`canonicalJsonBytes_eq_ok_iff`).

The normal form of an accepted value is itself accepted and is its own normal form, so encoding what
was read back gives the bytes again. Two normal forms are equal exactly when the values agree up to
the order of mappings, tuples and lists, enum members, and the texts of decimals and instants
(`PyValue.plain`). The main result is `canonical_encoding_normal_form`.
-/

set_option autoImplicit false

namespace AdaptiveTrader

open Foundation

/-! ## What a value costs and becomes -/

/-- The text of a string of scalars. -/
def PyString.textD (text : PyString) : String := ((PyKey.str text).text?).getD ""

mutual
/-- The nodes a walk over a value visits. -/
def nodeCount : PyValue → Nat
  | .list items => 1 + nodeCountItems items
  | .tuple items => 1 + nodeCountItems items
  | .dict entries => 1 + nodeCountEntries entries
  | .enum value => 1 + nodeCount value
  | _ => 1

def nodeCountItems : List PyValue → Nat
  | [] => 0
  | item :: rest => nodeCount item + nodeCountItems rest

def nodeCountEntries : List (PyKey × PyValue) → Nat
  | [] => 0
  | (key, item) :: rest =>
      match key.text? with
      | some _ => nodeCount item + nodeCountEntries rest
      | none => nodeCountEntries rest
end

mutual
/-- The bytes of the texts in a value, keys included. -/
def textBytes : PyValue → Nat
  | .str text => text.textD.utf8ByteSize
  | .decimal number => (decimalChars number).length
  | .datetime instant => (isoChars instant.utc).length
  | .list items => textBytesItems items
  | .tuple items => textBytesItems items
  | .dict entries => ((keysOf entries).map String.utf8ByteSize).sum + textBytesEntries entries
  | .enum value => textBytes value
  | _ => 0

def textBytesItems : List PyValue → Nat
  | [] => 0
  | item :: rest => textBytes item + textBytesItems rest

def textBytesEntries : List (PyKey × PyValue) → Nat
  | [] => 0
  | (key, item) :: rest =>
      match key.text? with
      | some _ => textBytes item + textBytesEntries rest
      | none => textBytesEntries rest
end

/-- A string that may be encoded. -/
def StringFits (text : PyString) : Prop :=
  ∃ scalars, text = .scalars scalars ∧ scalars.utf8ByteSize ≤ maxStringBytes

/-- A key that may be encoded. -/
def KeyFits (key : PyKey) : Prop := ∃ text, key = .str text ∧ StringFits text

/-- A decimal that may be encoded. -/
def DecimalFits (number : Decimal) : Prop :=
  number.coefficient = 0 ∨ maximumCharacters number ≤ maxDecimalCharacters

/-- An instant that may be encoded. -/
def InstantFits (instant : PyDatetime) : Prop :=
  (∃ utcoffset, instant.tzinfo = .timezone utcoffset) ∧
    datetimeMin ≤ instant.utc ∧ instant.utc ≤ datetimeMax

mutual
/-- Every node of the value may be encoded where it stands. -/
def Encodable (depth : Nat) : PyValue → Prop
  | .none => depth ≤ maxDepth
  | .bool _ => depth ≤ maxDepth
  | .int value => depth ≤ maxDepth ∧ minSigned64BitInteger ≤ value ∧ value ≤ maxSigned64BitInteger
  | .str text => depth ≤ maxDepth ∧ StringFits text
  | .decimal number => depth ≤ maxDepth ∧ DecimalFits number
  | .datetime instant => depth ≤ maxDepth ∧ InstantFits instant
  | .list items => depth ≤ maxDepth ∧ EncodableItems (depth + 1) items
  | .tuple items => depth ≤ maxDepth ∧ EncodableItems (depth + 1) items
  | .dict entries =>
      depth ≤ maxDepth ∧ (∀ entry ∈ entries, KeyFits entry.1) ∧ EncodableEntries (depth + 1) entries
  | .enum value => depth ≤ maxDepth ∧ Encodable (depth + 1) value
  | _ => False

def EncodableItems (depth : Nat) : List PyValue → Prop
  | [] => True
  | item :: rest => Encodable depth item ∧ EncodableItems depth rest

def EncodableEntries (depth : Nat) : List (PyKey × PyValue) → Prop
  | [] => True
  | (key, item) :: rest =>
      match key.text? with
      | some _ => Encodable depth item ∧ EncodableEntries depth rest
      | none => EncodableEntries depth rest
end

mutual
/-- What the encoder makes of a value before it is rendered. -/
def normalForm : PyValue → Json
  | .none => .null
  | .bool value => .bool value
  | .int value => .int value
  | .str text => .text text.textD
  | .decimal number => .text (String.ofList (decimalChars number))
  | .datetime instant => .text (String.ofList (isoChars instant.utc))
  | .list items => .array (normalFormItems items)
  | .tuple items => .array (normalFormItems items)
  | .dict entries => .object (sortedBy Prod.fst (normalFormEntries entries))
  | .enum value => normalForm value
  | _ => .null

def normalFormItems : List PyValue → List Json
  | [] => []
  | item :: rest => normalForm item :: normalFormItems rest

def normalFormEntries : List (PyKey × PyValue) → List (String × Json)
  | [] => []
  | (key, item) :: rest =>
      match key.text? with
      | some text => (text, normalForm item) :: normalFormEntries rest
      | none => normalFormEntries rest
end

/-! ## Spending -/

/-- A computation passes exactly when `accepted` holds and the budgets allow it; then it spends
`nodes` and `text` and returns `result`. -/
def Spends {α : Type} (m : Budgeted α) (accepted : Prop) (nodes text : Nat) (result : α) : Prop :=
  ∀ (budget after : Budget) (a : α), m budget = .ok (a, after) ↔
    accepted ∧ a = result ∧ after.nodes = budget.nodes + nodes ∧
      after.textBytes = budget.textBytes + text

namespace Spends

variable {α β : Type} {m : Budgeted α} {p q : Prop} {n k t s : Nat} {a : α} {b : β}

-- The equations of the definitions, stated once for all the proofs below.
attribute [local simp] nodeCount textBytes Encodable EncodableEntries normalForm normalFormEntries
  nodeCountEntries textBytesEntries consumeNode consumeText StringFits DecimalFits InstantFits
  KeyFits in
theorem pure (a : α) : Spends (pure a) True 0 0 a := by
  intro budget after x
  rw [stateT_pure_eq_ok, Prod.mk.injEq]
  constructor
  · rintro ⟨rfl, rfl⟩
    exact ⟨trivial, rfl, rfl, rfl⟩
  · rintro ⟨-, rfl, hnodes, htext⟩
    exact ⟨rfl, Budget.ext hnodes.symm htext.symm⟩

theorem refuse (complaint path : String) (n t : Nat) (a : α) :
    Spends (refuse complaint path) False n t a := by
  intro budget after x
  constructor
  · intro h
    cases h
  · rintro ⟨h, -⟩
    exact h.elim

theorem bind {f : α → Budgeted β} (hm : Spends m p n t a) (hf : Spends (f a) q k s b) :
    Spends (m >>= f) (p ∧ q) (n + k) (t + s) b := by
  intro budget after y
  rw [stateT_bind_eq_ok]
  constructor
  · rintro ⟨x, between, hfirst, hsecond⟩
    obtain ⟨hp, rfl, hnodes, htext⟩ := (hm _ _ _).1 hfirst
    obtain ⟨hq, rfl, hnodes', htext'⟩ := (hf _ _ _).1 hsecond
    exact ⟨⟨hp, hq⟩, rfl, by omega, by omega⟩
  · rintro ⟨⟨hp, hq⟩, rfl, hnodes, htext⟩
    -- What is left in the end was left in between.
    have hnodesLe := after.nodes_le
    have htextLe := after.textBytes_le
    let between : Budget := ⟨budget.nodes + n, budget.textBytes + t, by omega, by omega⟩
    refine ⟨a, between, (hm _ _ _).2 ⟨hp, rfl, rfl, rfl⟩, (hf _ _ _).2 ⟨hq, rfl, ?_, ?_⟩⟩
    · show after.nodes = budget.nodes + n + k
      omega
    · show after.textBytes = budget.textBytes + t + s
      omega

theorem andThen {m : Budgeted Unit} {f : Budgeted β} (hm : Spends m p n t ())
    (hf : Spends f q k s b) : Spends (m >>= fun _ => f) (p ∧ q) (n + k) (t + s) b :=
  hm.bind hf

theorem map (hm : Spends m p n t a) (f : α → β) :
    Spends (m >>= fun x => Pure.pure (f x)) p n t (f a) := by
  intro budget after y
  rw [hm.bind (Spends.pure (f a)) budget after y, and_true, Nat.add_zero, Nat.add_zero]

theorem congr (h : Spends m p n t a) (hp : p ↔ q) (hn : n = k) (ht : t = s) :
    Spends m q k s a := by
  subst hn ht
  intro budget after x
  rw [h budget after x, hp]

theorem refuseIf (c : Prop) [Decidable c] (complaint path : String) (h : Spends m p n t a) :
    Spends (if c then AdaptiveTrader.refuse complaint path else m) (¬ c ∧ p) n t a := by
  by_cases hc : c
  · rw [if_pos hc]
    exact (refuse complaint path n t a).congr (by simp [hc]) rfl rfl
  · rw [if_neg hc]
    exact h.congr (by simp [hc]) rfl rfl

theorem acceptIf (c : Prop) [Decidable c] (complaint path : String) (h : Spends m p n t a) :
    Spends (if c then m else AdaptiveTrader.refuse complaint path) (c ∧ p) n t a := by
  by_cases hc : c
  · rw [if_pos hc]
    exact h.congr (by simp [hc]) rfl rfl
  · rw [if_neg hc]
    exact (refuse complaint path n t a).congr (by simp [hc]) rfl rfl

end Spends

theorem consumeNode_spends (depth : Nat) (path : String) :
    Spends (consumeNode depth path) (depth ≤ maxDepth) 1 0 () := by
  intro budget after x
  unfold consumeNode
  by_cases hdepth : maxDepth < depth
  · rw [if_pos hdepth]
    constructor
    · intro h
      cases h
    · rintro ⟨h, -⟩
      exact absurd h (not_le.2 hdepth)
  · rw [if_neg hdepth]
    constructor
    · intro h
      split at h
      · cases h
        exact ⟨not_lt.1 hdepth, rfl, rfl, rfl⟩
      · cases h
    · rintro ⟨-, -, hnodes, htext⟩
      have hle := after.nodes_le
      rw [dif_pos (by omega)]
      exact congrArg Except.ok (Prod.ext rfl (Budget.ext hnodes.symm htext.symm))

theorem consumeText_spends (size : Nat) (path : String) :
    Spends (consumeText size path) True 0 size () := by
  intro budget after x
  unfold consumeText
  constructor
  · intro h
    split at h
    · cases h
      exact ⟨trivial, rfl, rfl, rfl⟩
    · cases h
  · rintro ⟨-, -, hnodes, htext⟩
    have hle := after.textBytes_le
    rw [dif_pos (by omega)]
    exact congrArg Except.ok (Prod.ext rfl (Budget.ext hnodes.symm htext.symm))

/-! ## The encoder spends what it counts -/

theorem utf8ByteSize_ofList_cons (c : Char) (cs : List Char) :
    (String.ofList (c :: cs)).utf8ByteSize = c.utf8Size + (String.ofList cs).utf8ByteSize := by
  have hsplit : String.ofList (c :: cs) = String.singleton c ++ String.ofList cs := by
    rw [String.singleton_eq_ofList, ← String.ofList_append, List.singleton_append]
  rw [hsplit, String.utf8ByteSize_append, String.utf8ByteSize_singleton]

theorem length_le_utf8ByteSize (text : String) : text.length ≤ text.utf8ByteSize := by
  have hlist : ∀ cs : List Char, cs.length ≤ (String.ofList cs).utf8ByteSize := by
    intro cs
    induction cs with
    | nil => exact Nat.zero_le _
    | cons c cs ih =>
        have hpos := Char.utf8Size_pos c
        rw [utf8ByteSize_ofList_cons, List.length_cons]
        omega
  have h := hlist text.toList
  rwa [String.ofList_toList, String.length_toList] at h

theorem consumeString_spends (path : String) (text : PyString) :
    Spends (consumeString path text) (StringFits text) 0 text.textD.utf8ByteSize () := by
  cases text with
  | surrogates length =>
      have hnever : ¬ StringFits (.surrogates length) := by
        rintro ⟨_, h, -⟩
        cases h
      have hrefused := (Spends.refuse "invalid Unicode scalar" path 0
        (PyString.surrogates length).textD.utf8ByteSize ()).refuseIf (maxStringBytes < length)
        "string length limit exceeded" path
      exact hrefused.congr (by simp [hnever]) rfl rfl
  | scalars text =>
      have hfits : StringFits (.scalars text) ↔ text.utf8ByteSize ≤ maxStringBytes := by
        simp [StringFits]
      have hlength := length_le_utf8ByteSize text
      have hspends := ((consumeText_spends text.utf8ByteSize path).refuseIf
        (maxStringBytes < text.utf8ByteSize) "string length limit exceeded" path).refuseIf
        (maxStringBytes < text.length) "string length limit exceeded" path
      refine hspends.congr ?_ rfl rfl
      rw [hfits]
      constructor
      · rintro ⟨-, h, -⟩
        exact not_lt.1 h
      · exact fun h => ⟨by omega, by omega, trivial⟩

theorem decimalText_spends (path : String) (number : Decimal) :
    Spends (Budgeted.decimalText path number) (DecimalFits number) 0 0 (decimalChars number) := by
  refine ((Spends.pure (decimalChars number)).refuseIf _ _ path).congr ?_ rfl rfl
  rw [DecimalFits, and_true, not_and_or, not_not, not_lt]

theorem instantText_spends (path : String) (instant : PyDatetime) :
    Spends (Budgeted.instantText path instant) (InstantFits instant) 0 0 (isoChars instant.utc) := by
  unfold Budgeted.instantText InstantFits
  cases htz : instant.tzinfo with
  | none => exact (Spends.refuse _ path 0 0 _).congr (by simp) rfl rfl
  | other => exact (Spends.refuse _ path 0 0 _).congr (by simp) rfl rfl
  | timezone utcoffset =>
      exact ((Spends.pure (isoChars instant.utc)).acceptIf _ _ path).congr (by simp) rfl rfl

/-- The keys spend their texts. -/
theorem consumeKeys_spends {α : Type} (path : String) (entries : List (PyKey × α)) :
    Spends (consumeKeys path entries) (∀ entry ∈ entries, KeyFits entry.1) 0
      ((keysOf entries).map String.utf8ByteSize).sum () := by
  induction entries with
  | nil => exact (Spends.pure ()).congr (by simp) rfl rfl
  | cons entry rest ih =>
      obtain ⟨key, item⟩ := entry
      cases key with
      | other =>
          have hnever : ¬ KeyFits .other := by
            rintro ⟨_, h, -⟩
            cases h
          exact (Spends.refuse _ _ 0 _ ()).congr (by simp [hnever]) rfl rfl
      | str text =>
          have hfits : KeyFits (.str text) ↔ StringFits text := by
            simp [KeyFits]
          have hall := (consumeString_spends (path ++ "<key>") text).andThen ih
          refine hall.congr (by rw [List.forall_mem_cons, hfits]) rfl ?_
          cases text with
          | scalars text => rfl
          | surrogates length => exact Nat.zero_add _

/-- One member of a mapping: its key, what is run for it, and what the run does. -/
structure Member where
  key : String
  run : String → Budgeted Json
  accepted : Prop
  nodes : Nat
  textBytes : Nat
  json : Json
  spends : ∀ path, Spends (run path) accepted nodes textBytes json

theorem normalizeMembers_spends (path : String) (members : List Member) (index : Nat) :
    Spends (normalizeMembers path index (members.map fun m => (m.key, m.run)))
      (∀ m ∈ members, m.accepted) (members.map Member.nodes).sum
      (members.map Member.textBytes).sum (members.map fun m => (m.key, m.json)) := by
  induction members generalizing index with
  | nil => exact (Spends.pure []).congr (by simp) rfl rfl
  | cons m rest ih =>
      have hrest := (ih (index + 1)).map fun values => (m.key, m.json) :: values
      have hall := (m.spends (path ++ "<member:" ++ toString index ++ ">")).bind
        (f := fun value => normalizeMembers path (index + 1) (rest.map fun m => (m.key, m.run)) >>=
          fun values => pure ((m.key, value) :: values)) hrest
      exact hall.congr (by rw [List.forall_mem_cons]) (by simp) (by simp)

theorem sortedBy_fst_map {β : Type} (f : Member → β) (members : List Member) :
    sortedBy Prod.fst (members.map fun m => (m.key, f m)) =
      (sortedBy Member.key members).map fun m => (m.key, f m) := by
  have h := List.map_insertionSort (fun a b : Member => a.key ≤ b.key)
    (fun a b : String × β => a.1 ≤ b.1) (fun m => (m.key, f m)) members fun _ _ _ _ => Iff.rfl
  exact h.symm

mutual
/-- A walk over a value passes where every node may be encoded, spends what the value costs and
returns its normal form. -/
theorem normalizeValue_spends (path : String) (depth : Nat) : ∀ value : PyValue,
    Spends (normalizeValue path depth value) (Encodable depth value) (nodeCount value)
      (textBytes value) (normalForm value)
  | .none => by
      have hwalk := (consumeNode_spends depth path).andThen (Spends.pure Json.null)
      exact hwalk.congr (by simp [Encodable]) rfl rfl
  | .bool value => by
      have hwalk := (consumeNode_spends depth path).andThen (Spends.pure (Json.bool value))
      exact hwalk.congr (by simp [Encodable]) rfl rfl
  | .int value => by
      have hwalk := (consumeNode_spends depth path).andThen ((Spends.pure (Json.int value)).acceptIf
        (minSigned64BitInteger ≤ value ∧ value ≤ maxSigned64BitInteger)
        "integer range limit exceeded" path)
      exact hwalk.congr (by simp [Encodable]) rfl rfl
  | .str text => by
      have hwalk := (consumeNode_spends depth path).andThen
        ((consumeString_spends path text).andThen (Spends.pure (Json.text text.textD)))
      exact hwalk.congr (by simp [Encodable]) rfl (by simp [textBytes])
  | .decimal number => by
      have hspend := (consumeText_spends (decimalChars number).length path).andThen
        (Spends.pure (Json.text (String.ofList (decimalChars number))))
      have hrender := (decimalText_spends path number).bind (f := fun rendered =>
        consumeText rendered.length path >>= fun _ => pure (Json.text (String.ofList rendered)))
        hspend
      have hwalk := (consumeNode_spends depth path).andThen hrender
      exact hwalk.congr (by simp [Encodable]) rfl (by simp [textBytes])
  | .nonfiniteDecimal => by
      have hwalk := (consumeNode_spends depth path).andThen
        (Spends.refuse "nonfinite Decimal is prohibited" path 0 0 Json.null)
      exact hwalk.congr (by simp [Encodable]) rfl rfl
  | .datetime instant => by
      have hspend := (consumeText_spends (isoChars instant.utc).length path).andThen
        (Spends.pure (Json.text (String.ofList (isoChars instant.utc))))
      have hrender := (instantText_spends path instant).bind (f := fun rendered =>
        consumeText rendered.length path >>= fun _ => pure (Json.text (String.ofList rendered)))
        hspend
      have hwalk := (consumeNode_spends depth path).andThen hrender
      exact hwalk.congr (by simp [Encodable]) rfl (by simp [textBytes])
  | .list items => by
      have hwalk := (consumeNode_spends depth path).andThen
        ((normalizeSequence_spends path (depth + 1) 0 items).map Json.array)
      exact hwalk.congr (by simp [Encodable]) rfl (by simp [textBytes])
  | .tuple items => by
      have hwalk := (consumeNode_spends depth path).andThen
        ((normalizeSequence_spends path (depth + 1) 0 items).map Json.array)
      exact hwalk.congr (by simp [Encodable]) rfl (by simp [textBytes])
  | .dict entries => by
      obtain ⟨members, hrun, hjson, haccepted, hnodes, htext⟩ :=
        exists_members (depth + 1) entries
      have hperm := sortedBy_perm Member.key members
      have hmembers := normalizeMembers_spends path (sortedBy Member.key members) 0
      rw [← sortedBy_fst_map, ← hrun, ← sortedBy_fst_map, ← hjson] at hmembers
      have hwalk := (consumeNode_spends depth path).andThen
        ((consumeKeys_spends path entries).andThen (hmembers.map Json.object))
      refine hwalk.congr ?_ ?_ ?_
      · rw [Encodable, haccepted]
        simp only [mem_sortedBy]
      · rw [nodeCount, hnodes, (hperm.map Member.nodes).sum_eq, Nat.zero_add]
      · rw [textBytes, htext, (hperm.map Member.textBytes).sum_eq, Nat.zero_add]
  | .enum value => by
      have hwalk := (consumeNode_spends depth path).andThen
        (normalizeValue_spends (path ++ "<enum-value>") (depth + 1) value)
      exact hwalk.congr (by simp [Encodable]) rfl (by simp [textBytes])
  | .invalidEnum complaint => by
      have hwalk := (consumeNode_spends depth path).andThen
        (Spends.refuse complaint path 0 0 Json.null)
      exact hwalk.congr (by simp [Encodable]) rfl rfl
  | .other => by
      have hwalk := (consumeNode_spends depth path).andThen
        (Spends.refuse "unsupported value type" path 0 0 Json.null)
      exact hwalk.congr (by simp [Encodable]) rfl rfl

theorem normalizeSequence_spends (path : String) (depth index : Nat) : ∀ items : List PyValue,
    Spends (Budgeted.normalizeSequence path depth index items) (EncodableItems depth items)
      (nodeCountItems items) (textBytesItems items) (normalFormItems items)
  | [] => Spends.pure []
  | item :: rest => by
      have hrest := (normalizeSequence_spends path depth (index + 1) rest).map fun values =>
        normalForm item :: values
      exact (normalizeValue_spends (path ++ "[" ++ toString index ++ "]") depth item).bind
        (f := fun value => Budgeted.normalizeSequence path depth (index + 1) rest >>= fun values =>
          pure (value :: values)) hrest

theorem exists_members (depth : Nat) : ∀ entries : List (PyKey × PyValue),
    ∃ members : List Member,
      normalizers depth entries = members.map (fun m => (m.key, m.run)) ∧
      normalFormEntries entries = members.map (fun m => (m.key, m.json)) ∧
      (EncodableEntries depth entries ↔ ∀ m ∈ members, m.accepted) ∧
      nodeCountEntries entries = (members.map Member.nodes).sum ∧
      textBytesEntries entries = (members.map Member.textBytes).sum
  | [] => ⟨[], rfl, rfl, by simp [EncodableEntries], rfl, rfl⟩
  | (key, item) :: rest => by
      obtain ⟨members, hrun, hjson, haccepted, hnodes, htext⟩ := exists_members depth rest
      cases hkey : key.text? with
      | none =>
          refine ⟨members, ?_, ?_, ?_, ?_, ?_⟩
          all_goals simp only [normalizers, normalFormEntries, EncodableEntries, nodeCountEntries,
            textBytesEntries, hkey]
          all_goals assumption
      | some text =>
          let member : Member := ⟨text, fun path => normalizeValue path depth item,
            Encodable depth item, nodeCount item, textBytes item, normalForm item,
            fun path => normalizeValue_spends path depth item⟩
          refine ⟨member :: members, ?_, ?_, ?_, ?_, ?_⟩
          all_goals simp only [normalizers, normalFormEntries, EncodableEntries, nodeCountEntries,
            textBytesEntries, hkey, List.map_cons, List.sum_cons, List.forall_mem_cons]
          · rw [hrun]
          · rw [hjson]
          · rw [haccepted]
          · rw [hnodes]
          · rw [htext]
end

/-! ## What is accepted -/

/-- The bytes of a normal form. -/
def renderedBytes (value : Json) : ByteArray := (String.ofList value.dumps).toByteArray

/-- The encoder accepts the value. -/
def Accepted (value : PyValue) : Prop :=
  Encodable 0 value ∧ nodeCount value ≤ maxNodes ∧ textBytes value ≤ maxTextBytes ∧
    (String.ofList (normalForm value).dumps).utf8ByteSize ≤ maxOutputBytes

/-- The encoder renders the normal form of what it accepts. -/
theorem canonicalJsonBytes_eq_ok_iff {value : PyValue} {bytes : ByteArray} :
    canonicalJsonBytes value = .ok bytes ↔
      Accepted value ∧ bytes = renderedBytes (normalForm value) := by
  simp only [canonicalJsonBytes, bind_eq_ok, Prod.exists, rejectIf_eq_ok, pure_eq_ok, not_lt]
  constructor
  · rintro ⟨json, after, hwalk, -, houtput, rfl⟩
    obtain ⟨hencodable, rfl, hnodes, htext⟩ := (normalizeValue_spends "$" 0 value _ _ _).1 hwalk
    have hnodesLe := after.nodes_le
    have htextLe := after.textBytes_le
    rw [hnodes, Nat.zero_add] at hnodesLe
    rw [htext, Nat.zero_add] at htextLe
    exact ⟨⟨hencodable, hnodesLe, htextLe, houtput⟩, rfl⟩
  · rintro ⟨⟨hencodable, hnodes, htext, houtput⟩, rfl⟩
    let after : Budget := ⟨nodeCount value, textBytes value, hnodes, htext⟩
    refine ⟨normalForm value, after, ?_, (), houtput, rfl⟩
    exact (normalizeValue_spends "$" 0 value _ _ _).2
      ⟨hencodable, rfl, (Nat.zero_add _).symm, (Nat.zero_add _).symm⟩

/-- Bytes determine the normal form. -/
theorem renderedBytes_injective : Function.Injective renderedBytes := by
  intro v w h
  have htext := String.toByteArray_inj.1 h
  exact Json.dumps_injective (String.ofList_injective htext)

/-! ## Texts of decimals and instants -/

/-- Every character is one byte. -/
def Ascii (text : List Char) : Prop := ∀ c ∈ text, c.utf8Size = 1

theorem utf8Size_of_isDigit {c : Char} (h : c.isDigit = true) : c.utf8Size = 1 := by
  have hle : c.val ≤ 57 := by
    simp only [Char.isDigit, Bool.and_eq_true, decide_eq_true_eq] at h
    exact h.2
  have hsmall : c.val ≤ 127 := UInt32.le_trans hle (by decide)
  rw [Char.utf8Size]
  simp [hsmall]

theorem Ascii.utf8ByteSize {text : List Char} (h : Ascii text) :
    (String.ofList text).utf8ByteSize = text.length := by
  induction text with
  | nil => rfl
  | cons c rest ih =>
      rw [utf8ByteSize_ofList_cons, h c List.mem_cons_self, List.length_cons,
        ih fun d hd => h d (List.mem_cons_of_mem _ hd), Nat.add_comm]

theorem Ascii.append {text more : List Char} (h : Ascii text) (h' : Ascii more) :
    Ascii (text ++ more) := by
  intro c hc
  rcases List.mem_append.1 hc with hc | hc
  · exact h c hc
  · exact h' c hc

theorem Ascii.cons {c : Char} {text : List Char} (hc : c.utf8Size = 1) (h : Ascii text) :
    Ascii (c :: text) := by
  intro d hd
  rcases List.mem_cons.1 hd with rfl | hd
  · exact hc
  · exact h d hd

theorem ascii_of_digits {text : List Char} (h : ∀ c ∈ text, c.isDigit = true) : Ascii text :=
  fun c hc => utf8Size_of_isDigit (h c hc)

theorem ascii_padded (width n : Nat) : Ascii (padded width n) :=
  ascii_of_digits fun _ => isDigit_of_mem_padded

theorem ascii_plainChars (number : Decimal) : Ascii number.plainChars := by
  obtain ⟨whole, fraction, hplain, -, hwhole, hfraction, -⟩ := Decimal.exists_plainChars number
  rw [hplain]
  have hsign : Ascii number.signChars := by
    unfold Decimal.signChars
    split
    · exact Ascii.cons rfl nofun
    · exact nofun
  have hpointed : Ascii (Decimal.pointed fraction) := by
    unfold Decimal.pointed
    split
    · exact nofun
    · exact Ascii.cons rfl (ascii_of_digits hfraction)
  exact hsign.append ((ascii_of_digits hwhole).append hpointed)

theorem ascii_decimalChars (number : Decimal) : Ascii (decimalChars number) := by
  unfold decimalChars
  split
  · exact Ascii.cons rfl nofun
  split
  · exact Ascii.cons rfl nofun
  · exact ascii_plainChars number

/-- A number and its separator in front of a text. -/
theorem ascii_padded_cons {width n : Nat} {c : Char} {text : List Char} (hc : c.utf8Size = 1)
    (h : Ascii text) : Ascii (padded width n ++ c :: text) :=
  (ascii_padded width n).append (Ascii.cons hc h)

theorem ascii_isoChars (instant : Instant) : Ascii (isoChars instant) := by
  have hyear : ∀ year, Ascii (yearChars year) := by
    intro year
    unfold yearChars
    split
    · exact Ascii.cons rfl (ascii_padded _ _)
    · exact ascii_padded _ _
  simp only [isoChars]
  apply (hyear _).append
  apply Ascii.cons rfl
  apply ascii_padded_cons rfl
  apply ascii_padded_cons rfl
  apply ascii_padded_cons rfl
  apply ascii_padded_cons rfl
  apply ascii_padded_cons rfl
  exact ascii_padded_cons rfl fun c hc => absurd hc List.not_mem_nil

theorem length_stripFraction_le (text : List Char) :
    (Decimal.stripFraction text).length ≤ text.length := by
  unfold Decimal.stripFraction
  split
  · exact ((List.rdropWhile_prefix _ _).length_le).trans (List.rdropWhile_prefix _ _).length_le
  · exact le_rfl

/-- The bound on the rendered length holds of the plain text. -/
theorem length_plainChars_le (number : Decimal) :
    (number.plainChars.length : Int) ≤ maximumCharacters number := by
  have hstrip : number.plainChars.length ≤ number.fixedChars.length := length_stripFraction_le _
  have hsign : (number.signChars.length : Int) = if number.coefficient < 0 then 1 else 0 := by
    unfold Decimal.signChars
    split <;> rfl
  have hpos : 0 < (Nat.toDigits 10 number.coefficient.natAbs).length := Nat.length_toDigits_pos
  have hdigits : number.coefficient.natAbs <
      10 ^ (Nat.toDigits 10 number.coefficient.natAbs).length :=
    (Nat.length_toDigits_le_iff (by decide) hpos).1 le_rfl
  rw [maximumCharacters]
  set n := number.coefficient.natAbs with hn
  set count := (Nat.toDigits 10 n).length with hcount
  have hmax : max 1 (count : Int) = count := max_eq_right (by exact_mod_cast hpos)
  simp only [hmax]
  cases hexponent : number.exponent with
  | ofNat zeros =>
      have hfixed : number.fixedChars.length = number.signChars.length + (count + zeros) := by
        rw [Decimal.fixedChars, hexponent, List.length_append, List.length_append,
          List.length_replicate]
      have hzeros : Int.ofNat zeros = (zeros : Int) := rfl
      rw [hzeros, if_pos (Int.natCast_nonneg zeros)]
      omega
  | negSucc k =>
      have hshown : (padded (k + 1) (n % 10 ^ (k + 1))).length = k + 1 :=
        Decimal.length_padded (Nat.succ_pos k) (Nat.mod_lt _ (by positivity))
      have hfixed : number.fixedChars.length = number.signChars.length +
          ((Nat.toDigits 10 (n / 10 ^ (k + 1))).length + (k + 1 + 1)) := by
        rw [Decimal.fixedChars, hexponent, List.length_append, List.length_append,
          List.length_cons, hshown]
      have hnegative : Int.negSucc k = -((k : Int) + 1) := rfl
      rw [if_neg (by omega)]
      by_cases hlarge : k + 1 < count
      · have hwhole : (Nat.toDigits 10 (n / 10 ^ (k + 1))).length ≤ count - (k + 1) := by
          rw [Nat.length_toDigits_le_iff (by decide) (by omega)]
          apply Nat.div_lt_of_lt_mul
          rwa [← pow_add, Nat.add_sub_cancel' (le_of_lt hlarge)]
        rw [if_pos (by omega)]
        omega
      · have hzero : n / 10 ^ (k + 1) = 0 := by
          apply Nat.div_eq_of_lt
          exact lt_of_lt_of_le hdigits (Nat.pow_le_pow_right (by decide) (not_lt.1 hlarge))
        rw [hzero, Nat.toDigits_zero, List.length_singleton] at hfixed
        rw [if_neg (by omega)]
        omega

theorem length_decimalChars_le {number : Decimal} (h : DecimalFits number) :
    (decimalChars number).length ≤ maxDecimalCharacters := by
  unfold decimalChars
  split
  · decide
  · next hne =>
      split
      · decide
      · have hlength := length_plainChars_le number
        have hbound := h.resolve_left hne
        omega

theorem length_padded_le {width k n : Nat} (hk : 0 < k) (h : n < 10 ^ k) :
    (padded width n).length ≤ max width k := by
  have hlength := (Nat.length_toDigits_le_iff (by decide : 1 < 10) hk).2 h
  rw [padded, List.length_append, List.length_replicate]
  omega

end AdaptiveTrader
