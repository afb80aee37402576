import AdaptiveTrader.Platform.CanonicalNormalForm

/-!
# Canonical bytes as a normal form of values

Reading canonical bytes gives a value in its own normal form, so encoding it again gives the bytes;
and the bytes tell two values apart exactly when their plain forms differ. Texts of decimals and
instants tell numbers and instants apart. `canonical_encoding_normal_form` puts these together.
-/

set_option autoImplicit false

namespace AdaptiveTrader

open Foundation

/-! ## Texts of instants are short -/

-- The equations of the definitions, stated once for all the proofs below.
attribute [local simp] monthDay ordinalDate yearChars isoChars dayMicroseconds ofJsonMembers keysOf
  PyKey.text? nodeCountEntries textBytesEntries EncodableEntries normalFormEntries in
theorem monthDay_small (leap : Bool) {n : Nat} (h : n < 365) :
    (monthDay leap n).1 < 10 ^ 3 ∧ (monthDay leap n).2 < 10 ^ 3 := by
  simp only [monthDay]
  split
  · constructor
    · show (n + 50) / 32 - 1 < 10 ^ 3
      omega
    · show n - daysBeforeMonth leap ((n + 50) / 32 - 1) + 1 < 10 ^ 3
      omega
  · constructor
    · show (n + 50) / 32 < 10 ^ 3
      omega
    · show n - daysBeforeMonth leap ((n + 50) / 32) + 1 < 10 ^ 3
      omega

/-- The days of `datetime` have dates of few digits. -/
theorem ordinalDate_small {ordinal : Int} (hmin : 0 ≤ ordinal) (hmax : ordinal ≤ 3652060) :
    (ordinalDate ordinal).year.natAbs < 10 ^ 5 ∧ (ordinalDate ordinal).month < 10 ^ 3 ∧
      (ordinalDate ordinal).day < 10 ^ 3 := by
  simp only [ordinalDate]
  split
  · refine ⟨?_, show 12 < 10 ^ 3 by decide, show 31 < 10 ^ 3 by decide⟩
    dsimp only
    omega
  · refine ⟨?_, (monthDay_small _ ?_).1, (monthDay_small _ ?_).2⟩
    · dsimp only
      omega
    · omega
    · omega

theorem length_yearChars_le {year : Int} (h : year.natAbs < 10 ^ 5) :
    (yearChars year).length ≤ 6 := by
  have hpadded := @length_padded_le 4 5 year.natAbs (by decide) h
  unfold yearChars
  split
  · rw [List.length_cons]
    omega
  · omega

theorem length_isoChars_le {instant : Instant} (hmin : datetimeMin ≤ instant)
    (hmax : instant ≤ datetimeMax) : (isoChars instant).length ≤ maxStringBytes := by
  have hmin : (-62135596800000000 : Int) ≤ instant := hmin
  have hmax : @LE.le Int _ instant 253402300799999999 := hmax
  obtain ⟨hyear, hmonth, hday⟩ := @ordinalDate_small (instant / dayMicroseconds + 719163)
    (by unfold dayMicroseconds; omega) (by unfold dayMicroseconds; omega)
  obtain ⟨time, htime⟩ : ∃ time, (instant % dayMicroseconds).toNat = time := ⟨_, rfl⟩
  have hlt : time < 86400000000 := by
    unfold dayMicroseconds at htime
    omega
  have hyearLength := length_yearChars_le hyear
  have hmonthLength := @length_padded_le 2 3 _ (by decide) hmonth
  have hdayLength := @length_padded_le 2 3 _ (by decide) hday
  have hhour := @length_padded_le 2 2 (time / 3600000000) (by decide) (by omega)
  have hminute := @length_padded_le 2 2 (time / 60000000 % 60) (by decide) (by omega)
  have hsecond := @length_padded_le 2 2 (time / 1000000 % 60) (by decide) (by omega)
  have hmicrosecond := @length_padded_le 6 6 (time % 1000000) (by decide) (by omega)
  simp only [isoChars, htime, List.length_append, List.length_cons, List.length_nil, maxStringBytes]
  omega

/-! ## Mappings that were read -/

theorem ofJsonMembers_eq (members : List (String × Json)) :
    ofJsonMembers members = members.map fun m => (.str (.scalars m.1), ofJson m.2) := by
  induction members with
  | nil => rfl
  | cons m rest ih => rw [ofJsonMembers, ih, List.map_cons]

theorem keysOf_ofJsonMembers (members : List (String × Json)) :
    keysOf (ofJsonMembers members) = members.map Prod.fst := by
  induction members with
  | nil => rfl
  | cons m rest ih =>
      have hfirst : (PyKey.str (.scalars m.1)).text? = some m.1 := rfl
      rw [List.map_cons, ← ih]
      simp only [ofJsonMembers, keysOf, List.filterMap_cons, hfirst]

theorem nodeCountEntries_ofJsonMembers (members : List (String × Json)) :
    nodeCountEntries (ofJsonMembers members) =
      (members.map fun m => nodeCount (ofJson m.2)).sum := by
  induction members with
  | nil => rfl
  | cons m rest ih =>
      simp only [ofJsonMembers, nodeCountEntries, PyKey.text?, ih, List.map_cons, List.sum_cons]

theorem textBytesEntries_ofJsonMembers (members : List (String × Json)) :
    textBytesEntries (ofJsonMembers members) =
      (members.map fun m => textBytes (ofJson m.2)).sum := by
  induction members with
  | nil => rfl
  | cons m rest ih =>
      simp only [ofJsonMembers, textBytesEntries, PyKey.text?, ih, List.map_cons, List.sum_cons]

theorem encodableEntries_ofJsonMembers (depth : Nat) (members : List (String × Json)) :
    EncodableEntries depth (ofJsonMembers members) ↔
      ∀ m ∈ members, Encodable depth (ofJson m.2) := by
  induction members with
  | nil => simp [ofJsonMembers, EncodableEntries]
  | cons m rest ih =>
      simp only [ofJsonMembers, EncodableEntries, PyKey.text?, ih, List.forall_mem_cons]

theorem normalFormEntries_ofJsonMembers (members : List (String × Json)) :
    normalFormEntries (ofJsonMembers members) =
      members.map fun m => (m.1, normalForm (ofJson m.2)) := by
  induction members with
  | nil => rfl
  | cons m rest ih =>
      simp only [ofJsonMembers, normalFormEntries, PyKey.text?, ih, List.map_cons]

/-- The members of a normal form have the keys of the mapping. -/
theorem map_fst_normalFormEntries (entries : List (PyKey × PyValue)) :
    (normalFormEntries entries).map Prod.fst = keysOf entries := by
  induction entries with
  | nil => rfl
  | cons entry rest ih =>
      obtain ⟨key, item⟩ := entry
      cases hkey : key.text? with
      | none => simp only [normalFormEntries, keysOf, hkey, List.filterMap_cons, ih]
      | some text =>
          simp only [normalFormEntries, keysOf, hkey, List.filterMap_cons, List.map_cons, ih]

/-- The keys of an encodable mapping that was read fit when they fit before. -/
theorem forall_keyFits_iff {members : List (String × Json)} :
    (∀ entry ∈ ofJsonMembers members, KeyFits entry.1) ↔
      ∀ m ∈ members, m.1.utf8ByteSize ≤ maxStringBytes := by
  rw [ofJsonMembers_eq, List.forall_mem_map]
  simp [KeyFits, StringFits]

theorem forall_keysOf_le {α : Type} {entries : List (PyKey × α)}
    (h : ∀ entry ∈ entries, KeyFits entry.1) :
    ∀ key ∈ keysOf entries, key.utf8ByteSize ≤ maxStringBytes := by
  intro key hkey
  obtain ⟨entry, hentry, htext⟩ := List.mem_filterMap.1 hkey
  obtain ⟨text, hstr, scalars, rfl, hle⟩ := h entry hentry
  rw [hstr] at htext
  cases htext
  exact hle

/-! ## Normal forms are their own normal forms -/

mutual
/-- What may be encoded may be encoded further up. -/
theorem Encodable.of_succ {depth : Nat} : ∀ value : PyValue,
    Encodable (depth + 1) value → Encodable depth value
  | .none, h => Nat.le_of_succ_le h
  | .bool _, h => Nat.le_of_succ_le h
  | .int _, h => ⟨Nat.le_of_succ_le h.1, h.2⟩
  | .str _, h => ⟨Nat.le_of_succ_le h.1, h.2⟩
  | .decimal _, h => ⟨Nat.le_of_succ_le h.1, h.2⟩
  | .datetime _, h => ⟨Nat.le_of_succ_le h.1, h.2⟩
  | .list items, h => ⟨Nat.le_of_succ_le h.1, EncodableItems.of_succ items h.2⟩
  | .tuple items, h => ⟨Nat.le_of_succ_le h.1, EncodableItems.of_succ items h.2⟩
  | .dict entries, h => ⟨Nat.le_of_succ_le h.1, h.2.1, EncodableEntries.of_succ entries h.2.2⟩
  | .enum value, h => ⟨Nat.le_of_succ_le h.1, Encodable.of_succ value h.2⟩
  | .nonfiniteDecimal, h => h.elim
  | .invalidEnum _, h => h.elim
  | .other, h => h.elim

theorem EncodableItems.of_succ {depth : Nat} : ∀ items : List PyValue,
    EncodableItems (depth + 1) items → EncodableItems depth items
  | [], _ => trivial
  | item :: rest, h => ⟨Encodable.of_succ item h.1, EncodableItems.of_succ rest h.2⟩

theorem EncodableEntries.of_succ {depth : Nat} : ∀ entries : List (PyKey × PyValue),
    EncodableEntries (depth + 1) entries → EncodableEntries depth entries
  | [], _ => trivial
  | (key, item) :: rest, h => by
      unfold EncodableEntries at h ⊢
      cases hkey : key.text? with
      | none =>
          rw [hkey] at h
          exact EncodableEntries.of_succ rest h
      | some text =>
          rw [hkey] at h
          exact ⟨Encodable.of_succ item h.1, EncodableEntries.of_succ rest h.2⟩
end

/-- A normal form that was read back costs no more than the value did, may be encoded where the value
stood and is its own normal form. -/
structure AsRead (depth : Nat) (value : PyValue) (json : Json) : Prop where
  encodable : Encodable depth (ofJson json)
  nodes : nodeCount (ofJson json) ≤ nodeCount value
  text : textBytes (ofJson json) = textBytes value
  normal : normalForm (ofJson json) = json

mutual
theorem asRead_normalForm {depth : Nat} : ∀ value : PyValue, Encodable depth value →
    AsRead depth value (normalForm value)
  | .none, h => ⟨h, le_rfl, rfl, rfl⟩
  | .bool _, h => ⟨h, le_rfl, rfl, rfl⟩
  | .int _, h => ⟨h, le_rfl, rfl, rfl⟩
  | .str text, h => by
      obtain ⟨hdepth, scalars, rfl, hle⟩ := h
      exact ⟨⟨hdepth, scalars, rfl, hle⟩, le_rfl, rfl, rfl⟩
  | .decimal number, h => by
      have hsize := (ascii_decimalChars number).utf8ByteSize
      have hle := length_decimalChars_le h.2
      refine ⟨⟨h.1, _, rfl, ?_⟩, le_rfl, hsize, rfl⟩
      rw [hsize]
      exact hle.trans (by decide)
  | .datetime instant, h => by
      have hsize := (ascii_isoChars instant.utc).utf8ByteSize
      have hle := length_isoChars_le h.2.2.1 h.2.2.2
      refine ⟨⟨h.1, _, rfl, ?_⟩, le_rfl, hsize, rfl⟩
      rw [hsize]
      exact hle
  | .list items, h => by
      obtain ⟨hencodable, hnodes, htext, hnormal⟩ := asRead_normalFormItems items h.2
      exact ⟨⟨h.1, hencodable⟩, Nat.add_le_add_left hnodes 1, htext, congrArg Json.array hnormal⟩
  | .tuple items, h => by
      obtain ⟨hencodable, hnodes, htext, hnormal⟩ := asRead_normalFormItems items h.2
      exact ⟨⟨h.1, hencodable⟩, Nat.add_le_add_left hnodes 1, htext, congrArg Json.array hnormal⟩
  | .dict entries, h => by
      obtain ⟨hdepth, hkeys, hentries⟩ := h
      obtain ⟨hmembers, hnodes, htext⟩ := asRead_normalFormEntries entries hentries
      have hperm := sortedBy_perm Prod.fst (normalFormEntries entries)
      have hfits := forall_keysOf_le hkeys
      rw [← map_fst_normalFormEntries, List.forall_mem_map] at hfits
      refine ⟨⟨hdepth, ?_, ?_⟩, ?_, ?_, ?_⟩
      · rw [forall_keyFits_iff]
        exact fun m hm => hfits m (mem_sortedBy.1 hm)
      · rw [encodableEntries_ofJsonMembers]
        exact fun m hm => (hmembers m (mem_sortedBy.1 hm)).1
      · show 1 + nodeCountEntries (ofJsonMembers _) ≤ 1 + nodeCountEntries entries
        rw [nodeCountEntries_ofJsonMembers, (hperm.map _).sum_eq]
        exact Nat.add_le_add_left hnodes 1
      · show ((keysOf (ofJsonMembers _)).map String.utf8ByteSize).sum +
          textBytesEntries (ofJsonMembers _) = _
        rw [keysOf_ofJsonMembers, textBytesEntries_ofJsonMembers, List.map_map,
          (hperm.map _).sum_eq, (hperm.map _).sum_eq, htext, textBytes,
          ← map_fst_normalFormEntries, List.map_map]
      · show Json.object (sortedBy Prod.fst (normalFormEntries (ofJsonMembers _))) = _
        have hsame : (sortedBy Prod.fst (normalFormEntries entries)).map
            (fun m => (m.1, normalForm (ofJson m.2))) =
              sortedBy Prod.fst (normalFormEntries entries) := by
          conv_rhs => rw [← List.map_id (sortedBy Prod.fst (normalFormEntries entries))]
          apply List.map_congr_left
          intro m hm
          rw [(hmembers m (mem_sortedBy.1 hm)).2]
          rfl
        rw [normalFormEntries_ofJsonMembers, hsame, sortedBy_sortedBy, normalForm]
  | .enum value, h => by
      obtain ⟨hencodable, hnodes, htext, hnormal⟩ := asRead_normalForm value h.2
      exact ⟨Encodable.of_succ _ hencodable, hnodes.trans (Nat.le_add_left _ _), htext, hnormal⟩
  | .nonfiniteDecimal, h => h.elim
  | .invalidEnum _, h => h.elim
  | .other, h => h.elim

theorem asRead_normalFormItems {depth : Nat} : ∀ items : List PyValue, EncodableItems depth items →
    EncodableItems depth (ofJsonItems (normalFormItems items)) ∧
      nodeCountItems (ofJsonItems (normalFormItems items)) ≤ nodeCountItems items ∧
      textBytesItems (ofJsonItems (normalFormItems items)) = textBytesItems items ∧
      normalFormItems (ofJsonItems (normalFormItems items)) = normalFormItems items
  | [], _ => ⟨trivial, le_rfl, rfl, rfl⟩
  | item :: rest, h => by
      have hitem := asRead_normalForm item h.1
      obtain ⟨hencodable, hnodes, htext, hnormal⟩ := asRead_normalFormItems rest h.2
      refine ⟨⟨hitem.encodable, hencodable⟩, Nat.add_le_add hitem.nodes hnodes, ?_, ?_⟩
      · exact congrArg₂ (· + ·) hitem.text htext
      · exact congrArg₂ List.cons hitem.normal hnormal

theorem asRead_normalFormEntries {depth : Nat} : ∀ entries : List (PyKey × PyValue),
    EncodableEntries depth entries →
      (∀ m ∈ normalFormEntries entries,
        Encodable depth (ofJson m.2) ∧ normalForm (ofJson m.2) = m.2) ∧
      ((normalFormEntries entries).map fun m => nodeCount (ofJson m.2)).sum ≤
        nodeCountEntries entries ∧
      ((normalFormEntries entries).map fun m => textBytes (ofJson m.2)).sum =
        textBytesEntries entries
  | [], _ => ⟨by simp [normalFormEntries], le_rfl, rfl⟩
  | (key, item) :: rest, h => by
      cases hkey : key.text? with
      | none =>
          simp only [EncodableEntries, hkey] at h
          simp only [normalFormEntries, nodeCountEntries, textBytesEntries, hkey]
          exact asRead_normalFormEntries rest h
      | some text =>
          simp only [EncodableEntries, hkey] at h
          have hitem := asRead_normalForm item h.1
          obtain ⟨hmembers, hnodes, htext⟩ := asRead_normalFormEntries rest h.2
          simp only [normalFormEntries, nodeCountEntries, textBytesEntries, hkey, List.map_cons,
            List.sum_cons, List.forall_mem_cons]
          exact ⟨⟨⟨hitem.encodable, hitem.normal⟩, hmembers⟩, Nat.add_le_add hitem.nodes hnodes,
            congrArg₂ (· + ·) hitem.text htext⟩
end

/-! ## Values up to what the encoding ignores -/

/-- A value as data: a mapping is the function of its keys, tuples are lists, an enum member is its
value, and a decimal or an instant is its text. `other` is what cannot be encoded. -/
inductive Plain
  | none
  | bool (value : Bool)
  | int (value : Int)
  | text (value : String)
  | sequence (items : List Plain)
  | mapping (members : String → Option Plain)
  | other

mutual
def PyValue.plain : PyValue → Plain
  | .none => .none
  | .bool value => .bool value
  | .int value => .int value
  | .str text => .text text.textD
  | .decimal number => .text (String.ofList (decimalChars number))
  | .datetime instant => .text (String.ofList (isoChars instant.utc))
  | .list items => .sequence (plainItems items)
  | .tuple items => .sequence (plainItems items)
  | .dict entries => .mapping fun key => Dict.lookup key (plainEntries entries)
  | .enum value => value.plain
  | _ => .other

def plainItems : List PyValue → List Plain
  | [] => []
  | item :: rest => item.plain :: plainItems rest

def plainEntries : List (PyKey × PyValue) → List (String × Plain)
  | [] => []
  | (key, item) :: rest =>
      match key.text? with
      | some text => (text, item.plain) :: plainEntries rest
      | none => plainEntries rest
end

mutual
/-- A JSON value as data. -/
def jsonPlain : Json → Plain
  | .null => .none
  | .bool value => .bool value
  | .int value => .int value
  | .text value => .text value
  | .array items => .sequence (jsonPlainItems items)
  | .object members => .mapping fun key => Dict.lookup key (jsonPlainMembers members)

def jsonPlainItems : List Json → List Plain
  | [] => []
  | item :: rest => jsonPlain item :: jsonPlainItems rest

def jsonPlainMembers : List (String × Json) → List (String × Plain)
  | [] => []
  | (key, item) :: rest => (key, jsonPlain item) :: jsonPlainMembers rest
end

mutual
/-- The members of every object ascend. -/
def OrderedObjects : Json → Prop
  | .array items => OrderedObjectsItems items
  | .object members =>
      (members.map Prod.fst).Pairwise (· < ·) ∧ OrderedObjectsMembers members
  | _ => True

def OrderedObjectsItems : List Json → Prop
  | [] => True
  | item :: rest => OrderedObjects item ∧ OrderedObjectsItems rest

def OrderedObjectsMembers : List (String × Json) → Prop
  | [] => True
  | (_, item) :: rest => OrderedObjects item ∧ OrderedObjectsMembers rest
end

theorem orderedObjectsMembers_iff {members : List (String × Json)} :
    OrderedObjectsMembers members ↔ ∀ m ∈ members, OrderedObjects m.2 := by
  induction members with
  | nil => simp [OrderedObjectsMembers]
  | cons m rest ih => rw [OrderedObjectsMembers, ih, List.forall_mem_cons]

theorem jsonPlainMembers_eq (members : List (String × Json)) :
    jsonPlainMembers members = members.map fun m => (m.1, jsonPlain m.2) := by
  induction members with
  | nil => rfl
  | cons m rest ih => rw [jsonPlainMembers, ih, List.map_cons]

theorem map_fst_jsonPlainMembers (members : List (String × Json)) :
    (jsonPlainMembers members).map Prod.fst = members.map Prod.fst := by
  rw [jsonPlainMembers_eq, List.map_map]
  rfl

/-- A lookup does not see the order of distinct keys. -/
theorem lookup_eq_of_perm {α : Type} {l m : List (String × α)} (hn : (l.map Prod.fst).Nodup)
    (hp : l.Perm m) (key : String) : Dict.lookup key l = Dict.lookup key m := by
  have hn' : (m.map Prod.fst).Nodup := (hp.map Prod.fst).nodup_iff.1 hn
  cases h : Dict.lookup key l with
  | none =>
      rw [Dict.lookup_eq_none_iff] at h
      rw [eq_comm, Dict.lookup_eq_none_iff]
      exact fun hmem => h ((hp.map Prod.fst).mem_iff.2 hmem)
  | some a => exact (Dict.lookup_of_mem hn' (hp.mem_iff.1 (Dict.mem_of_lookup h))).symm

mutual
/-- In a normal form the objects are ordered. -/
theorem orderedObjects_normalForm : ∀ value : PyValue, value.DistinctKeys →
    OrderedObjects (normalForm value)
  | .none, _ => trivial
  | .bool _, _ => trivial
  | .int _, _ => trivial
  | .str _, _ => trivial
  | .decimal _, _ => trivial
  | .nonfiniteDecimal, _ => trivial
  | .datetime _, _ => trivial
  | .list items, h => orderedObjects_normalFormItems items h
  | .tuple items, h => orderedObjects_normalFormItems items h
  | .dict entries, h => by
      obtain ⟨hkeys, hentries⟩ := h
      rw [← map_fst_normalFormEntries] at hkeys
      constructor
      · exact List.pairwise_map.2 (sortedBy_pairwise_lt hkeys)
      · rw [orderedObjectsMembers_iff]
        intro m hm
        exact orderedObjects_normalFormEntries entries hentries m (mem_sortedBy.1 hm)
  | .enum value, h => orderedObjects_normalForm value h
  | .invalidEnum _, _ => trivial
  | .other, _ => trivial

theorem orderedObjects_normalFormItems : ∀ items : List PyValue, DistinctKeysItems items →
    OrderedObjectsItems (normalFormItems items)
  | [], _ => trivial
  | item :: rest, h =>
      ⟨orderedObjects_normalForm item h.1, orderedObjects_normalFormItems rest h.2⟩

theorem orderedObjects_normalFormEntries : ∀ entries : List (PyKey × PyValue),
    DistinctKeysEntries entries → ∀ m ∈ normalFormEntries entries, OrderedObjects m.2
  | [], _ => by simp [normalFormEntries]
  | (key, item) :: rest, h => by
      have hrest := orderedObjects_normalFormEntries rest h.2
      cases hkey : key.text? with
      | none =>
          simp only [normalFormEntries, hkey]
          exact hrest
      | some text =>
          simp only [normalFormEntries, hkey, List.forall_mem_cons]
          exact ⟨orderedObjects_normalForm item h.1, hrest⟩
end

mutual
/-- A normal form is the same data as the value. -/
theorem jsonPlain_normalForm {depth : Nat} : ∀ value : PyValue, Encodable depth value →
    value.DistinctKeys → jsonPlain (normalForm value) = value.plain
  | .none, _, _ => rfl
  | .bool _, _, _ => rfl
  | .int _, _, _ => rfl
  | .str _, _, _ => rfl
  | .decimal _, _, _ => rfl
  | .datetime _, _, _ => rfl
  | .list items, h, hd => congrArg Plain.sequence (jsonPlain_normalFormItems items h.2 hd)
  | .tuple items, h, hd => congrArg Plain.sequence (jsonPlain_normalFormItems items h.2 hd)
  | .dict entries, h, hd => by
      obtain ⟨hkeys, hentries⟩ := hd
      have hplain := jsonPlain_normalFormEntries entries h.2.2 hentries
      have hperm : (jsonPlainMembers (sortedBy Prod.fst (normalFormEntries entries))).Perm
          (plainEntries entries) := by
        rw [← hplain, jsonPlainMembers_eq, jsonPlainMembers_eq]
        exact (sortedBy_perm Prod.fst _).map _
      have hnodup : ((jsonPlainMembers (sortedBy Prod.fst (normalFormEntries entries))).map
          Prod.fst).Nodup := by
        rw [map_fst_jsonPlainMembers]
        apply ((sortedBy_perm Prod.fst (normalFormEntries entries)).map Prod.fst).nodup_iff.2
        rwa [map_fst_normalFormEntries]
      rw [normalForm, jsonPlain, PyValue.plain]
      exact congrArg Plain.mapping (funext (lookup_eq_of_perm hnodup hperm))
  | .enum value, h, hd => jsonPlain_normalForm value h.2 hd
  | .nonfiniteDecimal, h, _ => h.elim
  | .invalidEnum _, h, _ => h.elim
  | .other, h, _ => h.elim

theorem jsonPlain_normalFormItems {depth : Nat} : ∀ items : List PyValue,
    EncodableItems depth items → DistinctKeysItems items →
      jsonPlainItems (normalFormItems items) = plainItems items
  | [], _, _ => rfl
  | item :: rest, h, hd => congrArg₂ List.cons (jsonPlain_normalForm item h.1 hd.1)
      (jsonPlain_normalFormItems rest h.2 hd.2)

theorem jsonPlain_normalFormEntries {depth : Nat} : ∀ entries : List (PyKey × PyValue),
    EncodableEntries depth entries → DistinctKeysEntries entries →
      jsonPlainMembers (normalFormEntries entries) = plainEntries entries
  | [], _, _ => rfl
  | (key, item) :: rest, h, hd => by
      cases hkey : key.text? with
      | none =>
          simp only [EncodableEntries, hkey] at h
          simp only [normalFormEntries, plainEntries, hkey]
          exact jsonPlain_normalFormEntries rest h hd.2
      | some text =>
          simp only [EncodableEntries, hkey] at h
          simp only [normalFormEntries, plainEntries, hkey, jsonPlainMembers]
          rw [jsonPlain_normalForm item h.1 hd.1, jsonPlain_normalFormEntries rest h.2 hd.2]
end

/-- Ascending members with the same lookups have the same keys. -/
theorem map_fst_eq_of_lookup {α : Type} {l m : List (String × α)}
    (hl : (l.map Prod.fst).Pairwise (· < ·)) (hm : (m.map Prod.fst).Pairwise (· < ·))
    (h : ∀ key, Dict.lookup key l = Dict.lookup key m) : l.map Prod.fst = m.map Prod.fst := by
  have hmem : ∀ key, key ∈ l.map Prod.fst ↔ key ∈ m.map Prod.fst := by
    intro key
    rw [← not_iff_not, ← Dict.lookup_eq_none_iff, ← Dict.lookup_eq_none_iff, h key]
  have hperm : (l.map Prod.fst).Perm (m.map Prod.fst) :=
    (List.perm_ext_iff_of_nodup (hl.imp ne_of_lt) (hm.imp ne_of_lt)).2 hmem
  exact hperm.eq_of_pairwise (fun a b _ _ hab hba => absurd hab (lt_asymm hba)) hl hm

mutual
/-- Ordered JSON values that are the same data are equal. -/
theorem eq_of_jsonPlain : ∀ v w : Json, OrderedObjects v → OrderedObjects w →
    jsonPlain v = jsonPlain w → v = w
  | .null, w, _, _, h => by
      cases w with
      | null => rfl
      | _ => simp [jsonPlain] at h
  | .bool a, w, _, _, h => by
      cases w with
      | bool b => rw [Plain.bool.inj h]
      | _ => simp [jsonPlain] at h
  | .int a, w, _, _, h => by
      cases w with
      | int b => rw [Plain.int.inj h]
      | _ => simp [jsonPlain] at h
  | .text a, w, _, _, h => by
      cases w with
      | text b => rw [Plain.text.inj h]
      | _ => simp [jsonPlain] at h
  | .array vs, w, hv, hw, h => by
      cases w with
      | array ws => rw [eq_of_jsonPlainItems vs ws hv hw (Plain.sequence.inj h)]
      | _ => simp [jsonPlain] at h
  | .object ms, w, hv, hw, h => by
      cases w with
      | object ns =>
          have hlookup := congrFun (Plain.mapping.inj h)
          have hkeys : ms.map Prod.fst = ns.map Prod.fst := by
            rw [← map_fst_jsonPlainMembers ms, ← map_fst_jsonPlainMembers ns]
            apply map_fst_eq_of_lookup _ _ hlookup
            · rw [map_fst_jsonPlainMembers]
              exact hv.1
            · rw [map_fst_jsonPlainMembers]
              exact hw.1
          have hplain : jsonPlainMembers ms = jsonPlainMembers ns := by
            apply Dict.eq_of_lookup_eq _ _ hlookup
            · rw [map_fst_jsonPlainMembers]
              exact hv.1.imp ne_of_lt
            · rw [map_fst_jsonPlainMembers, map_fst_jsonPlainMembers, hkeys]
          rw [eq_of_jsonPlainMembers ms ns hv.2 hw.2 hplain]
      | _ => simp [jsonPlain] at h

theorem eq_of_jsonPlainItems : ∀ vs ws : List Json, OrderedObjectsItems vs →
    OrderedObjectsItems ws → jsonPlainItems vs = jsonPlainItems ws → vs = ws
  | [], [], _, _, _ => rfl
  | [], _ :: _, _, _, h => by cases h
  | _ :: _, [], _, _, h => by cases h
  | v :: vs, w :: ws, hv, hw, h => by
      obtain ⟨hhead, htail⟩ := List.cons.inj h
      rw [eq_of_jsonPlain v w hv.1 hw.1 hhead, eq_of_jsonPlainItems vs ws hv.2 hw.2 htail]

theorem eq_of_jsonPlainMembers : ∀ ms ns : List (String × Json), OrderedObjectsMembers ms →
    OrderedObjectsMembers ns → jsonPlainMembers ms = jsonPlainMembers ns → ms = ns
  | [], [], _, _, _ => rfl
  | [], _ :: _, _, _, h => by cases h
  | _ :: _, [], _, _, h => by cases h
  | (key, v) :: ms, (key', w) :: ns, hv, hw, h => by
      obtain ⟨hhead, htail⟩ := List.cons.inj h
      obtain ⟨rfl, hplain⟩ := Prod.mk.inj hhead
      rw [eq_of_jsonPlain v w hv.1 hw.1 hplain, eq_of_jsonPlainMembers ms ns hv.2 hw.2 htail]
end

mutual
theorem distinctKeys_of_ordered : ∀ v : Json, OrderedObjects v → v.DistinctKeys
  | .null, _ => trivial
  | .bool _, _ => trivial
  | .int _, _ => trivial
  | .text _, _ => trivial
  | .array items, h => distinctKeysItems_of_ordered items h
  | .object members, h => ⟨h.1.imp ne_of_lt, distinctKeysMembers_of_ordered members h.2⟩

theorem distinctKeysItems_of_ordered : ∀ items : List Json, OrderedObjectsItems items →
    Json.DistinctKeysItems items
  | [], _ => trivial
  | item :: rest, h => ⟨distinctKeys_of_ordered item h.1, distinctKeysItems_of_ordered rest h.2⟩

theorem distinctKeysMembers_of_ordered : ∀ members : List (String × Json),
    OrderedObjectsMembers members → Json.DistinctKeysMembers members
  | [], _ => trivial
  | (_, item) :: rest, h =>
      ⟨distinctKeys_of_ordered item h.1, distinctKeysMembers_of_ordered rest h.2⟩
end

/-! ## The main results -/

/-- Reading the bytes of a normal form gives the value back. -/
theorem jsonLoads_renderedBytes {value : PyValue} (h : value.DistinctKeys) :
    jsonLoads (renderedBytes (normalForm value)) = some (ofJson (normalForm value)) := by
  have hutf8 : String.fromUTF8? (renderedBytes (normalForm value)) =
      some (String.ofList (normalForm value).dumps) := by
    have hvalid : (renderedBytes (normalForm value)).IsValidUTF8 :=
      (String.ofList (normalForm value).dumps).isValidUTF8
    rw [String.fromUTF8?, dif_pos hvalid]
    rfl
  have hloads := Json.loads_dumps (fun _ hn => Json.lastPairs_of_nodup hn)
    (distinctKeys_of_ordered _ (orderedObjects_normalForm value h))
  simp only [jsonLoads, hutf8, String.toList_ofList, hloads, Option.bind_eq_bind, Option.bind_some]

/-- What was read back is accepted, with the same bytes. -/
theorem canonicalJsonBytes_ofJson {value : PyValue} {bytes : ByteArray}
    (h : canonicalJsonBytes value = .ok bytes) :
    canonicalJsonBytes (ofJson (normalForm value)) = .ok bytes := by
  obtain ⟨⟨hencodable, hnodes, htext, houtput⟩, rfl⟩ := canonicalJsonBytes_eq_ok_iff.1 h
  have hsettles := asRead_normalForm value hencodable
  rw [canonicalJsonBytes_eq_ok_iff, Accepted, hsettles.normal, hsettles.text]
  exact ⟨⟨hsettles.encodable, hsettles.nodes.trans hnodes, htext, houtput⟩, rfl⟩

/-- Accepted values have equal normal forms exactly when they are the same data. -/
theorem normalForm_eq_iff {v w : PyValue} (hv : Accepted v) (hw : Accepted w)
    (hv' : v.DistinctKeys) (hw' : w.DistinctKeys) :
    normalForm v = normalForm w ↔ v.plain = w.plain := by
  rw [← jsonPlain_normalForm v hv.1 hv', ← jsonPlain_normalForm w hw.1 hw']
  constructor
  · exact congrArg jsonPlain
  · exact eq_of_jsonPlain _ _ (orderedObjects_normalForm v hv') (orderedObjects_normalForm w hw')

/-- Reading the text of a decimal gives a decimal of the same value. -/
theorem readDecimal_decimalChars (number : Decimal) :
    ∃ r, Decimal.readDecimal (decimalChars number) = some r ∧ r.value = number.value := by
  have hread := Decimal.readDecimal_plainChars number
  have hzero : number.value = 0 →
      ∃ r, Decimal.readDecimal ['0'] = some r ∧ r.value = number.value := by
    intro h
    exact ⟨⟨0, 0⟩, by decide, by rw [h]; simp [Decimal.value]⟩
  unfold decimalChars
  split
  · next h => exact hzero (Decimal.coefficient_eq_zero_iff.1 h)
  split
  · next h =>
      obtain ⟨r, hr, hvalue⟩ := hread
      rw [h, show Decimal.readDecimal ['-', '0'] = some ⟨0, 0⟩ by decide, Option.some.injEq] at hr
      apply hzero
      rw [← hvalue, ← hr]
      simp [Decimal.value]
  · exact hread

/-- Two decimals have one text exactly when they are equal as numbers. -/
theorem decimalChars_eq_iff {d e : Decimal} : decimalChars d = decimalChars e ↔ d.value = e.value := by
  constructor
  · intro h
    obtain ⟨r, hr, hvalue⟩ := readDecimal_decimalChars d
    obtain ⟨s, hs, hvalue'⟩ := readDecimal_decimalChars e
    rw [h, hs, Option.some.injEq] at hr
    rw [← hvalue, ← hvalue', hr]
  · intro h
    have hzero : d.coefficient = 0 ↔ e.coefficient = 0 := by
      rw [Decimal.coefficient_eq_zero_iff, Decimal.coefficient_eq_zero_iff, h]
    by_cases hd : d.coefficient = 0
    · rw [decimalChars, decimalChars, if_pos hd, if_pos (hzero.1 hd)]
    · have hplain := Decimal.plainChars_eq_of_value_eq hd h
      rw [decimalChars, decimalChars, if_neg hd, if_neg (mt hzero.2 hd), hplain]

/-- The bytes of an accepted value parse, and what they parse to has the same bytes; accepted values
have equal bytes exactly when they are the same data; the text of an accepted decimal tells its value,
and the text of an accepted instant tells the instant. -/
theorem canonical_encoding_normal_form :
    (∀ (v : PyObject) (bytes : ByteArray), canonicalJsonBytes v.value = .ok bytes →
      ∃ w, jsonLoads bytes = some w ∧ canonicalJsonBytes w = .ok bytes) ∧
    (∀ (v w : PyObject) (bytes bytes' : ByteArray), canonicalJsonBytes v.value = .ok bytes →
      canonicalJsonBytes w.value = .ok bytes' → (bytes = bytes' ↔ v.value.plain = w.value.plain)) ∧
    (∀ (d e : Decimal) (path path' : String) (budget budget' after after' : Budget)
      (text text' : List Char), Budgeted.decimalText path d budget = .ok (text, after) →
      Budgeted.decimalText path' e budget' = .ok (text', after') →
      (text = text' ↔ d.value = e.value) ∧
        ∃ r, Decimal.readDecimal text = some r ∧ r.value = d.value) ∧
    ∀ (s t : PyDatetime) (path path' : String) (budget budget' after after' : Budget)
      (text text' : List Char), Budgeted.instantText path s budget = .ok (text, after) →
      Budgeted.instantText path' t budget' = .ok (text', after') → (text = text' ↔ s.utc = t.utc) := by
  refine ⟨?_, ?_, ?_, ?_⟩
  · intro v bytes h
    refine ⟨ofJson (normalForm v.value), ?_, canonicalJsonBytes_ofJson h⟩
    rw [(canonicalJsonBytes_eq_ok_iff.1 h).2]
    exact jsonLoads_renderedBytes v.distinctKeys
  · intro v w bytes bytes' hv hw
    obtain ⟨haccepted, rfl⟩ := canonicalJsonBytes_eq_ok_iff.1 hv
    obtain ⟨haccepted', rfl⟩ := canonicalJsonBytes_eq_ok_iff.1 hw
    rw [renderedBytes_injective.eq_iff]
    exact normalForm_eq_iff haccepted haccepted' v.distinctKeys w.distinctKeys
  · intro d e path path' budget budget' after after' text text' hd he
    obtain ⟨-, rfl, -⟩ := (decimalText_spends path d _ _ _).1 hd
    obtain ⟨-, rfl, -⟩ := (decimalText_spends path' e _ _ _).1 he
    exact ⟨decimalChars_eq_iff, readDecimal_decimalChars d⟩
  · intro s t path path' budget budget' after after' text text' hs ht
    obtain ⟨-, rfl, -⟩ := (instantText_spends path s _ _ _).1 hs
    obtain ⟨-, rfl, -⟩ := (instantText_spends path' t _ _ _).1 ht
    exact isoChars_injective.eq_iff

end AdaptiveTrader
