/-
# What `validate_json_value` accepts

The loop is a recursion: every value in the payload passes its own checks at its
depth, and all collections together have few enough items
(`validateJsonValue_iff`).  Sorting keys changes neither, so a payload and what
is decoded of it are accepted together (`validateJsonValue_sortKeys`).
-/

import Paqto.Serializers.Envelope

namespace Paqto
namespace Serializers

open Python Paqto.Core

variable {F : Type} [PyFloat F]

mutual

/-- Every value in the value passes its checks, at a depth. -/
def Valid (limits : Limits) : ℕ → Value F → Prop
  | _, .none => True
  | _, .bool _ => True
  | _, .int _ => True
  | _, .float x => PyFloat.isFinite x = true
  | _, .str s => s.length ≤ limits.maxStringLength
  | depth, .list items => depth < limits.maxNesting ∧ ValidItems limits (depth + 1) items
  | _, .tuple _ => False
  | depth, .dict items => depth < limits.maxNesting ∧ ValidMembers limits (depth + 1) items

/-- The items of a list pass the limits. -/
def ValidItems (limits : Limits) : ℕ → List (Value F) → Prop
  | _, [] => True
  | depth, v :: items => Valid limits depth v ∧ ValidItems limits depth items

/-- The members of an object pass the limits. -/
def ValidMembers (limits : Limits) : ℕ → List (Key F × Value F) → Prop
  | _, [] => True
  | depth, (k, v) :: items =>
      (∃ s, k = .str s ∧ s.length ≤ limits.maxStringLength) ∧ Valid limits depth v ∧
        ValidMembers limits depth items

end

mutual

/-- The items of all collections in a value. -/
def collectionItems : Value F → ℕ
  | .list items => items.length + collectionItemsList items
  | .tuple items => items.length + collectionItemsList items
  | .dict items => items.length + collectionItemsMembers items
  | .none => 0
  | .bool _ => 0
  | .int _ => 0
  | .float _ => 0
  | .str _ => 0

/-- The items in the items of a list. -/
def collectionItemsList : List (Value F) → ℕ
  | [] => 0
  | v :: items => collectionItems v + collectionItemsList items

/-- The items in the values of an object. -/
def collectionItemsMembers : List (Key F × Value F) → ℕ
  | [] => 0
  | (_, v) :: items => collectionItems v + collectionItemsMembers items

end

/-- Each item. -/
theorem validItems_iff {limits : Limits} {depth : ℕ} {items : List (Value F)} :
    ValidItems limits depth items ↔ ∀ v ∈ items, Valid limits depth v := by
  induction items with
  | nil => simp [ValidItems]
  | cons v items ih => simp [ValidItems, ih]

/-- Each name and each value. -/
theorem validMembers_iff {limits : Limits} {depth : ℕ} {items : List (Key F × Value F)} :
    ValidMembers limits depth items ↔
      ∀ p ∈ items, (∃ s, p.1 = .str s ∧ s.length ≤ limits.maxStringLength) ∧
        Valid limits depth p.2 := by
  induction items with
  | nil => simp [ValidMembers]
  | cons p items ih =>
      rw [List.forall_mem_cons, ← ih]
      exact ⟨fun h => ⟨⟨h.1, h.2.1⟩, h.2.2⟩, fun h => ⟨h.1.1, h.1.2, h.2⟩⟩

omit [PyFloat F] in
/-- Names count nothing. -/
theorem collectionItemsMembers_eq (items : List (Key F × Value F)) :
    collectionItemsMembers items = collectionItemsList (items.map Prod.snd) := by
  induction items with
  | nil => rfl
  | cons p items ih => rw [List.map_cons, collectionItemsList, ← ih]; rfl

omit [PyFloat F] in
/-- The counts are added. -/
theorem collectionItemsList_eq (items : List (Value F)) :
    collectionItemsList items = (items.map collectionItems).sum := by
  induction items with
  | nil => rfl
  | cons v items ih => rw [collectionItemsList, ih, List.map_cons, List.sum_cons]

omit [PyFloat F] in
/-- The order does not matter. -/
theorem collectionItemsList_perm {items items' : List (Value F)} (h : items.Perm items') :
    collectionItemsList items = collectionItemsList items' := by
  rw [collectionItemsList_eq, collectionItemsList_eq, (h.map collectionItems).sum_eq]

section Counting

omit [PyFloat F]

mutual

/-- Sorting changes no count. -/
theorem collectionItems_sortKeys : ∀ (v : Value F) {w : Value F}, sortKeys v = some w →
    collectionItems v = collectionItems w
  | .none, _, h => by
      obtain rfl := Option.some.inj h
      rfl
  | .bool _, _, h => by
      obtain rfl := Option.some.inj h
      rfl
  | .int _, _, h => by
      obtain rfl := Option.some.inj h
      rfl
  | .float _, _, h => by
      obtain rfl := Option.some.inj h
      rfl
  | .str _, _, h => by
      obtain rfl := Option.some.inj h
      rfl
  | .tuple items, _, h => by
      rw [sortKeys, Option.map_eq_some_iff] at h
      obtain ⟨l, hl, rfl⟩ := h
      obtain ⟨hlen, hsum⟩ := collectionItems_sortItems items hl
      rw [collectionItems, collectionItems, hlen, hsum]
  | .list items, _, h => by
      rw [sortKeys, Option.map_eq_some_iff] at h
      obtain ⟨l, hl, rfl⟩ := h
      obtain ⟨hlen, hsum⟩ := collectionItems_sortItems items hl
      rw [collectionItems, collectionItems, hlen, hsum]
  | .dict items, _, h => by
      rw [sortKeys, Option.map_eq_some_iff] at h
      obtain ⟨pairs, hpairs, rfl⟩ := h
      have hperm : (members (F := F) (sortPairs pairs)).Perm (members pairs) :=
        (sortPairs_perm pairs).map _
      have hlen : (members (F := F) pairs).length = pairs.length := List.length_map ..
      rw [collectionItems, collectionItems, hperm.length_eq, hlen, sortMembers_length hpairs,
        collectionItems_sortMembers items hpairs, collectionItemsMembers_eq,
        collectionItemsMembers_eq, collectionItemsList_perm (hperm.map Prod.snd)]

/-- It changes none of a list. -/
theorem collectionItems_sortItems : ∀ (items : List (Value F)) {l : List (Value F)},
    sortItems items = some l →
    items.length = l.length ∧ collectionItemsList items = collectionItemsList l
  | [], _, h => by
      obtain rfl := Option.some.inj h
      exact ⟨rfl, rfl⟩
  | v :: items, _, h => by
      obtain ⟨w, l, hw, hl, rfl⟩ := sortItems_cons.1 h
      obtain ⟨hlen, hsum⟩ := collectionItems_sortItems items hl
      rw [collectionItemsList, collectionItemsList, collectionItems_sortKeys v hw, hsum]
      exact ⟨congrArg (· + 1) hlen, rfl⟩

/-- It changes none of an object. -/
theorem collectionItems_sortMembers : ∀ (items : List (Key F × Value F))
    {pairs : List (Str × Value F)}, sortMembers items = some pairs →
    collectionItemsMembers items = collectionItemsMembers (members pairs)
  | [], _, h => by
      obtain rfl := Option.some.inj h
      rfl
  | (_, v) :: items, _, h => by
      obtain ⟨s, w, rest, _, hw, hr, rfl⟩ := sortMembers_cons.1 h
      have hcons : members ((s, w) :: rest) = (.str s, w) :: members (F := F) rest := rfl
      rw [hcons, collectionItemsMembers, collectionItemsMembers, collectionItems_sortKeys v hw,
        collectionItems_sortMembers items hr]

end

end Counting

omit [PyFloat F] in
/-- The keys pass when all are short strings. -/
theorem validateKeys_iff (limits : Limits) (items : List (Key F × Value F)) :
    validateKeys limits items = .ok () ↔
      ∀ p ∈ items, ∃ s, p.1 = .str s ∧ s.length ≤ limits.maxStringLength := by
  have hstr : (items.findSome? fun p => notStringKey p.1) = none ↔
      ∀ p ∈ items, ∃ s, p.1 = .str s := by
    rw [List.findSome?_eq_none_iff]
    refine forall₂_congr fun p _ => ?_
    cases p.1 <;> simp [notStringKey]
  unfold validateKeys
  split
  · rename_i e he
    have hnone : ¬ ∀ p ∈ items, ∃ s, p.1 = .str s := by
      rw [← hstr, he]
      simp
    refine iff_of_false (by simp) fun h => hnone fun p hp => ?_
    obtain ⟨s, hs, _⟩ := h p hp
    exact ⟨s, hs⟩
  · rename_i he
    have hall := hstr.1 he
    have hshort : (items.findSome? fun p => longKey limits p.1) = none ↔
        ∀ p ∈ items, ∃ s, p.1 = .str s ∧ s.length ≤ limits.maxStringLength := by
      rw [List.findSome?_eq_none_iff]
      refine forall₂_congr fun p hp => ?_
      obtain ⟨s, hs⟩ := hall p hp
      simp [hs, longKey]
    split
    · rename_i e he'
      refine iff_of_false (by simp) fun h => ?_
      rw [hshort.2 h] at he'
      cases he'
    · rename_i he'
      exact iff_of_true rfl (hshort.1 he')

/-- The loop goes on with the nested values of a value that passes. -/
theorem valid_iff_validateItem (limits : Limits) (depth : ℕ) (v : Value F) :
    Valid limits depth v ↔ ∃ nested, validateItem limits depth v = .ok nested ∧
      ∀ w ∈ nested, Valid limits (depth + 1) w := by
  cases v with
  | float x => cases h : PyFloat.isFinite x <;> simp [Valid, validateItem, h]
  | str s =>
      by_cases h : s.length > limits.maxStringLength
      · simp [Valid, validateItem, h]
      · simp [Valid, validateItem, h, Nat.le_of_not_lt h]
  | list items =>
      by_cases h : depth ≥ limits.maxNesting
      · simp [Valid, validateItem, h]
      · simp [Valid, validateItem, h, validItems_iff, Nat.lt_of_not_le h]
  | dict items =>
      by_cases h : depth ≥ limits.maxNesting
      · simp [Valid, validateItem, h]
      · have hkeys := validateKeys_iff limits items
        rw [Valid, validMembers_iff, and_iff_right (Nat.lt_of_not_le h)]
        simp only [validateItem, if_neg h]
        cases hk : validateKeys limits items with
        | error e =>
            rw [hk] at hkeys
            refine iff_of_false (fun hall => ?_) (by rintro ⟨_, ⟨⟩, _⟩)
            cases hkeys.2 fun p hp => (hall p hp).1
        | ok u =>
            have hall := hkeys.1 hk
            simp only [Except.map, Except.ok.injEq, exists_eq_left', List.mem_map,
              forall_exists_index, and_imp, forall_apply_eq_imp_iff₂]
            exact ⟨fun hv p hp => (hv p hp).2, fun hv p hp => ⟨hall p hp, hv p hp⟩⟩
  | tuple items => simp [Valid, validateItem]
  | _ => simp [Valid, validateItem]

omit [PyFloat F] in
/-- A value counts its nested values, and what they count. -/
theorem collectionItems_validateItem [PyFloat F] {limits : Limits} {depth : ℕ} {v : Value F}
    {nested : List (Value F)} (h : validateItem limits depth v = .ok nested) :
    collectionItems v = nested.length + collectionItemsList nested := by
  cases v with
  | float x =>
      simp only [validateItem] at h
      split at h <;> cases h
      rfl
  | str s =>
      simp only [validateItem] at h
      split at h <;> cases h
      rfl
  | list items =>
      simp only [validateItem] at h
      split at h <;> cases h
      rfl
  | dict items =>
      simp only [validateItem] at h
      split at h
      · cases h
      · cases hk : validateKeys limits items with
        | error e =>
            rw [hk] at h
            cases h
        | ok u =>
            rw [hk] at h
            obtain rfl := Except.ok.inj h
            rw [collectionItems, collectionItemsMembers_eq, List.length_map]
  | tuple items => cases h
  | _ =>
      cases h
      rfl

/-- The loop accepts when what is pending passes and has few enough items. -/
theorem validateLoop_iff (limits : Limits) (pending : List (Value F × ℕ)) (count : ℕ)
    (hcount : count ≤ limits.maxCollectionItems) :
    validateLoop limits pending count = .ok () ↔ (∀ p ∈ pending, Valid limits p.2 p.1) ∧
      count + collectionItemsList (pending.map Prod.fst) ≤ limits.maxCollectionItems := by
  fun_induction validateLoop limits pending count with
  | case1 count => simp [collectionItemsList, hcount]
  | case2 item depth pending count e h =>
      have hinvalid : ¬ Valid limits depth item := by
        rw [valid_iff_validateItem, h]
        simp
      simp [hinvalid]
  | case3 item depth pending count nested h hmany =>
      have hitem := collectionItems_validateItem h
      refine iff_of_false (by simp) fun hall => ?_
      have hle := hall.2
      rw [List.map_cons, collectionItemsList, hitem] at hle
      omega
  | case4 item depth pending count nested h hfew ih =>
      have hitem := collectionItems_validateItem h
      have hvalid : Valid limits depth item ↔ ∀ w ∈ nested, Valid limits (depth + 1) w := by
        rw [valid_iff_validateItem, h]
        simp
      have hlist : collectionItemsList (((nested.map fun v => (v, depth + 1)).reverse ++
          pending).map Prod.fst) =
          collectionItemsList nested + collectionItemsList (pending.map Prod.fst) := by
        rw [collectionItemsList_eq, collectionItemsList_eq, collectionItemsList_eq]
        simp [Function.comp_def, List.sum_reverse]
      rw [ih (Nat.le_of_not_lt hfew), hlist, List.map_cons, collectionItemsList, hitem]
      refine and_congr ?_ (by omega)
      simp only [List.mem_append, List.mem_reverse, List.mem_map, List.mem_cons, forall_eq_or_imp,
        hvalid]
      constructor
      · intro hall
        exact ⟨fun w hw => hall (w, depth + 1) (Or.inl ⟨w, hw, rfl⟩), fun p hp => hall p (Or.inr hp)⟩
      · rintro ⟨hnested, hpending⟩ p (⟨w, hw, rfl⟩ | hp)
        · exact hnested w hw
        · exact hpending p hp

/-- **The loop is the recursion.** -/
theorem validateJsonValue_iff (limits : Limits) (v : Value F) :
    validateJsonValue limits v = .ok () ↔
      Valid limits 0 v ∧ collectionItems v ≤ limits.maxCollectionItems := by
  rw [validateJsonValue, validateLoop_iff limits _ _ (Nat.zero_le _)]
  simp [collectionItemsList]

/-! ## Sorting changes nothing -/

mutual

/-- **A value passes the limits when it is sorted, and when it is not.** -/
theorem valid_sortKeys (limits : Limits) : ∀ (v : Value F) {w : Value F} (depth : ℕ),
    sortKeys v = some w → (Valid limits depth v ↔ Valid limits depth w)
  | .none, _, _, h => by
      obtain rfl := Option.some.inj h
      rfl
  | .bool _, _, _, h => by
      obtain rfl := Option.some.inj h
      rfl
  | .int _, _, _, h => by
      obtain rfl := Option.some.inj h
      rfl
  | .float _, _, _, h => by
      obtain rfl := Option.some.inj h
      rfl
  | .str _, _, _, h => by
      obtain rfl := Option.some.inj h
      rfl
  | .tuple items, _, _, h => by
      rw [sortKeys, Option.map_eq_some_iff] at h
      obtain ⟨l, _, rfl⟩ := h
      exact Iff.rfl
  | .list items, _, depth, h => by
      rw [sortKeys, Option.map_eq_some_iff] at h
      obtain ⟨l, hl, rfl⟩ := h
      rw [Valid, Valid, validItems_sortItems limits items (depth + 1) hl]
  | .dict items, _, depth, h => by
      rw [sortKeys, Option.map_eq_some_iff] at h
      obtain ⟨pairs, hpairs, rfl⟩ := h
      have hperm : (members (F := F) (sortPairs pairs)).Perm (members pairs) :=
        (sortPairs_perm pairs).map _
      rw [Valid, Valid, validMembers_sortMembers limits items (depth + 1) hpairs,
        validMembers_iff, validMembers_iff]
      simp only [hperm.mem_iff]

/-- The same of items. -/
theorem validItems_sortItems (limits : Limits) : ∀ (items : List (Value F)) {l : List (Value F)}
    (depth : ℕ), sortItems items = some l → (ValidItems limits depth items ↔ ValidItems limits depth l)
  | [], _, _, h => by
      obtain rfl := Option.some.inj h
      rfl
  | v :: items, _, depth, h => by
      obtain ⟨w, l, hw, hl, rfl⟩ := sortItems_cons.1 h
      rw [ValidItems, ValidItems, valid_sortKeys limits v depth hw,
        validItems_sortItems limits items depth hl]

/-- The same of members. -/
theorem validMembers_sortMembers (limits : Limits) : ∀ (items : List (Key F × Value F))
    {pairs : List (Str × Value F)} (depth : ℕ), sortMembers items = some pairs →
    (ValidMembers limits depth items ↔ ValidMembers limits depth (members pairs))
  | [], _, _, h => by
      obtain rfl := Option.some.inj h
      rfl
  | (_, v) :: items, _, depth, h => by
      obtain ⟨s, w, rest, rfl, hw, hr, rfl⟩ := sortMembers_cons.1 h
      have hcons : members ((s, w) :: rest) = (.str s, w) :: members (F := F) rest := rfl
      rw [hcons, ValidMembers, ValidMembers, valid_sortKeys limits v depth hw,
        validMembers_sortMembers limits items depth hr]

end

/-- **A payload is accepted with its keys in any order.** -/
theorem validateJsonValue_sortKeys (limits : Limits) {v w : Value F} (h : sortKeys v = some w) :
    validateJsonValue limits v = .ok () ↔ validateJsonValue limits w = .ok () := by
  rw [validateJsonValue_iff, validateJsonValue_iff, valid_sortKeys limits v 0 h,
    collectionItems_sortKeys v h]

mutual

/-- **A payload that is accepted is one `json.loads` can make.** -/
theorem native_of_valid (limits : Limits) : ∀ (v : Value F) {depth : ℕ}, Valid limits depth v →
    v.Distinct → v.Native
  | .none, _, _, _ => trivial
  | .bool _, _, _, _ => trivial
  | .int _, _, _, _ => trivial
  | .float _, _, _, _ => trivial
  | .str _, _, _, _ => trivial
  | .tuple _, _, h, _ => h
  | .list items, _, h, hd => nativeItems_of_valid limits items h.2 hd
  | .dict items, _, h, hd => ⟨nativeMembers_of_valid limits items h.2 hd.2, hd.1⟩

/-- Valid items are native. -/
theorem nativeItems_of_valid (limits : Limits) : ∀ (items : List (Value F)) {depth : ℕ},
    ValidItems limits depth items → Value.DistinctItems items → Value.NativeItems items
  | [], _, _, _ => trivial
  | v :: items, _, h, hd =>
      ⟨native_of_valid limits v h.1 hd.1, nativeItems_of_valid limits items h.2 hd.2⟩

/-- Valid members are native. -/
theorem nativeMembers_of_valid (limits : Limits) : ∀ (items : List (Key F × Value F)) {depth : ℕ},
    ValidMembers limits depth items → Value.DistinctMembers items → Value.NativeMembers items
  | [], _, _, _ => trivial
  | (_, v) :: items, _, h, hd =>
      ⟨⟨h.1.choose, h.1.choose_spec.1⟩, native_of_valid limits v h.2.1 hd.1,
        nativeMembers_of_valid limits items h.2.2 hd.2⟩

end

end Serializers
end Paqto
