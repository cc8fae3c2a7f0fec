/-
# `json.dumps` with `sort_keys=True`

`sortKeys` puts the members of every dict in the order of their names before
they are written.  Two values that are equal for Python (`Same`: dicts are equal
when they have as many items and the same value at every key) are sorted to one
value (`sortKeys_same`), and values that are sorted to one value are equal
(`same_of_sortKeys`).
-/

import Paqto.Python.JsonRoundTrip
import Mathlib.Data.List.Sort
import Mathlib.Data.List.Lex

namespace Paqto
namespace Python

variable {F : Type}

/-! ## Sorted members -/

/-- Members in the order of their names, code point by code point. -/
def sortPairs (pairs : List (Str × Value F)) : List (Str × Value F) :=
  pairs.insertionSort fun p q => p.1 ≤ q.1

/-- Sorting loses no pair. -/
theorem sortPairs_perm (pairs : List (Str × Value F)) : (sortPairs pairs).Perm pairs :=
  List.perm_insertionSort _ pairs

/-- Sorted pairs are in order. -/
theorem sortPairs_pairwise (pairs : List (Str × Value F)) :
    List.Pairwise (fun p q : Str × Value F => p.1 ≤ q.1) (sortPairs pairs) := by
  have htotal : Std.Total fun p q : Str × Value F => p.1 ≤ q.1 := ⟨fun p q => le_total p.1 q.1⟩
  have htrans : IsTrans (Str × Value F) fun p q => p.1 ≤ q.1 := ⟨fun _ _ _ => le_trans⟩
  exact List.pairwise_insertionSort _ pairs

/-- Sorting makes no name occur twice. -/
theorem sortPairs_nodup {pairs : List (Str × Value F)} (h : (pairs.map Prod.fst).Nodup) :
    ((sortPairs pairs).map Prod.fst).Nodup :=
  (((sortPairs_perm pairs).map Prod.fst).nodup_iff).2 h

/-- A member is the only one of its name. -/
theorem eq_of_name_eq {pairs : List (Str × Value F)} (h : (pairs.map Prod.fst).Nodup)
    {p q : Str × Value F} (hp : p ∈ pairs) (hq : q ∈ pairs) (hpq : p.1 = q.1) : p = q :=
  List.inj_on_of_nodup_map h hp hq hpq

/-- **The order in which members come does not matter.** -/
theorem sortPairs_eq {pairs pairs' : List (Str × Value F)} (h : (pairs.map Prod.fst).Nodup)
    (hperm : pairs.Perm pairs') : sortPairs pairs = sortPairs pairs' := by
  have hall := (sortPairs_perm pairs).trans (hperm.trans (sortPairs_perm pairs').symm)
  refine List.Perm.eq_of_pairwise (fun p q hp hq hpq hqp => ?_) (sortPairs_pairwise _)
    (sortPairs_pairwise _) hall
  exact eq_of_name_eq (sortPairs_nodup h) hp (hall.mem_iff.2 hq) (le_antisymm hpq hqp)

mutual

/-- The value that `sort_keys` writes; `none` is the `TypeError` of keys that are
not all strings. -/
def sortKeys : Value F → Option (Value F)
  | .none => some .none
  | .bool b => some (.bool b)
  | .int i => some (.int i)
  | .float x => some (.float x)
  | .str s => some (.str s)
  | .list items => (sortItems items).map .list
  | .tuple items => (sortItems items).map .tuple
  | .dict items => (sortMembers items).map fun pairs => .dict (members (sortPairs pairs))

/-- The items of a list, each with sorted names. -/
def sortItems : List (Value F) → Option (List (Value F))
  | [] => some []
  | v :: items => do return (← sortKeys v) :: (← sortItems items)

/-- The members of a dict, in their own order, with sorted values. -/
def sortMembers : List (Key F × Value F) → Option (List (Str × Value F))
  | [] => some []
  | (.str k, v) :: items => do return (k, ← sortKeys v) :: (← sortMembers items)
  | _ :: _ => none

end

/-- One more item. -/
theorem sortItems_cons {v : Value F} {items l : List (Value F)} :
    sortItems (v :: items) = some l ↔
      ∃ w l', sortKeys v = some w ∧ sortItems items = some l' ∧ l = w :: l' := by
  rw [sortItems]
  simp only [Option.bind_eq_bind, Option.bind_eq_some_iff, Option.pure_def, Option.some.injEq]
  constructor
  · rintro ⟨w, hw, l', hl, h⟩
    exact ⟨w, l', hw, hl, h.symm⟩
  · rintro ⟨w, l', hw, hl, h⟩
    exact ⟨w, hw, l', hl, h.symm⟩

/-- One more member. -/
theorem sortMembers_cons {k : Key F} {v : Value F} {items : List (Key F × Value F)}
    {pairs : List (Str × Value F)} :
    sortMembers ((k, v) :: items) = some pairs ↔
      ∃ s w rest, k = .str s ∧ sortKeys v = some w ∧ sortMembers items = some rest ∧
        pairs = (s, w) :: rest := by
  cases k with
  | str s =>
      rw [sortMembers]
      simp only [Option.bind_eq_bind, Option.bind_eq_some_iff, Option.pure_def,
        Option.some.injEq, Key.str.injEq]
      constructor
      · rintro ⟨w, hw, rest, hr, h⟩
        exact ⟨s, w, rest, rfl, hw, hr, h.symm⟩
      · rintro ⟨_, w, rest, hs, hw, hr, h⟩
        exact ⟨w, hw, rest, hr, hs ▸ h.symm⟩
  | _ => simp [sortMembers]

/-- The members keep their names. -/
theorem sortMembers_names {items : List (Key F × Value F)} {pairs : List (Str × Value F)}
    (h : sortMembers items = some pairs) : items.map Prod.fst = pairs.map fun p => .str p.1 := by
  induction items generalizing pairs with
  | nil =>
      rw [sortMembers] at h
      obtain rfl := Option.some.inj h
      rfl
  | cons p items ih =>
      obtain ⟨s, w, rest, hk, _, hr, rfl⟩ := sortMembers_cons.1 h
      rw [List.map_cons, List.map_cons, ih hr, hk]

/-- No member is lost. -/
theorem sortMembers_length {items : List (Key F × Value F)} {pairs : List (Str × Value F)}
    (h : sortMembers items = some pairs) : items.length = pairs.length := by
  have hnames := congrArg List.length (sortMembers_names h)
  simpa using hnames

/-- No name occurs twice. -/
theorem sortMembers_nodup {items : List (Key F × Value F)} {pairs : List (Str × Value F)}
    (h : sortMembers items = some pairs) (hnd : (items.map Prod.fst).Nodup) :
    (pairs.map Prod.fst).Nodup := by
  have hmap : (pairs.map fun p => Key.str (F := F) p.1) = (pairs.map Prod.fst).map Key.str := by
    simp [List.map_map, Function.comp_def]
  rw [sortMembers_names h, hmap] at hnd
  exact hnd.of_map

/-- Every item gives a member. -/
theorem mem_sortMembers {items : List (Key F × Value F)} {pairs : List (Str × Value F)}
    (h : sortMembers items = some pairs) {s : Str} {v : Value F} (hv : (.str s, v) ∈ items) :
    ∃ w, sortKeys v = some w ∧ (s, w) ∈ pairs := by
  induction items generalizing pairs with
  | nil => cases hv
  | cons p items ih =>
      obtain ⟨s', w, rest, hk, hw, hr, rfl⟩ := sortMembers_cons.1 h
      rcases List.mem_cons.1 hv with rfl | hv
      · obtain rfl := Key.str.inj hk
        exact ⟨w, hw, List.mem_cons_self⟩
      · obtain ⟨w', hw', hmem⟩ := ih hr hv
        exact ⟨w', hw', List.mem_cons_of_mem _ hmem⟩

/-- Every member comes from an item. -/
theorem sortMembers_mem {items : List (Key F × Value F)} {pairs : List (Str × Value F)}
    (h : sortMembers items = some pairs) {p : Str × Value F} (hp : p ∈ pairs) :
    ∃ v, (.str p.1, v) ∈ items ∧ sortKeys v = some p.2 := by
  induction items generalizing pairs with
  | nil =>
      rw [sortMembers] at h
      obtain rfl := Option.some.inj h
      cases hp
  | cons q items ih =>
      obtain ⟨s, w, rest, hk, hw, hr, rfl⟩ := sortMembers_cons.1 h
      rcases List.mem_cons.1 hp with rfl | hp
      · exact ⟨q.2, by rw [← hk]; exact List.mem_cons_self, hw⟩
      · obtain ⟨v, hv, hw'⟩ := ih hr hp
        exact ⟨v, List.mem_cons_of_mem _ hv, hw'⟩

/-- Members that are sorted inside are left as they are. -/
theorem sortMembers_members {pairs : List (Str × Value F)}
    (h : ∀ p ∈ pairs, sortKeys p.2 = some p.2) : sortMembers (members pairs) = some pairs := by
  induction pairs with
  | nil => rfl
  | cons p pairs ih =>
      have hrest := ih fun q hq => h q (List.mem_cons_of_mem _ hq)
      exact sortMembers_cons.2 ⟨p.1, p.2, pairs, rfl, h p List.mem_cons_self, hrest, rfl⟩

mutual

/-- **A sorted value stays as it is.** -/
theorem sortKeys_sorted : ∀ (v : Value F) {w : Value F}, sortKeys v = some w → sortKeys w = some w
  | .none, _, h => by
      obtain rfl := Option.some.inj h
      rfl
  | .bool _, _, h => by
      obtain rfl := Option.some.inj h
      rfl
  | .int _, _, h => by
      obtain rfl := Option.some.inj h
      rfl
  | .float _, _, h => by
      obtain rfl := Option.some.inj h
      rfl
  | .str _, _, h => by
      obtain rfl := Option.some.inj h
      rfl
  | .list items, _, h => by
      rw [sortKeys, Option.map_eq_some_iff] at h
      obtain ⟨l, hl, rfl⟩ := h
      rw [sortKeys, sortItems_sorted items hl]
      rfl
  | .tuple items, _, h => by
      rw [sortKeys, Option.map_eq_some_iff] at h
      obtain ⟨l, hl, rfl⟩ := h
      rw [sortKeys, sortItems_sorted items hl]
      rfl
  | .dict items, _, h => by
      rw [sortKeys, Option.map_eq_some_iff] at h
      obtain ⟨pairs, hpairs, rfl⟩ := h
      have hall := sortMembers_sorted items hpairs
      have hmem : ∀ p ∈ sortPairs pairs, sortKeys p.2 = some p.2 :=
        fun p hp => hall p ((sortPairs_perm pairs).mem_iff.1 hp)
      have hsort : sortPairs (sortPairs pairs) = sortPairs pairs :=
        List.Pairwise.insertionSort_eq (sortPairs_pairwise pairs)
      rw [sortKeys, sortMembers_members hmem, Option.map_some, hsort]

/-- Sorting the items again changes nothing. -/
theorem sortItems_sorted : ∀ (items : List (Value F)) {l : List (Value F)},
    sortItems items = some l → sortItems l = some l
  | [], _, h => by
      obtain rfl := Option.some.inj h
      rfl
  | v :: items, _, h => by
      obtain ⟨w, l, hw, hl, rfl⟩ := sortItems_cons.1 h
      exact sortItems_cons.2 ⟨w, l, sortKeys_sorted v hw, sortItems_sorted items hl, rfl⟩

/-- Sorting the members again changes nothing. -/
theorem sortMembers_sorted : ∀ (items : List (Key F × Value F)) {pairs : List (Str × Value F)},
    sortMembers items = some pairs → ∀ p ∈ pairs, sortKeys p.2 = some p.2
  | [], _, h => by
      obtain rfl := Option.some.inj h
      simp
  | (_, v) :: items, _, h => by
      obtain ⟨s, w, rest, _, hw, hr, rfl⟩ := sortMembers_cons.1 h
      intro p hp
      rcases List.mem_cons.1 hp with rfl | hp
      · exact sortKeys_sorted v hw
      · exact sortMembers_sorted items hr p hp

end

mutual

/-- **What `json.loads` can make can be sorted**, and is again such a value. -/
theorem sortKeys_native : ∀ (v : Value F), v.Native → ∃ w, sortKeys v = some w ∧ w.Native
  | .none, h => ⟨_, rfl, h⟩
  | .bool _, h => ⟨_, rfl, h⟩
  | .int _, h => ⟨_, rfl, h⟩
  | .float _, h => ⟨_, rfl, h⟩
  | .str _, h => ⟨_, rfl, h⟩
  | .tuple _, h => absurd h id
  | .list items, h => by
      obtain ⟨l, hl, hn⟩ := sortItems_native items h
      exact ⟨.list l, by rw [sortKeys, hl]; rfl, hn⟩
  | .dict items, h => by
      obtain ⟨pairs, hpairs, hn⟩ := sortMembers_native items h.1
      refine ⟨.dict (members (sortPairs pairs)), by rw [sortKeys, hpairs]; rfl, ?_, ?_⟩
      · have hall : ∀ l : List (Str × Value F), (∀ p ∈ l, p.2.Native) →
            Value.NativeMembers (members l) := by
          intro l hl
          induction l with
          | nil => trivial
          | cons p l ih =>
              exact ⟨⟨p.1, rfl⟩, hl p List.mem_cons_self,
                ih fun q hq => hl q (List.mem_cons_of_mem _ hq)⟩
        exact hall _ fun p hp => hn p ((sortPairs_perm pairs).mem_iff.1 hp)
      · have hmap : (members (sortPairs pairs)).map Prod.fst =
            ((sortPairs pairs).map Prod.fst).map (Key.str (F := F)) := by
          simp [members, List.map_map, Function.comp_def]
        rw [hmap]
        exact (sortPairs_nodup (sortMembers_nodup hpairs h.2)).map fun _ _ => Key.str.inj

/-- Native items can be sorted, and stay native. -/
theorem sortItems_native : ∀ (items : List (Value F)), Value.NativeItems items →
    ∃ l, sortItems items = some l ∧ Value.NativeItems l
  | [], _ => ⟨[], rfl, trivial⟩
  | v :: items, h => by
      obtain ⟨w, hw, hn⟩ := sortKeys_native v h.1
      obtain ⟨l, hl, hnl⟩ := sortItems_native items h.2
      exact ⟨w :: l, sortItems_cons.2 ⟨w, l, hw, hl, rfl⟩, hn, hnl⟩

/-- So can native members. -/
theorem sortMembers_native : ∀ (items : List (Key F × Value F)), Value.NativeMembers items →
    ∃ pairs, sortMembers items = some pairs ∧ ∀ p ∈ pairs, p.2.Native
  | [], _ => ⟨[], rfl, by simp⟩
  | (k, v) :: items, h => by
      obtain ⟨s, rfl⟩ := h.1
      obtain ⟨w, hw, hn⟩ := sortKeys_native v h.2.1
      obtain ⟨pairs, hpairs, hall⟩ := sortMembers_native items h.2.2
      refine ⟨(s, w) :: pairs, sortMembers_cons.2 ⟨s, w, pairs, rfl, hw, hpairs, rfl⟩, ?_⟩
      rw [List.forall_mem_cons]
      exact ⟨hn, hall⟩

end

/-! ## Equal values -/

mutual

/-- `v == w`, for values of the same types. -/
def Same : Value F → Value F → Prop
  | .none, w => w = .none
  | .bool b, w => w = .bool b
  | .int i, w => w = .int i
  | .float x, w => w = .float x
  | .str s, w => w = .str s
  | .list items, w => ∃ items', w = .list items' ∧ SameItems items items'
  | .tuple items, w => ∃ items', w = .tuple items' ∧ SameItems items items'
  | .dict items, w => ∃ items', w = .dict items' ∧ items.length = items'.length ∧
      SameMembers items items'

/-- The same items in the same order. -/
def SameItems : List (Value F) → List (Value F) → Prop
  | [], l => l = []
  | v :: items, l => ∃ w l', l = w :: l' ∧ Same v w ∧ SameItems items l'

/-- Every item has an equal value at its key. -/
def SameMembers : List (Key F × Value F) → List (Key F × Value F) → Prop
  | [], _ => True
  | (k, v) :: items, l => (∃ w, (k, w) ∈ l ∧ Same v w) ∧ SameMembers items l

end

mutual

/-- **Values that are sorted to one value are equal.** -/
theorem same_of_sortKeys : ∀ (v : Value F) {v' w : Value F}, sortKeys v = some w →
    sortKeys v' = some w → Same v v'
  | .none, v', _, h, h' => by
      obtain rfl := Option.some.inj h
      cases v' <;> simp_all [sortKeys, Same]
  | .bool _, v', _, h, h' => by
      obtain rfl := Option.some.inj h
      cases v' <;> simp_all [sortKeys, Same]
  | .int _, v', _, h, h' => by
      obtain rfl := Option.some.inj h
      cases v' <;> simp_all [sortKeys, Same]
  | .float _, v', _, h, h' => by
      obtain rfl := Option.some.inj h
      cases v' <;> simp_all [sortKeys, Same]
  | .str _, v', _, h, h' => by
      obtain rfl := Option.some.inj h
      cases v' <;> simp_all [sortKeys, Same]
  | .list items, v', _, h, h' => by
      rw [sortKeys, Option.map_eq_some_iff] at h
      obtain ⟨l, hl, rfl⟩ := h
      cases v' with
      | list items' =>
          rw [sortKeys, Option.map_eq_some_iff] at h'
          obtain ⟨l', hl', heq⟩ := h'
          obtain rfl := Value.list.inj heq
          exact ⟨items', rfl, sameItems_of_sortItems items hl hl'⟩
      | _ => simp [sortKeys] at h'
  | .tuple items, v', _, h, h' => by
      rw [sortKeys, Option.map_eq_some_iff] at h
      obtain ⟨l, hl, rfl⟩ := h
      cases v' with
      | tuple items' =>
          rw [sortKeys, Option.map_eq_some_iff] at h'
          obtain ⟨l', hl', heq⟩ := h'
          obtain rfl := Value.tuple.inj heq
          exact ⟨items', rfl, sameItems_of_sortItems items hl hl'⟩
      | _ => simp [sortKeys] at h'
  | .dict items, v', _, h, h' => by
      rw [sortKeys, Option.map_eq_some_iff] at h
      obtain ⟨pairs, hpairs, rfl⟩ := h
      cases v' with
      | dict items' =>
          rw [sortKeys, Option.map_eq_some_iff] at h'
          obtain ⟨pairs', hpairs', heq⟩ := h'
          have hsorted : sortPairs pairs' = sortPairs pairs := by
            have hmem := Value.dict.inj heq
            unfold members at hmem
            refine List.map_injective_iff.2 (fun p q hpq => ?_) hmem
            rw [Prod.mk.injEq, Key.str.injEq] at hpq
            exact Prod.ext hpq.1 hpq.2
          have hperm : pairs'.Perm pairs :=
            (sortPairs_perm pairs').symm.trans (hsorted ▸ sortPairs_perm pairs)
          refine ⟨items', rfl, ?_, sameMembers_of_sortMembers items hpairs fun p hp => ?_⟩
          · rw [sortMembers_length hpairs, sortMembers_length hpairs', hperm.length_eq]
          · exact sortMembers_mem hpairs' (hperm.mem_iff.2 hp)
      | _ => simp [sortKeys] at h'

/-- Lists that are sorted to the same one have the same items. -/
theorem sameItems_of_sortItems : ∀ (items : List (Value F)) {items' l : List (Value F)},
    sortItems items = some l → sortItems items' = some l → SameItems items items'
  | [], items', _, h, h' => by
      obtain rfl := Option.some.inj h
      cases items' with
      | nil => rfl
      | cons v items' =>
          obtain ⟨_, _, _, _, heq⟩ := sortItems_cons.1 h'
          cases heq
  | v :: items, items', _, h, h' => by
      obtain ⟨w, l, hw, hl, rfl⟩ := sortItems_cons.1 h
      cases items' with
      | nil => cases h'
      | cons v' items' =>
          obtain ⟨_, _, hw', hl', heq⟩ := sortItems_cons.1 h'
          obtain ⟨rfl, rfl⟩ := List.cons.inj heq
          exact ⟨v', items', rfl, same_of_sortKeys v hw hw', sameItems_of_sortItems items hl hl'⟩

/-- The same of members. -/
theorem sameMembers_of_sortMembers : ∀ (items : List (Key F × Value F))
    {items' : List (Key F × Value F)} {pairs : List (Str × Value F)},
    sortMembers items = some pairs →
    (∀ p ∈ pairs, ∃ v, (.str p.1, v) ∈ items' ∧ sortKeys v = some p.2) → SameMembers items items'
  | [], _, _, _, _ => trivial
  | (k, v) :: items, _, _, h, hall => by
      obtain ⟨s, w, rest, rfl, hw, hr, rfl⟩ := sortMembers_cons.1 h
      obtain ⟨v', hv', hw'⟩ := hall (s, w) List.mem_cons_self
      exact ⟨⟨v', hv', same_of_sortKeys v hw hw'⟩, sameMembers_of_sortMembers items hr fun p hp =>
        hall p (List.mem_cons_of_mem _ hp)⟩

end

/-! ## Values that are equal are sorted alike -/

namespace Value

mutual

/-- No dict in the value has a key twice, as no Python dict does. -/
def Distinct : Value F → Prop
  | .none => True
  | .bool _ => True
  | .int _ => True
  | .float _ => True
  | .str _ => True
  | .list items => DistinctItems items
  | .tuple items => DistinctItems items
  | .dict items => (items.map Prod.fst).Nodup ∧ DistinctMembers items

/-- No name occurs twice in an item. -/
def DistinctItems : List (Value F) → Prop
  | [] => True
  | v :: items => v.Distinct ∧ DistinctItems items

/-- Nor in the value of a member. -/
def DistinctMembers : List (Key F × Value F) → Prop
  | [] => True
  | (_, v) :: items => v.Distinct ∧ DistinctMembers items

end

/-- Each name is a string and each value native. -/
theorem nativeMembers_iff {items : List (Key F × Value F)} :
    NativeMembers items ↔ ∀ p ∈ items, (∃ s, p.1 = .str s) ∧ p.2.Native := by
  induction items with
  | nil => simp [NativeMembers]
  | cons p items ih =>
      rw [List.forall_mem_cons, ← ih]
      exact ⟨fun h => ⟨⟨h.1, h.2.1⟩, h.2.2⟩, fun h => ⟨h.1.1, h.1.2, h.2⟩⟩

/-- Each value. -/
theorem distinctMembers_iff {items : List (Key F × Value F)} :
    DistinctMembers items ↔ ∀ p ∈ items, p.2.Distinct := by
  induction items with
  | nil => simp [DistinctMembers]
  | cons p items ih =>
      rw [List.forall_mem_cons, ← ih]
      exact Iff.rfl

end Value

/-- Each member has its equal. -/
theorem sameMembers_iff {items l : List (Key F × Value F)} :
    SameMembers items l ↔ ∀ p ∈ items, ∃ w, (p.1, w) ∈ l ∧ Same p.2 w := by
  induction items with
  | nil => simp [SameMembers]
  | cons p items ih =>
      rw [List.forall_mem_cons, ← ih]
      exact Iff.rfl

/-- Dicts with the same number of items, one of which has the keys of the other,
have the same keys. -/
theorem exists_of_sameMembers {items l : List (Key F × Value F)} (hnd : (items.map Prod.fst).Nodup)
    (hlnd : (l.map Prod.fst).Nodup) (hlen : items.length = l.length) (h : SameMembers items l)
    {q : Key F × Value F} (hq : q ∈ l) : ∃ v, (q.1, v) ∈ items ∧ Same v q.2 := by
  have hsub : items.map Prod.fst ⊆ l.map Prod.fst := by
    intro k hk
    obtain ⟨p, hp, rfl⟩ := List.mem_map.1 hk
    obtain ⟨w, hw, _⟩ := sameMembers_iff.1 h p hp
    exact List.mem_map.2 ⟨_, hw, rfl⟩
  have hperm : (items.map Prod.fst).Perm (l.map Prod.fst) :=
    (List.subperm_of_subset hnd hsub).perm_of_length_le (by simp [hlen])
  obtain ⟨p, hp, hkey⟩ := List.mem_map.1 (hperm.mem_iff.2 (List.mem_map_of_mem hq))
  obtain ⟨w, hw, hsame⟩ := sameMembers_iff.1 h p hp
  have heq : (p.1, w) = q := List.inj_on_of_nodup_map hlnd hw hq hkey
  refine ⟨p.2, hkey ▸ hp, ?_⟩
  rw [← heq]
  exact hsame

mutual

/-- A value that equals one `json.loads` can make is one itself. -/
theorem native_of_same : ∀ (v : Value F) {v' : Value F}, Same v v' → v.Native → v'.Distinct →
    v'.Native
  | .none, _, h, _, _ => by
      obtain rfl := h
      trivial
  | .bool _, _, h, _, _ => by
      obtain rfl := h
      trivial
  | .int _, _, h, _, _ => by
      obtain rfl := h
      trivial
  | .float _, _, h, _, _ => by
      obtain rfl := h
      trivial
  | .str _, _, h, _, _ => by
      obtain rfl := h
      trivial
  | .tuple _, _, _, hn, _ => absurd hn id
  | .list items, _, h, hn, hd => by
      obtain ⟨items', rfl, hsame⟩ := h
      exact nativeItems_of_same items hsame hn hd
  | .dict items, _, h, hn, hd => by
      obtain ⟨items', rfl, hlen, hsame⟩ := h
      refine ⟨Value.nativeMembers_iff.2 fun q hq => ?_, hd.1⟩
      obtain ⟨v, hv, _⟩ := exists_of_sameMembers hn.2 hd.1 hlen hsame hq
      refine ⟨(Value.nativeMembers_iff.1 hn.1 _ hv).1, ?_⟩
      exact nativeMembers_of_same items hsame hn.1 hd.2 hd.1 hv hq

/-- The same items as native ones are native. -/
theorem nativeItems_of_same : ∀ (items : List (Value F)) {l : List (Value F)}, SameItems items l →
    Value.NativeItems items → Value.DistinctItems l → Value.NativeItems l
  | [], _, h, _, _ => by
      obtain rfl := h
      trivial
  | v :: items, _, h, hn, hd => by
      obtain ⟨w, l, rfl, hsame, hrest⟩ := h
      exact ⟨native_of_same v hsame hn.1 hd.1, nativeItems_of_same items hrest hn.2 hd.2⟩

/-- The same members as native ones are native. -/
theorem nativeMembers_of_same : ∀ (items : List (Key F × Value F)) {l : List (Key F × Value F)},
    SameMembers items l → Value.NativeMembers items → Value.DistinctMembers l →
    (l.map Prod.fst).Nodup → ∀ {k : Key F} {v w : Value F}, (k, v) ∈ items → (k, w) ∈ l → w.Native
  | [], _, _, _, _, _, _, _, _, hv, _ => nomatch hv
  | (k', v') :: items, l, h, hn, hd, hnd, k, v, w, hv, hw => by
      obtain ⟨⟨w', hw', hsame⟩, hrest⟩ := h
      rcases List.mem_cons.1 hv with heq | hv
      · obtain ⟨rfl, rfl⟩ := Prod.mk.inj heq
        have hww : (k, w') = (k, w) := List.inj_on_of_nodup_map hnd hw' hw rfl
        obtain rfl := (Prod.mk.inj hww).2
        exact native_of_same v hsame hn.2.1 (Value.distinctMembers_iff.1 hd _ hw)
      · exact nativeMembers_of_same items hrest hn.2.2 hd hnd hv hw

end

mutual

/-- **Equal values are sorted to one value.** -/
theorem sortKeys_same : ∀ (v : Value F) {v' : Value F}, Same v v' → v.Native → v'.Native →
    sortKeys v = sortKeys v'
  | .none, _, h, _, _ => by rw [h]
  | .bool _, _, h, _, _ => by rw [h]
  | .int _, _, h, _, _ => by rw [h]
  | .float _, _, h, _, _ => by rw [h]
  | .str _, _, h, _, _ => by rw [h]
  | .tuple _, _, _, hn, _ => absurd hn id
  | .list items, _, h, hn, hn' => by
      obtain ⟨items', rfl, hsame⟩ := h
      rw [sortKeys, sortKeys, sortItems_same items hsame hn hn']
  | .dict items, _, h, hn, hn' => by
      obtain ⟨items', rfl, hlen, hsame⟩ := h
      obtain ⟨pairs, hpairs, _⟩ := sortMembers_native items hn.1
      obtain ⟨pairs', hpairs', _⟩ := sortMembers_native items' hn'.1
      have hnd := sortMembers_nodup hpairs hn.2
      have hsub : pairs ⊆ pairs' := by
        intro p hp
        obtain ⟨v', hv', hw⟩ := sortMembers_same items hsame hn.1 hn'.1 hpairs p hp
        obtain ⟨w, hw', hmem⟩ := mem_sortMembers hpairs' hv'
        obtain rfl := Option.some.inj (hw.symm.trans hw')
        exact hmem
      have hperm : pairs.Perm pairs' := by
        refine (List.subperm_of_subset hnd.of_map hsub).perm_of_length_le ?_
        rw [← sortMembers_length hpairs, ← sortMembers_length hpairs', hlen]
      rw [sortKeys, sortKeys, hpairs, hpairs', Option.map_some, Option.map_some,
        sortPairs_eq hnd hperm]

/-- The same items are sorted to the same list. -/
theorem sortItems_same : ∀ (items : List (Value F)) {l : List (Value F)}, SameItems items l →
    Value.NativeItems items → Value.NativeItems l → sortItems items = sortItems l
  | [], _, h, _, _ => by rw [h]
  | v :: items, _, h, hn, hn' => by
      obtain ⟨w, l, rfl, hsame, hrest⟩ := h
      rw [sortItems, sortItems, sortKeys_same v hsame hn.1 hn'.1, sortItems_same items hrest hn.2 hn'.2]

/-- The sorted members of one are found among the items of the other. -/
theorem sortMembers_same : ∀ (items : List (Key F × Value F)) {l : List (Key F × Value F)}
    {pairs : List (Str × Value F)}, SameMembers items l → Value.NativeMembers items →
    Value.NativeMembers l → sortMembers items = some pairs →
    ∀ p ∈ pairs, ∃ v, (.str p.1, v) ∈ l ∧ sortKeys v = some p.2
  | [], _, _, _, _, _, h => by
      obtain rfl := Option.some.inj h
      simp
  | (k, v) :: items, l, _, hsame, hn, hn', h => by
      obtain ⟨⟨v', hv', hs⟩, hrest⟩ := hsame
      obtain ⟨s, w, rest, rfl, hw, hr, rfl⟩ := sortMembers_cons.1 h
      rw [List.forall_mem_cons]
      refine ⟨⟨v', hv', ?_⟩, sortMembers_same items hrest hn.2.2 hn' hr⟩
      rw [← sortKeys_same v hs hn.2.1 (Value.nativeMembers_iff.1 hn' _ hv').2, hw]

end

end Python
end Paqto
