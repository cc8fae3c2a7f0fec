/-
# What the safety check promises of a value that is sent

`_is_safe_json_value` runs before encoding and after decoding.  Before, it does
not look into tuples, and a dict may have keys that become the same name;
after, tuples are lists and two equal names are refused.  `Portable` is what a
value needs to pass on the other side (`reread_safe_iff`): nesting with tuples
counted, small integers in tuples too, and distinct names.
-/

import Paqto.Core.Negotiation

namespace Paqto
namespace Core

open Python

variable {F : Type} [PyFloat F]

/-! ## The check as a recursion -/

mutual

/-- `_is_safe_json_value` of a value at a depth. -/
def Safe : ℕ → Value F → Prop
  | _, .none => True
  | _, .bool _ => True
  | _, .int i => bitLength i ≤ maxJsonIntegerBits
  | _, .float x => PyFloat.isFinite x = true
  | _, .str _ => True
  | depth, .list items => depth < maxJsonNesting ∧ SafeItems (depth + 1) items
  | _, .tuple _ => True
  | depth, .dict items => depth < maxJsonNesting ∧ SafeMembers (depth + 1) items

/-- The items are safe. -/
def SafeItems : ℕ → List (Value F) → Prop
  | _, [] => True
  | depth, v :: items => Safe depth v ∧ SafeItems depth items

/-- The values of the members are safe. -/
def SafeMembers : ℕ → List (Key F × Value F) → Prop
  | _, [] => True
  | depth, (_, v) :: items => Safe depth v ∧ SafeMembers depth items

end

/-- Each item. -/
theorem safeItems_iff {depth : ℕ} {items : List (Value F)} :
    SafeItems depth items ↔ ∀ v ∈ items, Safe depth v := by
  induction items with
  | nil => simp [SafeItems]
  | cons v items ih => simp [SafeItems, ih]

/-- Each value. -/
theorem safeMembers_iff {depth : ℕ} {items : List (Key F × Value F)} :
    SafeMembers depth items ↔ ∀ v ∈ items.map Prod.snd, Safe depth v := by
  induction items with
  | nil => simp [SafeMembers]
  | cons p items ih => simp [SafeMembers, ih]

/-- The loop goes on with the nested values of a value that passes. -/
theorem safe_iff_safeNested (depth : ℕ) (v : Value F) :
    Safe depth v ↔ ∃ nested, safeNested depth v = some nested ∧ ∀ w ∈ nested, Safe (depth + 1) w := by
  cases v with
  | int i =>
      by_cases h : bitLength i > maxJsonIntegerBits
      · simp [Safe, safeNested, h]
      · simp [Safe, safeNested, h, Nat.le_of_not_lt h]
  | float x => cases h : PyFloat.isFinite x <;> simp [Safe, safeNested, h]
  | list items =>
      by_cases h : depth ≥ maxJsonNesting
      · simp [Safe, safeNested, h]
      · simp [Safe, safeNested, h, safeItems_iff, Nat.lt_of_not_le h]
  | dict items =>
      by_cases h : depth ≥ maxJsonNesting
      · simp [Safe, safeNested, h]
      · simp [Safe, safeNested, h, safeMembers_iff, Nat.lt_of_not_le h]
  | _ => simp [Safe, safeNested]

/-- **What the loop decides.** -/
theorem isSafeLoop_iff (pending : List (Value F × ℕ)) :
    isSafeLoop pending = true ↔ ∀ p ∈ pending, Safe p.2 p.1 := by
  fun_induction isSafeLoop pending with
  | case1 => simp
  | case2 item depth pending h =>
      have hnested : ¬ Safe depth item := by
        rw [safe_iff_safeNested, h]
        simp
      simp [hnested]
  | case3 item depth pending nested h ih =>
      have hsafe : Safe depth item ↔ ∀ w ∈ nested, Safe (depth + 1) w := by
        rw [safe_iff_safeNested, h]
        simp
      rw [ih]
      simp only [List.mem_append, List.mem_reverse, List.mem_map, List.mem_cons, forall_eq_or_imp,
        hsafe]
      constructor
      · intro hall
        exact ⟨fun w hw => hall (w, depth + 1) (Or.inl ⟨w, hw, rfl⟩), fun p hp => hall p (Or.inr hp)⟩
      · rintro ⟨hnested, hpending⟩ p (⟨w, hw, rfl⟩ | hp)
        · exact hnested w hw
        · exact hpending p hp

/-- **The loop is the recursion.** -/
theorem isSafeJsonValue_iff (v : Value F) : isSafeJsonValue v = true ↔ Safe 0 v := by
  rw [isSafeJsonValue, isSafeLoop_iff]
  simp

/-! ## Portable values -/

/-- The names that the keys of a dict are read as. -/
def names (read : Str → Str) (items : List (Key F × Value F)) : List (Option Str) :=
  items.map fun p => (keyText p.1).map read

mutual

/-- The value passes on the other side, at a depth: nesting counts tuples, no
dict has two keys with one name, and every integer is small. -/
def Portable (read : Str → Str) : ℕ → Value F → Prop
  | _, .none => True
  | _, .bool _ => True
  | _, .int i => bitLength i ≤ maxJsonIntegerBits
  | _, .float _ => True
  | _, .str _ => True
  | depth, .list items => depth < maxJsonNesting ∧ PortableItems read (depth + 1) items
  | depth, .tuple items => depth < maxJsonNesting ∧ PortableItems read (depth + 1) items
  | depth, .dict items =>
      depth < maxJsonNesting ∧ (names read items).Nodup ∧ PortableMembers read (depth + 1) items

/-- The items are portable. -/
def PortableItems (read : Str → Str) : ℕ → List (Value F) → Prop
  | _, [] => True
  | depth, v :: items => Portable read depth v ∧ PortableItems read depth items

/-- The values of the members are portable. -/
def PortableMembers (read : Str → Str) : ℕ → List (Key F × Value F) → Prop
  | _, [] => True
  | depth, (_, v) :: items => Portable read depth v ∧ PortableMembers read depth items

end

/-- The hooks of the decoders of control data and of discovery packets. -/
def uniqueHooks : Hooks F := ⟨uniqueJsonObject, fun x => some (.float x)⟩

omit [PyFloat F] in
/-- A name that occurs twice is refused. -/
theorem uniqueMembers_eq_none (result : List (Str × Value F)) {pairs : List (Str × Value F)}
    (hr : (result.map Prod.fst).Nodup) (h : ¬ ((result ++ pairs).map Prod.fst).Nodup) :
    uniqueMembers result pairs = none := by
  induction pairs generalizing result with
  | nil =>
      rw [List.append_nil] at h
      exact absurd hr h
  | cons p pairs ih =>
      obtain ⟨key, value⟩ := p
      rw [uniqueMembers]
      split
      · rfl
      · rename_i hkey
        refine ih _ ?_ (by simpa using h)
        rw [List.map_append, List.map_cons, List.map_nil, ← List.concat_eq_append]
        exact hr.concat hkey

omit [PyFloat F] in
/-- Names that are not distinct are refused. -/
theorem uniqueJsonObject_eq_none {pairs : List (Str × Value F)}
    (h : ¬ (pairs.map Prod.fst).Nodup) : uniqueJsonObject pairs = none := by
  have hnone := uniqueMembers_eq_none [] List.nodup_nil h
  rw [uniqueJsonObject, hnone]
  rfl

/-- Members that are read keep their names. -/
theorem rereadMembers_names {read : Str → Str} {items : List (Key F × Value F)}
    {pairs : List (Str × Value F)} (h : rereadMembers uniqueHooks read items = some pairs) :
    names read items = (pairs.map Prod.fst).map some := by
  induction items generalizing pairs with
  | nil =>
      rw [rereadMembers] at h
      obtain rfl := Option.some.inj h
      rfl
  | cons p items ih =>
      obtain ⟨k, v⟩ := p
      rw [rereadMembers] at h
      simp only [Option.bind_eq_bind, Option.bind_eq_some_iff, Option.pure_def,
        Option.some.injEq] at h
      obtain ⟨kt, hk, v', _, pairs', hpairs, rfl⟩ := h
      have hcons : names read ((k, v) :: items) = some (read kt) :: names read items := by
        simp [names, hk]
      rw [hcons, ih hpairs]
      rfl

section Dumps

variable {write read : Str → Str}

/-- A list that is written has its items written. -/
theorem dumpsItems_of_list {items : List (Value F)} {t : Str}
    (h : dumpsWith write (.list items) = some t) : ∃ w, dumpsItems write items = some w := by
  cases items with
  | nil => exact ⟨_, rfl⟩
  | cons v items =>
      obtain ⟨u, w, hu, hw, _⟩ := dumps_list h
      exact ⟨44 :: (u ++ w), by rw [dumpsItems]; simp [hu, hw]⟩

/-- An object that is written has its members written. -/
theorem dumpsMembers_of_dict {items : List (Key F × Value F)} {t : Str}
    (h : dumpsWith write (.dict items) = some t) : ∃ w, dumpsMembers write items = some w := by
  cases items with
  | nil => exact ⟨_, rfl⟩
  | cons p items =>
      obtain ⟨kt, u, w, hk, hu, hw, _⟩ := dumps_dict (k := p.1) (v := p.2) h
      exact ⟨44 :: (write kt ++ 58 :: (u ++ w)), by rw [dumpsMembers]; simp [hk, hu, hw]⟩

mutual

/-- **A value that was written is read and safe exactly when it is portable.** -/
theorem reread_safe_iff : ∀ (v : Value F) {t : Str} (depth : ℕ), dumpsWith write v = some t →
    ((∃ v', reread uniqueHooks read v = some v' ∧ Safe depth v') ↔ Portable read depth v)
  | .none, _, _, _ => by simp [reread, Safe, Portable]
  | .bool _, _, _, _ => by simp [reread, Safe, Portable]
  | .int _, _, _, _ => by simp [reread, Safe, Portable]
  | .str _, _, _, _ => by simp [reread, Safe, Portable]
  | .float x, _, _, h => by
      rw [dumpsWith, floatText] at h
      split at h
      · rename_i hx
        simp [reread, Safe, Portable, hx]
      · cases h
  | .list items, _, depth, h => by
      obtain ⟨w, hw⟩ := dumpsItems_of_list h
      have hitems := rereadItems_safe_iff items (depth + 1) hw
      simp only [reread, Option.map_eq_some_iff, exists_exists_and_eq_and, Safe, Portable,
        ← hitems]
      exact ⟨fun ⟨l, hl, hd, hs⟩ => ⟨hd, l, hl, hs⟩, fun ⟨hd, l, hl, hs⟩ => ⟨l, hl, hd, hs⟩⟩
  | .tuple items, _, depth, h => by
      rw [dumps_tuple] at h
      obtain ⟨w, hw⟩ := dumpsItems_of_list h
      have hitems := rereadItems_safe_iff items (depth + 1) hw
      simp only [reread, Option.map_eq_some_iff, exists_exists_and_eq_and, Safe, Portable,
        ← hitems]
      exact ⟨fun ⟨l, hl, hd, hs⟩ => ⟨hd, l, hl, hs⟩, fun ⟨hd, l, hl, hs⟩ => ⟨l, hl, hd, hs⟩⟩
  | .dict items, _, depth, h => by
      obtain ⟨w, hw⟩ := dumpsMembers_of_dict h
      have hmembers := rereadMembers_safe_iff items (depth + 1) hw
      simp only [reread, Option.bind_eq_some_iff, Portable, ← hmembers]
      constructor
      · rintro ⟨v', ⟨pairs, hpairs, hv⟩, hsafe⟩
        by_cases hnd : (pairs.map Prod.fst).Nodup
        · obtain rfl : Value.dict (members pairs) = v' :=
            Option.some.inj ((uniqueJsonObject_of_nodup pairs hnd).symm.trans hv)
          rw [rereadMembers_names hpairs]
          exact ⟨hsafe.1, hnd.map (Option.some_injective _), pairs, hpairs, hsafe.2⟩
        · cases (uniqueJsonObject_eq_none hnd).symm.trans hv
      · rintro ⟨hdepth, hnd, pairs, hpairs, hsafe⟩
        rw [rereadMembers_names hpairs] at hnd
        exact ⟨_, ⟨pairs, hpairs, uniqueJsonObject_of_nodup pairs hnd.of_map⟩, hdepth, hsafe⟩

/-- Items are read again, and safe, when they are portable. -/
theorem rereadItems_safe_iff : ∀ (items : List (Value F)) {t : Str} (depth : ℕ),
    dumpsItems write items = some t →
    ((∃ items', rereadItems uniqueHooks read items = some items' ∧ SafeItems depth items') ↔
      PortableItems read depth items)
  | [], _, _, _ => by simp [rereadItems, SafeItems, PortableItems]
  | v :: items, _, depth, h => by
      obtain ⟨u, w, hu, hw, _⟩ := dumpsItems_cons h
      rw [PortableItems, ← reread_safe_iff v depth hu, ← rereadItems_safe_iff items depth hw,
        rereadItems]
      simp only [Option.bind_eq_bind, Option.bind_eq_some_iff, Option.pure_def, Option.some.injEq]
      constructor
      · rintro ⟨_, ⟨v', hv, l, hl, rfl⟩, hsafe⟩
        exact ⟨⟨v', hv, hsafe.1⟩, l, hl, hsafe.2⟩
      · rintro ⟨⟨v', hv, hsafe⟩, l, hl, hsafe'⟩
        exact ⟨_, ⟨v', hv, l, hl, rfl⟩, hsafe, hsafe'⟩

/-- So are members. -/
theorem rereadMembers_safe_iff : ∀ (items : List (Key F × Value F)) {t : Str} (depth : ℕ),
    dumpsMembers write items = some t →
    ((∃ pairs, rereadMembers uniqueHooks read items = some pairs ∧
      SafeMembers depth (members pairs)) ↔ PortableMembers read depth items)
  | [], _, _, _ => by simp [rereadMembers, SafeMembers, PortableMembers, members]
  | (k, v) :: items, _, depth, h => by
      obtain ⟨kt, u, w, hk, hu, hw, _⟩ := dumpsMembers_cons h
      rw [PortableMembers, ← reread_safe_iff v depth hu, ← rereadMembers_safe_iff items depth hw,
        rereadMembers]
      simp only [hk, Option.bind_eq_bind, Option.bind_eq_some_iff, Option.pure_def,
        Option.bind_some, Option.some.injEq]
      constructor
      · rintro ⟨_, ⟨v', hv, l, hl, rfl⟩, hsafe⟩
        exact ⟨⟨v', hv, hsafe.1⟩, l, hl, hsafe.2⟩
      · rintro ⟨⟨v', hv, hsafe⟩, l, hl, hsafe'⟩
        exact ⟨_, ⟨v', hv, l, hl, rfl⟩, hsafe, hsafe'⟩

end

end Dumps

end Core
end Paqto
