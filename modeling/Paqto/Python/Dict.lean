/-
# Dicts

A `dict` with keys in insertion order: a new key comes last, and a key that is
set again keeps its place.
-/

import Mathlib.Data.List.Nodup

namespace Paqto
namespace Python

/-- The items of a dict, oldest key first. -/
structure Dict (α β : Type) where
  items : List (α × β)
  nodup : (items.map Prod.fst).Nodup

namespace Dict

variable {α β : Type} [DecidableEq α]

/-- `{}` -/
def empty : Dict α β := ⟨[], List.nodup_nil⟩

/-- `len` -/
def size (d : Dict α β) : ℕ := d.items.length

/-- `d.get(key)` -/
def get? (d : Dict α β) (key : α) : Option β := d.items.lookup key

/-- `d.pop(key, None)` -/
def erase (d : Dict α β) (key : α) : Dict α β where
  items := d.items.filter fun p => p.1 ≠ key
  nodup := d.nodup.sublist (List.filter_sublist.map _)

/-- The items after `d[key] = value`. -/
def setItems (items : List (α × β)) (key : α) (value : β) : List (α × β) :=
  match items with
  | [] => [(key, value)]
  | p :: items => if p.1 = key then (key, value) :: items else p :: setItems items key value

/-- The keys after a key is set. -/
theorem map_fst_setItems (items : List (α × β)) (key : α) (value : β) :
    (setItems items key value).map Prod.fst =
      if key ∈ items.map Prod.fst then items.map Prod.fst else items.map Prod.fst ++ [key] := by
  induction items with
  | nil => rfl
  | cons p items ih =>
      unfold setItems
      by_cases hp : p.1 = key
      · simp [hp]
      · have hp' : ¬ key = p.1 := fun h => hp h.symm
        simp only [if_neg hp, List.map_cons, ih, List.mem_cons, hp', false_or]
        split <;> rfl

/-- `d[key] = value` -/
def set (d : Dict α β) (key : α) (value : β) : Dict α β where
  items := setItems d.items key value
  nodup := by
    rw [map_fst_setItems]
    split
    · exact d.nodup
    · rename_i h
      rw [← List.concat_eq_append]
      exact d.nodup.concat h

/-- The value of each key then. -/
theorem lookup_setItems (items : List (α × β)) (key key' : α) (value : β) :
    (setItems items key value).lookup key' =
      if key' = key then some value else items.lookup key' := by
  induction items with
  | nil =>
      by_cases h : key' = key
      · simp [setItems, h]
      · simp [setItems, List.lookup_cons, h, beq_false_of_ne h]
  | cons p items ih =>
      unfold setItems
      by_cases hp : p.1 = key
      · rw [if_pos hp, List.lookup_cons, List.lookup_cons, hp]
        by_cases h : key' = key
        · simp [h]
        · simp [h, beq_false_of_ne h]
      · rw [if_neg hp, List.lookup_cons, List.lookup_cons, ih]
        by_cases h : key' = key
        · have hne : ¬ key = p.1 := fun e => hp e.symm
          simp [h, beq_false_of_ne hne]
        · simp [h]

/-- The value of each key after a key is set. -/
theorem get?_set (d : Dict α β) (key key' : α) (value : β) :
    (d.set key value).get? key' = if key' = key then some value else d.get? key' :=
  lookup_setItems d.items key key' value

/-- The value of each key after a key is dropped. -/
theorem lookup_filter_ne (items : List (α × β)) (key key' : α) :
    (items.filter fun p => p.1 ≠ key).lookup key' =
      if key' = key then none else items.lookup key' := by
  induction items with
  | nil => simp
  | cons p items ih =>
      by_cases hp : p.1 = key
      · rw [List.filter_cons_of_neg (by simp [hp]), ih, List.lookup_cons, hp]
        by_cases h : key' = key
        · simp [h]
        · simp [h, beq_false_of_ne h]
      · rw [List.filter_cons_of_pos (by simp [hp]), List.lookup_cons, List.lookup_cons, ih]
        by_cases h : key' = key
        · have hne : ¬ key = p.1 := fun e => hp e.symm
          simp [h, beq_false_of_ne hne]
        · simp [h]

/-- The value of each key after a key is dropped. -/
theorem get?_erase (d : Dict α β) (key key' : α) :
    (d.erase key).get? key' = if key' = key then none else d.get? key' :=
  lookup_filter_ne d.items key key'

/-- Nothing is in the empty dict. -/
@[simp] theorem get?_empty (key : α) : (empty : Dict α β).get? key = none := rfl

/-- The items of a dict are what its keys give. -/
theorem mem_items_iff (d : Dict α β) {key : α} {value : β} :
    (key, value) ∈ d.items ↔ d.get? key = some value := by
  obtain ⟨items, nodup⟩ := d
  change (key, value) ∈ items ↔ items.lookup key = some value
  induction items with
  | nil => simp
  | cons p items ih =>
      rw [List.map_cons, List.nodup_cons] at nodup
      rw [List.mem_cons, List.lookup_cons]
      by_cases h : key = p.1
      · subst h
        have hnot : (p.1, value) ∉ items := fun hm => nodup.1 (List.mem_map.2 ⟨_, hm, rfl⟩)
        simp [hnot, Prod.ext_iff, eq_comm]
      · have hne : (key, value) ≠ p := fun he => h (congrArg Prod.fst he)
        simp [hne, beq_false_of_ne h, ih nodup.2]

/-- What remains when the keys of the values without `p` are popped. -/
def filter (d : Dict α β) (p : β → Bool) : Dict α β where
  items := d.items.filter fun item => p item.2
  nodup := d.nodup.sublist (List.filter_sublist.map _)

/-- The value of each key that passes. -/
theorem get?_filter (d : Dict α β) (p : β → Bool) (key : α) :
    (d.filter p).get? key = (d.get? key).filter p := by
  refine Option.ext fun value => ?_
  rw [← mem_items_iff, Option.filter_eq_some_iff, ← mem_items_iff]
  exact List.mem_filter

/-- One more item, if the key is new. -/
theorem length_setItems (items : List (α × β)) (key : α) (value : β) :
    (setItems items key value).length =
      if items.lookup key = none then items.length + 1 else items.length := by
  induction items with
  | nil => rfl
  | cons p items ih =>
      unfold setItems
      rw [List.lookup_cons]
      by_cases hp : p.1 = key
      · simp [hp]
      · have hne : (key == p.1) = false := beq_false_of_ne fun h => hp h.symm
        rw [if_neg hp, hne, List.length_cons, ih, List.length_cons]
        split <;> rfl

/-- A new key makes a dict longer by one. -/
theorem size_set (d : Dict α β) (key : α) (value : β) :
    (d.set key value).size = if d.get? key = none then d.size + 1 else d.size :=
  length_setItems d.items key value

/-- No more items than before. -/
theorem size_erase_le (d : Dict α β) (key : α) : (d.erase key).size ≤ d.size :=
  List.length_filter_le _ _

omit [DecidableEq α] in
/-- Only the empty dict has no item. -/
theorem eq_empty_of_size {d : Dict α β} (h : d.size = 0) : d = empty := by
  obtain ⟨items, nodup⟩ := d
  obtain rfl : items = [] := List.length_eq_zero_iff.1 h
  rfl

/-- `d.values()` -/
def values (d : Dict α β) : List β := d.items.map Prod.snd

/-- A value is that of a key. -/
theorem mem_values (d : Dict α β) {value : β} :
    value ∈ d.values ↔ ∃ key, d.get? key = some value := by
  simp only [values, List.mem_map, ← mem_items_iff, Prod.exists, exists_eq_right]

section map

variable {γ : Type}

/-- The same keys, with other values. -/
def map (f : β → γ) (d : Dict α β) : Dict α γ where
  items := d.items.map fun item => (item.1, f item.2)
  nodup := by
    rw [List.map_map]
    exact d.nodup

/-- The value of each key after a change of the values. -/
theorem get?_map (f : β → γ) (d : Dict α β) (key : α) : (d.map f).get? key = (d.get? key).map f := by
  obtain ⟨items, nodup⟩ := d
  change (items.map fun item => (item.1, f item.2)).lookup key = (items.lookup key).map f
  clear nodup
  induction items with
  | nil => rfl
  | cons item items ih =>
      rw [List.map_cons, List.lookup_cons, List.lookup_cons]
      split
      · rfl
      · exact ih

end map

end Dict

end Python
end Paqto
