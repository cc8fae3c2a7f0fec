/-
# `validate_json_value` on any objects

The loop over any objects: `Shape` is what it sees of one, and a `view` says what each object
is, whether the objects make a tree, share others or contain themselves.  The loop pops at
most one object more than `max_collection_items`, whatever the objects are (`run_ends`).

On a tree it accepts exactly what the recursive predicate says (`Portable`): every value passes
its own checks at its depth, and the lists and dicts have few enough items in all.  The loop of
`Paqto.Serializers.Envelope` is the one over the values that `json` can write
(`run_validateLoop`).
-/

import Paqto.Serializers.Limits

namespace Paqto
namespace Serializers

open Python

/-! ## Objects -/

/-- A key of a dict: a string or anything else. -/
inductive ObjectKey
  | str (s : Str)
  | other
  deriving DecidableEq, Repr

/-- What `isinstance` tells of an object, in the order of the loop, and what it contains. -/
inductive Shape (F ν : Type)
  | none
  | bool (b : Bool)
  | int (i : ℤ)
  | float (x : F)
  | str (s : Str)
  | list (items : List ν)
  | dict (items : List (ObjectKey × ν))
  /-- Any other type, by its name. -/
  | other (typeName : Str)

namespace Shape

variable {F ν : Type}

/-- The objects in a container. -/
def nested : Shape F ν → List ν
  | .list items => items
  | .dict items => items.map Prod.snd
  | _ => []

variable [PyFloat F]

/-- The value passes its own checks at a depth. -/
def Passes (limits : Limits) (depth : ℕ) : Shape F ν → Prop
  | .none | .bool _ | .int _ => True
  | .float x => PyFloat.isFinite x = true
  | .str s => s.length ≤ limits.maxStringLength
  | .list _ => depth < limits.maxNesting
  | .dict items => depth < limits.maxNesting ∧
      ∀ p ∈ items, ∃ s, p.1 = .str s ∧ s.length ≤ limits.maxStringLength
  | .other _ => False

end Shape

/-! ## The loop -/

/-- A name that is too long. -/
def longObjectKey (limits : Limits) : ObjectKey → Option SerializationError
  | .str s =>
      if s.length > limits.maxStringLength then some (.keyTooLong limits.maxStringLength) else none
  | .other => none

/-- What the checks of a dict's keys raise: all are strings, then all are short. -/
def keyError (limits : Limits) (keys : List ObjectKey) : Option SerializationError :=
  if keys.any (· == .other) then some .keyNotString else keys.findSome? (longObjectKey limits)

/-- What a dict puts on the stack once its keys are checked. -/
def checkKeys {α : Type} (limits : Limits) (keys : List ObjectKey) (nested : α) :
    Except SerializationError α :=
  match keyError limits keys with
  | some e => .error e
  | none => .ok nested

/-- The checks of one object, and the objects that are put on the stack. -/
def visit {F ν : Type} [PyFloat F] (limits : Limits) (depth : ℕ) :
    Shape F ν → Except SerializationError (List ν)
  | .none | .bool _ | .int _ => .ok []
  | .float x => if PyFloat.isFinite x then .ok [] else .error .notFinite
  | .str s =>
      if s.length > limits.maxStringLength then .error (.stringTooLong limits.maxStringLength)
      else .ok []
  | .list items =>
      if depth ≥ limits.maxNesting then .error (.nesting limits.maxNesting) else .ok items
  | .dict items =>
      if depth ≥ limits.maxNesting then .error (.nesting limits.maxNesting)
      else
        checkKeys limits (items.map Prod.fst) (items.map Prod.snd)
  | .other typeName => .error (.unsupported typeName)

/-- The local variables of the loop; the top of the stack comes first. -/
structure LoopState (ν : Type) where
  pending : List (ν × ℕ)
  collectionItems : ℕ

/-- `validate_json_value`, up to a number of pops; `none` when it has not ended by then. -/
def run {F ν : Type} [PyFloat F] (limits : Limits) (view : ν → Shape F ν) :
    ℕ → LoopState ν → Option (Except SerializationError Unit)
  | _, ⟨[], _⟩ => some (.ok ())
  | 0, ⟨_ :: _, _⟩ => none
  | n + 1, ⟨(item, depth) :: pending, collectionItems⟩ =>
      match visit limits depth (view item) with
      | .error e => some (.error e)
      | .ok nested =>
          if collectionItems + nested.length > limits.maxCollectionItems then
            some (.error (.tooManyItems limits.maxCollectionItems))
          else
            run limits view n
              ⟨(nested.map fun v => (v, depth + 1)).reverse ++ pending,
                collectionItems + nested.length⟩

/-- The state in which the loop begins. -/
def LoopState.start {ν : Type} (value : ν) : LoopState ν := ⟨[(value, 0)], 0⟩

section Loop

variable {F ν : Type} [PyFloat F] {limits : Limits} {view : ν → Shape F ν}

/-- Every key is a name that is not too long. -/
theorem keyError_eq_none {keys : List ObjectKey} :
    keyError limits keys = none ↔
      ∀ key ∈ keys, ∃ s, key = .str s ∧ s.length ≤ limits.maxStringLength := by
  unfold keyError
  by_cases hother : keys.any (· == .other) = true
  · rw [if_pos hother]
    refine iff_of_false (by simp) fun h => ?_
    obtain ⟨key, hkey, heq⟩ := List.any_eq_true.1 hother
    obtain ⟨s, rfl, -⟩ := h key hkey
    cases heq
  · rw [if_neg hother, List.findSome?_eq_none_iff]
    refine forall₂_congr fun key hkey => ?_
    cases key with
    | str s => simp [longObjectKey]
    | other => exact absurd (List.any_eq_true.2 ⟨_, hkey, rfl⟩) hother

/-- The checks let through what passes, and go on with what it contains. -/
theorem visit_eq_ok {depth : ℕ} {shape : Shape F ν} {nested : List ν} :
    visit limits depth shape = .ok nested ↔ shape.Passes limits depth ∧ nested = shape.nested := by
  cases shape with
  | float x => by_cases h : PyFloat.isFinite x <;> simp [visit, Shape.Passes, Shape.nested, h, eq_comm]
  | str s =>
      by_cases h : s.length > limits.maxStringLength
      · simp [visit, Shape.Passes, h]
      · simp [visit, Shape.Passes, Shape.nested, h, Nat.le_of_not_lt h, eq_comm]
  | list items =>
      by_cases h : depth ≥ limits.maxNesting
      · simp [visit, Shape.Passes, h]
      · simp [visit, Shape.Passes, Shape.nested, h, Nat.lt_of_not_le h, eq_comm]
  | dict items =>
      have hkeys : keyError limits (items.map Prod.fst) = none ↔
          ∀ p ∈ items, ∃ s, p.1 = .str s ∧ s.length ≤ limits.maxStringLength := by
        rw [keyError_eq_none, List.forall_mem_map]
      rw [visit, Shape.Passes, Shape.nested, ← hkeys]
      by_cases h : depth ≥ limits.maxNesting
      · simp [h]
      · rw [if_neg h, checkKeys]
        cases keyError limits (items.map Prod.fst) <;>
          simp [Nat.lt_of_not_le h, eq_comm]
  | other typeName => simp [visit, Shape.Passes]
  | _ => simp [visit, Shape.Passes, Shape.nested, eq_comm]

/-- **The loop ends, on any objects**: every pop takes one off what the stack and the limit
leave. -/
theorem run_ends (view : ν → Shape F ν) {n : ℕ} {s : LoopState ν}
    (hcount : s.collectionItems ≤ limits.maxCollectionItems)
    (hn : s.pending.length + (limits.maxCollectionItems - s.collectionItems) ≤ n) :
    ∃ result, run limits view n s = some result := by
  induction n generalizing s with
  | zero =>
      obtain ⟨pending, count⟩ := s
      cases pending with
      | nil => exact ⟨_, rfl⟩
      | cons p pending =>
          rw [List.length_cons] at hn
          omega
  | succ n ih =>
      obtain ⟨pending, count⟩ := s
      cases pending with
      | nil => exact ⟨_, rfl⟩
      | cons p pending =>
          obtain ⟨item, depth⟩ := p
          rw [run]
          cases visit limits depth (view item) with
          | error e => exact ⟨_, rfl⟩
          | ok nested =>
              dsimp only
              split
              · exact ⟨_, rfl⟩
              · next hfew =>
                  dsimp only at hcount hn
                  rw [List.length_cons] at hn
                  refine ih (Nat.le_of_not_lt hfew) ?_
                  rw [List.length_append, List.length_reverse, List.length_map]
                  dsimp only
                  omega

end Loop

/-! ## Trees -/

/-- A finite tree of Python objects. -/
inductive Tree (F : Type)
  | none
  | bool (b : Bool)
  | int (i : ℤ)
  | float (x : F)
  | str (s : Str)
  | list (items : List (Tree F))
  | dict (items : List (ObjectKey × Tree F))
  | other (typeName : Str)

namespace Tree

variable {F : Type}

/-- What `_validate_json_value` sees of a tree. -/
def view : Tree F → Shape F (Tree F)
  | .none => .none
  | .bool b => .bool b
  | .int i => .int i
  | .float x => .float x
  | .str s => .str s
  | .list items => .list items
  | .dict items => .dict items
  | .other typeName => .other typeName

mutual

/-- The items of all lists and dicts in a tree. -/
def items : Tree F → ℕ
  | .list l => l.length + listItems l
  | .dict l => l.length + dictItems l
  | .none | .bool _ | .int _ | .float _ | .str _ | .other _ => 0

/-- The items in the items of a list. -/
def listItems : List (Tree F) → ℕ
  | [] => 0
  | t :: l => t.items + listItems l

/-- The items in the values of a dict. -/
def dictItems : List (ObjectKey × Tree F) → ℕ
  | [] => 0
  | (_, t) :: l => t.items + dictItems l

end

/-- A value of a tree, with its depth. -/
inductive Occurs : Tree F → ℕ → Tree F → Prop
  | root (t : Tree F) : Occurs t 0 t
  | nested {t c u : Tree F} {depth : ℕ} (hc : c ∈ t.view.nested) (h : Occurs c depth u) :
      Occurs t (depth + 1) u

/-- They are added. -/
theorem listItems_eq (l : List (Tree F)) : listItems l = (l.map items).sum := by
  induction l with
  | nil => rfl
  | cons t l ih => rw [listItems, ih, List.map_cons, List.sum_cons]

/-- They are added. -/
theorem dictItems_eq (l : List (ObjectKey × Tree F)) :
    dictItems l = ((l.map Prod.snd).map items).sum := by
  induction l with
  | nil => rfl
  | cons p l ih =>
      obtain ⟨k, t⟩ := p
      rw [dictItems, ih, List.map_cons, List.map_cons, List.sum_cons]

/-- A container has its own items and those of what it contains. -/
theorem items_eq (t : Tree F) :
    t.items = t.view.nested.length + (t.view.nested.map items).sum := by
  cases t with
  | list l => rw [items, listItems_eq]; rfl
  | dict l =>
      rw [items, dictItems_eq, view, Shape.nested, List.length_map]
  | _ => simp [items, view, Shape.nested]

variable [PyFloat F]

/-- Every value of a tree that is at a depth passes its checks. -/
def Valid (limits : Limits) (depth : ℕ) (t : Tree F) : Prop :=
  ∀ k u, Occurs t k u → u.view.Passes limits (depth + k)

/-- **The portable trees**: every value passes its checks at its depth, and all lists and dicts
together have few enough items. -/
structure Portable (limits : Limits) (t : Tree F) : Prop where
  values : ∀ depth u, Occurs t depth u → u.view.Passes limits depth
  items : t.items ≤ limits.maxCollectionItems

/-- A tree passes where its root and its subtrees do. -/
theorem valid_iff {limits : Limits} {depth : ℕ} {t : Tree F} :
    Valid limits depth t ↔ t.view.Passes limits depth ∧
      ∀ c ∈ t.view.nested, Valid limits (depth + 1) c := by
  constructor
  · intro h
    refine ⟨h 0 t (.root t), fun c hc k u hu => ?_⟩
    rw [Nat.add_right_comm]
    exact h (k + 1) u (.nested hc hu)
  · rintro ⟨hroot, hnested⟩ k u hu
    cases hu with
    | root => exact hroot
    | nested hc h =>
        have hpasses := hnested _ hc _ u h
        rwa [Nat.add_right_comm] at hpasses

/-- What the loop answers of the trees on its stack. -/
theorem run_eq_ok {limits : Limits} {n : ℕ} {s : LoopState (Tree F)}
    {result : Except SerializationError Unit}
    (hcount : s.collectionItems ≤ limits.maxCollectionItems)
    (h : run limits view n s = some result) :
    result = .ok () ↔ (∀ p ∈ s.pending, Valid limits p.2 p.1) ∧
      s.collectionItems + (s.pending.map fun p => p.1.items).sum ≤ limits.maxCollectionItems := by
  induction n generalizing s with
  | zero =>
      obtain ⟨pending, count⟩ := s
      cases pending with
      | nil =>
          cases h
          simpa using hcount
      | cons p pending => cases h
  | succ n ih =>
      obtain ⟨pending, count⟩ := s
      cases pending with
      | nil =>
          cases h
          simpa using hcount
      | cons p pending =>
          obtain ⟨item, depth⟩ := p
          rw [run] at h
          cases hvisit : visit limits depth item.view with
          | error e =>
              rw [hvisit] at h
              cases h
              refine iff_of_false (by simp) fun hall => ?_
              have hitem := (valid_iff.1 (hall.1 (item, depth) (List.mem_cons_self ..))).1
              rw [visit_eq_ok.2 ⟨hitem, rfl⟩] at hvisit
              cases hvisit
          | ok nested =>
              obtain ⟨hpasses, rfl⟩ := visit_eq_ok.1 hvisit
              rw [hvisit] at h
              dsimp only at h
              have hitems := item.items_eq
              rw [List.map_cons, List.sum_cons, List.forall_mem_cons, valid_iff,
                and_iff_right hpasses]
              split at h
              · next hmany =>
                  cases h
                  refine iff_of_false (by simp) fun hall => ?_
                  have hle := hall.2
                  dsimp only at hle
                  omega
              · next hfew =>
                  rw [ih (Nat.le_of_not_lt hfew) h]
                  have hsum : (((item.view.nested.map fun v => (v, depth + 1)).reverse ++
                      pending).map fun p => p.1.items).sum =
                      (item.view.nested.map Tree.items).sum +
                        (pending.map fun p => p.1.items).sum := by
                    rw [List.map_append, List.sum_append, List.map_reverse, List.sum_reverse,
                      List.map_map]
                    rfl
                  rw [hsum]
                  refine and_congr ?_ (by dsimp only; omega)
                  simp only [List.forall_mem_append, List.mem_reverse, List.forall_mem_map]

end Tree

/-! ## The values of `json` -/

section Values

variable {F : Type}

/-- What is seen of a key. -/
def keyView : Key F → ObjectKey
  | .str s => .str s
  | _ => .other

/-- What is seen of a value. -/
def valueView : Value F → Shape F (Value F)
  | .none => .none
  | .bool b => .bool b
  | .int i => .int i
  | .float x => .float x
  | .str s => .str s
  | .list items => .list items
  | .tuple _ => .other (ofChars ['t', 'u', 'p', 'l', 'e'])
  | .dict items => .dict (items.map fun p => (keyView p.1, p.2))

/-- A long name is seen as one. -/
theorem longKey_eq (limits : Limits) (key : Key F) :
    longKey limits key = longObjectKey limits (keyView key) := by
  cases key <;> rfl

/-- The first key that is no name. -/
theorem findSome?_notStringKey (items : List (Key F × Value F)) :
    (items.findSome? fun p => notStringKey p.1) =
      if (items.map fun p => keyView p.1).any (· == .other) then some .keyNotString else none := by
  induction items with
  | nil => rfl
  | cons p items ih =>
      obtain ⟨key, v⟩ := p
      rw [List.findSome?_cons, List.map_cons, List.any_cons, ih]
      cases key <;> rfl

/-- The first name that is too long. -/
theorem findSome?_longKey (limits : Limits) (items : List (Key F × Value F)) :
    (items.findSome? fun p => longKey limits p.1) =
      (items.map fun p => keyView p.1).findSome? (longObjectKey limits) := by
  induction items with
  | nil => rfl
  | cons p items ih =>
      obtain ⟨key, v⟩ := p
      rw [List.findSome?_cons, List.map_cons, List.findSome?_cons, ← longKey_eq]
      cases longKey limits key with
      | some e => rfl
      | none => exact ih

/-- Both functions check the keys of a dict alike. -/
theorem validateKeys_map {α : Type} (limits : Limits) (items : List (Key F × Value F))
    (nested : α) :
    ((validateKeys limits items).map fun _ => nested) =
      checkKeys limits (items.map fun p => keyView p.1) nested := by
  rw [validateKeys, findSome?_notStringKey, findSome?_longKey, checkKeys, keyError]
  cases (items.map fun p => keyView p.1).any (· == .other) with
  | true => rfl
  | false => cases (items.map fun p => keyView p.1).findSome? (longObjectKey limits) <;> rfl

variable [PyFloat F] {limits : Limits}

/-- **A value is visited as it is validated.** -/
theorem visit_valueView {depth : ℕ} (v : Value F) :
    visit limits depth (valueView v) = validateItem limits depth v := by
  cases v with
  | dict items =>
      rw [valueView, visit, validateItem, List.map_map, List.map_map]
      split
      · rfl
      · exact (validateKeys_map limits items (items.map Prod.snd)).symm
  | _ => rfl

/-- What the loop answers of the values on its stack. -/
theorem run_validateLoop {n : ℕ} {pending : List (Value F × ℕ)} {count : ℕ}
    {result : Except SerializationError Unit}
    (h : run limits valueView n ⟨pending, count⟩ = some result) :
    result = validateLoop limits pending count := by
  induction n generalizing pending count with
  | zero =>
      cases pending with
      | nil =>
          cases h
          rw [validateLoop]
      | cons p pending => cases h
  | succ n ih =>
      cases pending with
      | nil =>
          cases h
          rw [validateLoop]
      | cons p pending =>
          obtain ⟨item, depth⟩ := p
          rw [run, visit_valueView] at h
          rw [validateLoop]
          split
          · next e hitem =>
              rw [hitem] at h
              exact (Option.some.inj h).symm
          · next nested hitem =>
              rw [hitem] at h
              dsimp only at h
              split at h
              · next hmany =>
                  rw [if_pos hmany]
                  exact (Option.some.inj h).symm
              · next hfew =>
                  rw [if_neg hfew]
                  exact ih h

/-- **`validateJsonValue` is the loop**, over the values that `json` can write. -/
theorem run_validateJsonValue (v : Value F) :
    run limits valueView (1 + limits.maxCollectionItems) (.start v) =
      some (validateJsonValue limits v) := by
  obtain ⟨result, hresult⟩ := run_ends valueView (s := .start v)
    (Nat.zero_le limits.maxCollectionItems) (Nat.le_refl _)
  rw [validateJsonValue, ← run_validateLoop hresult]
  exact hresult

end Values

/-! ## The law -/

/-- **`validate_json_value` decides the portable predicate, and always ends.**  On every tree
it accepts exactly what is portable; on any objects, with shared ones and cycles, it ends after
at most one pop more than `max_collection_items`; and over the values that `json` can write it is
the function that the serializers call. -/
theorem validation_exact {F : Type} [PyFloat F] (limits : Limits) :
    (∀ t : Tree F, run limits Tree.view (1 + limits.maxCollectionItems) (.start t) =
      some (.ok ()) ↔ t.Portable limits) ∧
    (∀ (ν : Type) (view : ν → Shape F ν) (value : ν), ∃ result,
      run limits view (1 + limits.maxCollectionItems) (.start value) = some result) ∧
    ∀ v : Value F, run limits valueView (1 + limits.maxCollectionItems) (.start v) =
      some (validateJsonValue limits v) := by
  have hends : ∀ (ν : Type) (view : ν → Shape F ν) (value : ν), ∃ result,
      run limits view (1 + limits.maxCollectionItems) (.start value) = some result :=
    fun ν view value => run_ends view (Nat.zero_le _) (Nat.le_refl _)
  refine ⟨fun t => ?_, hends, run_validateJsonValue⟩
  obtain ⟨result, hresult⟩ := hends _ Tree.view t
  have haccepts := Tree.run_eq_ok (Nat.zero_le _) hresult
  rw [hresult, Option.some.injEq, haccepts]
  change (∀ p ∈ [(t, 0)], Tree.Valid limits p.2 p.1) ∧
    0 + ([(t, 0)].map fun p => p.1.items).sum ≤ limits.maxCollectionItems ↔ _
  rw [List.forall_mem_singleton, List.map_singleton, List.sum_singleton, Nat.zero_add]
  constructor
  · rintro ⟨hvalues, hitems⟩
    exact ⟨fun depth u hu => Nat.zero_add depth ▸ hvalues depth u hu, hitems⟩
  · rintro ⟨hvalues, hitems⟩
    exact ⟨fun depth u hu => (Nat.zero_add depth).symm ▸ hvalues depth u hu, hitems⟩

end Serializers
end Paqto
