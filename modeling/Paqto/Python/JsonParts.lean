/-
# The values inside a JSON value

`v.At d w` says that `w` is a value inside `v`, `d` lists or dicts deep.  What
`json.loads` reads with the hook that keeps every pair (`everyPair`) shows each
name as often as the text has it.  A hook that makes dicts of distinct names and
refuses all others accepts the texts that have distinct names at every depth, and
reads them as this one does (`loads_iff_everyPair`).
-/

import Paqto.Python.JsonRoundTrip

namespace Paqto
namespace Python

variable {F : Type}

namespace Value

/-- A value inside `v`, and how deep. -/
inductive At (v : Value F) : ℕ → Value F → Prop
  | root : At v 0 v
  | item {d : ℕ} {items : List (Value F)} {w : Value F} (h : At v d (.list items))
      (hw : w ∈ items) : At v (d + 1) w
  | member {d : ℕ} {items : List (Key F × Value F)} {p : Key F × Value F}
      (h : At v d (.dict items)) (hp : p ∈ items) : At v (d + 1) p.2

/-- The values a list or dict holds. -/
def parts : Value F → List (Value F)
  | .list items => items
  | .dict items => items.map Prod.snd
  | _ => []

/-- What is nested in a part is nested in the value. -/
theorem At.of_parts {v u w : Value F} {d : ℕ} (hu : u ∈ v.parts) (h : u.At d w) :
    v.At (d + 1) w := by
  induction h with
  | root =>
      cases v with
      | list items => exact .item .root hu
      | dict items =>
          obtain ⟨p, hp, rfl⟩ := List.mem_map.1 hu
          exact .member .root hp
      | _ => cases hu
  | item _ hw ih => exact .item ih hw
  | member _ hp ih => exact .member ih hp

/-- **A value inside another is it, or is inside one of its parts.** -/
theorem at_iff {v w : Value F} {d : ℕ} :
    v.At d w ↔ (d = 0 ∧ w = v) ∨ ∃ e u, d = e + 1 ∧ u ∈ v.parts ∧ u.At e w := by
  constructor
  · intro h
    induction h with
    | root => exact Or.inl ⟨rfl, rfl⟩
    | @item d items w _ hw ih =>
        obtain ⟨rfl, rfl⟩ | ⟨e, u, rfl, hu, hat⟩ := ih
        · exact Or.inr ⟨0, w, rfl, hw, .root⟩
        · exact Or.inr ⟨e + 1, u, rfl, hu, .item hat hw⟩
    | @member d items p _ hp ih =>
        obtain ⟨rfl, rfl⟩ | ⟨e, u, rfl, hu, hat⟩ := ih
        · exact Or.inr ⟨0, p.2, rfl, List.mem_map_of_mem hp, .root⟩
        · exact Or.inr ⟨e + 1, u, rfl, hu, .member hat hp⟩
  · rintro (⟨rfl, rfl⟩ | ⟨e, u, rfl, hu, hat⟩)
    · exact .root
    · exact .of_parts hu hat

/-- What holds at every depth holds at the top and at every depth of the parts. -/
theorem forall_at_iff {v : Value F} {P : ℕ → Value F → Prop} :
    (∀ d w, v.At d w → P d w) ↔ P 0 v ∧ ∀ u ∈ v.parts, ∀ d w, u.At d w → P (d + 1) w := by
  constructor
  · intro h
    exact ⟨h 0 v .root, fun u hu d w hat => h (d + 1) w (.of_parts hu hat)⟩
  · rintro ⟨hroot, hparts⟩ d w hat
    obtain ⟨rfl, rfl⟩ | ⟨e, u, rfl, hu, hat⟩ := at_iff.1 hat
    · exact hroot
    · exact hparts u hu e w hat

/-- The names of a dict are distinct. -/
def OwnNamesDistinct : Value F → Prop
  | .dict items => (items.map Prod.fst).Nodup
  | _ => True

/-- No name occurs twice in a dict, at any depth. -/
def NamesDistinct (v : Value F) : Prop := ∀ d w, v.At d w → w.OwnNamesDistinct

/-- The names of a value, and those of its parts. -/
theorem namesDistinct_iff {v : Value F} :
    v.NamesDistinct ↔ v.OwnNamesDistinct ∧ ∀ u ∈ v.parts, u.NamesDistinct := forall_at_iff

/-- Those of the items. -/
theorem namesDistinct_list {items : List (Value F)} :
    (Value.list items).NamesDistinct ↔ ∀ v ∈ items, v.NamesDistinct :=
  namesDistinct_iff.trans (and_iff_right trivial)

/-- Those of the members. -/
theorem namesDistinct_members {pairs : List (Str × Value F)} :
    (Value.dict (members pairs)).NamesDistinct ↔
      (pairs.map Prod.fst).Nodup ∧ ∀ p ∈ pairs, p.2.NamesDistinct := by
  have hnames : (members pairs).map Prod.fst = (pairs.map Prod.fst).map (Key.str (F := F)) := by
    simp [members, List.map_map, Function.comp_def]
  have hinj : Function.Injective (Key.str (F := F)) := fun _ _ => Key.str.inj
  have hparts : (Value.dict (members pairs)).parts = pairs.map Prod.snd := by
    simp [parts, members, List.map_map, Function.comp_def]
  rw [namesDistinct_iff, OwnNamesDistinct, hnames, List.nodup_map_iff hinj, hparts,
    List.forall_mem_map]

end Value

/-- The hook that keeps every pair, of equal names too. -/
def everyPair (pairs : List (Str × Value F)) : Option (Value F) := some (.dict (members pairs))

/-- The hooks of `loads`. -/
def loadsHooks (hook : List (Str × Value F) → Option (Value F)) : Hooks F :=
  ⟨hook, fun x => some (.float x)⟩

/-- The hook makes dicts of distinct names, and refuses names that are not. -/
def RefusesDuplicates (hook : List (Str × Value F) → Option (Value F)) : Prop :=
  ∀ pairs v, hook pairs = some v ↔ (pairs.map Prod.fst).Nodup ∧ v = .dict (members pairs)

/-- Those of a value without parts. -/
theorem namesDistinct_of_atom {v : Value F} (hparts : v.parts = []) (hown : v.OwnNamesDistinct) :
    v.NamesDistinct := by
  rw [Value.namesDistinct_iff, hparts]
  exact ⟨hown, List.forall_mem_nil _⟩

section Parse

variable [PyFloat F] {hook : List (Str × Value F) → Option (Value F)}

/-- A constant has no names. -/
theorem scanConstant_namesDistinct {s r : Str} {v : Value F}
    (h : scanConstant (loadsHooks hook) s = some (some v, r)) : v.NamesDistinct := by
  unfold scanConstant loadsHooks at h
  repeat' split at h
  all_goals cases h
  all_goals exact namesDistinct_of_atom rfl trivial

/-- Nor has a number. -/
theorem scanNumber_namesDistinct {s r : Str} {v : Value F} (h : scanNumber s = some (v, r)) :
    v.NamesDistinct := by
  simp only [scanNumber] at h
  repeat' split at h
  all_goals cases h
  all_goals exact namesDistinct_of_atom rfl trivial

/-- The two hooks read the same values, but for duplicate names. -/
structure SameParse (hook : List (Str × Value F) → Option (Value F)) (n : ℕ) : Prop where
  value : ∀ s v r, parseValue (loadsHooks hook) n s = some (v, r) ↔
    parseValue (loadsHooks everyPair) n s = some (v, r) ∧ v.NamesDistinct
  items : ∀ s items r, parseItems (loadsHooks hook) n s = some (items, r) ↔
    parseItems (loadsHooks everyPair) n s = some (items, r) ∧ ∀ v ∈ items, v.NamesDistinct
  members : ∀ s pairs r, parseMembers (loadsHooks hook) n s = some (pairs, r) ↔
    parseMembers (loadsHooks everyPair) n s = some (pairs, r) ∧ ∀ p ∈ pairs, p.2.NamesDistinct

omit [PyFloat F] in
/-- What the two hooks make of the pairs of an object. -/
theorem object_iff_everyPair (hhook : RefusesDuplicates hook) {pairs : List (Str × Value F)}
    (hpairs : ∀ p ∈ pairs, p.2.NamesDistinct) (v : Value F) :
    hook pairs = some v ↔ everyPair pairs = some v ∧ v.NamesDistinct := by
  rw [hhook, everyPair, Option.some.injEq]
  constructor
  · rintro ⟨hnd, rfl⟩
    exact ⟨rfl, Value.namesDistinct_members.2 ⟨hnd, hpairs⟩⟩
  · rintro ⟨rfl, hnames⟩
    exact ⟨(Value.namesDistinct_members.1 hnames).1, rfl⟩

/-- A value is read alike, unless a name occurs twice. -/
theorem parseValue_iff_everyPair (hhook : RefusesDuplicates hook) {n : ℕ} (ih : SameParse hook n)
    (s : Str) (v : Value F) (r : Str) :
    parseValue (loadsHooks hook) (n + 1) s = some (v, r) ↔
      parseValue (loadsHooks everyPair) (n + 1) s = some (v, r) ∧ v.NamesDistinct := by
  rw [parseValue.eq_def, parseValue.eq_def]
  simp only
  split
  · refine (and_iff_left_of_imp fun h => ?_).symm
    obtain ⟨⟨t, u⟩, -, heq⟩ := Option.map_eq_some_iff.1 h
    cases heq
    exact namesDistinct_of_atom rfl trivial
  · split
    · refine (and_iff_left_of_imp fun h => ?_).symm
      cases h
      exact namesDistinct_of_atom rfl trivial
    · simp only [Option.map_eq_some_iff, Prod.exists, Prod.mk.injEq]
      constructor
      · rintro ⟨items, u, hitems, rfl, rfl⟩
        obtain ⟨hplain, hall⟩ := (ih.items _ _ _).1 hitems
        exact ⟨⟨items, u, hplain, rfl, rfl⟩, Value.namesDistinct_list.2 hall⟩
      · rintro ⟨⟨items, u, hplain, rfl, rfl⟩, hall⟩
        exact ⟨items, u, (ih.items _ _ _).2 ⟨hplain, Value.namesDistinct_list.1 hall⟩, rfl, rfl⟩
  · split
    · have hnone : ∀ p ∈ ([] : List (Str × Value F)), p.2.NamesDistinct := List.forall_mem_nil _
      simp only [loadsHooks, Option.map_eq_some_iff, Prod.mk.injEq,
        object_iff_everyPair hhook hnone]
      constructor
      · rintro ⟨w, ⟨hw, hnames⟩, rfl, rfl⟩
        exact ⟨⟨w, hw, rfl, rfl⟩, hnames⟩
      · rintro ⟨⟨w, hw, rfl, rfl⟩, hnames⟩
        exact ⟨w, ⟨hw, hnames⟩, rfl, rfl⟩
    · simp only [Option.bind_eq_bind, Option.bind_eq_some_iff, Option.pure_def,
        Option.some.injEq, Prod.exists, Prod.mk.injEq]
      constructor
      · rintro ⟨pairs, u, hpairs, w, hw, rfl, rfl⟩
        obtain ⟨hplain, hall⟩ := (ih.members _ _ _).1 hpairs
        obtain ⟨hevery, hnames⟩ := (object_iff_everyPair hhook hall w).1 hw
        exact ⟨⟨pairs, u, hplain, w, hevery, rfl, rfl⟩, hnames⟩
      · rintro ⟨⟨pairs, u, hplain, w, hevery, rfl, rfl⟩, hnames⟩
        have hw : Value.dict (members pairs) = w := Option.some.inj hevery
        have hall := (Value.namesDistinct_members.1 (hw ▸ hnames)).2
        exact ⟨pairs, u, (ih.members _ _ _).2 ⟨hplain, hall⟩, w,
          (object_iff_everyPair hhook hall w).2 ⟨hevery, hnames⟩, rfl, rfl⟩
  · refine (and_iff_left_of_imp fun h => ?_).symm
    split at h
    · next hconstant =>
        obtain ⟨w, rfl, heq⟩ := Option.map_eq_some_iff.1 h
        cases heq
        exact scanConstant_namesDistinct hconstant
    · exact scanNumber_namesDistinct h

/-- So are items. -/
theorem parseItems_iff_everyPair {n : ℕ} (ih : SameParse hook n) (s : Str) (items : List (Value F))
    (r : Str) :
    parseItems (loadsHooks hook) (n + 1) s = some (items, r) ↔
      parseItems (loadsHooks everyPair) (n + 1) s = some (items, r) ∧
        ∀ v ∈ items, v.NamesDistinct := by
  rw [parseItems, parseItems]
  simp only [Option.bind_eq_bind, Option.bind_eq_some_iff, Prod.exists, ih.value]
  constructor
  · rintro ⟨v, u, ⟨hv, hnames⟩, hrest⟩
    split at hrest
    · next hskip =>
        cases hrest
        exact ⟨⟨v, u, hv, by rw [hskip]; rfl⟩, List.forall_mem_singleton.2 hnames⟩
    · next t hskip =>
        simp only [Option.bind_eq_some_iff, Option.pure_def, Option.some.injEq, Prod.exists,
          Prod.mk.injEq, ih.items] at hrest
        obtain ⟨rest, w, ⟨hplain, hall⟩, rfl, rfl⟩ := hrest
        exact ⟨⟨v, u, hv, by rw [hskip]; simp [hplain]⟩, List.forall_mem_cons.2 ⟨hnames, hall⟩⟩
    · cases hrest
  · rintro ⟨⟨v, u, hv, hrest⟩, hall⟩
    split at hrest
    · next hskip =>
        cases hrest
        exact ⟨v, u, ⟨hv, List.forall_mem_singleton.1 hall⟩, by rw [hskip]; rfl⟩
    · next t hskip =>
        simp only [Option.bind_eq_some_iff, Option.pure_def, Option.some.injEq, Prod.exists,
          Prod.mk.injEq] at hrest
        obtain ⟨rest, w, hplain, rfl, rfl⟩ := hrest
        obtain ⟨hnames, hall⟩ := List.forall_mem_cons.1 hall
        have hitems := (ih.items _ _ _).2 ⟨hplain, hall⟩
        exact ⟨v, u, ⟨hv, hnames⟩, by rw [hskip]; simp [hitems]⟩
    · cases hrest

/-- So are members. -/
theorem parseMembers_iff_everyPair {n : ℕ} (ih : SameParse hook n) (s : Str)
    (pairs : List (Str × Value F)) (r : Str) :
    parseMembers (loadsHooks hook) (n + 1) s = some (pairs, r) ↔
      parseMembers (loadsHooks everyPair) (n + 1) s = some (pairs, r) ∧
        ∀ p ∈ pairs, p.2.NamesDistinct := by
  rw [parseMembers.eq_def, parseMembers.eq_def]
  simp only
  split
  · simp only [Option.bind_eq_bind, Option.bind_eq_some_iff, Prod.exists]
    constructor
    · rintro ⟨k, t, hk, hrest⟩
      split at hrest
      · next hcolon =>
          simp only [Option.bind_eq_some_iff, Prod.exists, ih.value] at hrest
          obtain ⟨v, u, ⟨hv, hnames⟩, hrest⟩ := hrest
          split at hrest
          · next hskip =>
              cases hrest
              exact ⟨⟨k, t, hk, by rw [hcolon]; simp [hv, hskip]⟩,
                List.forall_mem_singleton.2 hnames⟩
          · next hskip =>
              simp only [Option.bind_eq_some_iff, Option.pure_def, Option.some.injEq, Prod.exists,
                Prod.mk.injEq, ih.members] at hrest
              obtain ⟨rest, w, ⟨hplain, hall⟩, rfl, rfl⟩ := hrest
              exact ⟨⟨k, t, hk, by rw [hcolon]; simp [hv, hskip, hplain]⟩,
                List.forall_mem_cons.2 ⟨hnames, hall⟩⟩
          · cases hrest
      · cases hrest
    · rintro ⟨⟨k, t, hk, hrest⟩, hall⟩
      split at hrest
      · next hcolon =>
          simp only [Option.bind_eq_some_iff, Prod.exists] at hrest
          obtain ⟨v, u, hv, hrest⟩ := hrest
          split at hrest
          · next hskip =>
              cases hrest
              have hvalue := (ih.value _ _ _).2 ⟨hv, hall (k, v) List.mem_cons_self⟩
              exact ⟨k, t, hk, by rw [hcolon]; simp [hvalue, hskip]⟩
          · next hskip =>
              simp only [Option.bind_eq_some_iff, Option.pure_def, Option.some.injEq, Prod.exists,
                Prod.mk.injEq] at hrest
              obtain ⟨rest, w, hplain, rfl, rfl⟩ := hrest
              obtain ⟨hnames, hall⟩ := List.forall_mem_cons.1 hall
              have hvalue := (ih.value _ _ _).2 ⟨hv, hnames⟩
              have hmembers := (ih.members _ _ _).2 ⟨hplain, hall⟩
              exact ⟨k, t, hk, by rw [hcolon]; simp [hvalue, hskip, hmembers]⟩
          · cases hrest
      · cases hrest
  · simp

/-- **A hook that refuses duplicate names changes nothing else**, at any depth of
the recursion. -/
theorem sameParse (hhook : RefusesDuplicates hook) (n : ℕ) : SameParse hook n := by
  induction n with
  | zero => constructor <;> simp [parseValue, parseItems, parseMembers]
  | succ n ih =>
      exact ⟨parseValue_iff_everyPair hhook ih, parseItems_iff_everyPair ih,
        parseMembers_iff_everyPair ih⟩

/-- **A text is accepted when it is JSON with distinct names at every depth**, and
read as it is. -/
theorem loads_iff_everyPair (hhook : RefusesDuplicates hook) {s : Str} {v : Value F} :
    loads hook s = some v ↔ loads everyPair s = some v ∧ v.NamesDistinct := by
  have hvalue := (sameParse hhook (s.length + 1)).value (skipSpace s)
  have hloads : ∀ hook : List (Str × Value F) → Option (Value F), loads hook s = some v ↔
      ∃ r, parseValue (loadsHooks hook) (s.length + 1) (skipSpace s) = some (v, r) ∧
        skipSpace r = [] := by
    intro hook
    show loadsWith (loadsHooks hook) s = some v ↔ _
    unfold loadsWith
    cases parseValue (loadsHooks hook) (s.length + 1) (skipSpace s) with
    | none => simp
    | some p =>
        obtain ⟨w, r⟩ := p
        by_cases hr : skipSpace r = []
        · simp [hr]
        · simp only [hr, if_false, Option.some.injEq, Prod.mk.injEq]
          constructor
          · intro h
            cases h
          · rintro ⟨_, ⟨rfl, rfl⟩, hempty⟩
            exact absurd hempty hr
  simp only [hloads, hvalue]
  exact ⟨fun ⟨r, ⟨hp, hn⟩, hr⟩ => ⟨⟨r, hp, hr⟩, hn⟩, fun ⟨⟨r, hp, hr⟩, hn⟩ => ⟨r, ⟨hp, hn⟩, hr⟩⟩

end Parse

end Python
end Paqto
