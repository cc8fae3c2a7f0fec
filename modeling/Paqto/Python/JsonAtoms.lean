/-
# The atoms of JSON values

`Each` says that all keys of a value are strings and that its integers, floats
and strings meet a predicate each.  Sorting keys changes nothing about it
(`each_sortKeys`); a value of writable numbers can be written
(`dumps_of_each`), its text is UTF-8 when its strings are
(`encodable_dumps`), and whatever `json.loads` made is such a value but for its
floats (`loaded_of_loads`).
-/

import Paqto.Python.SortKeys
import Mathlib.Data.List.TakeWhile
import Mathlib.Data.Nat.Digits.Lemmas

namespace Paqto
namespace Python

variable {F : Type}

/-- No code point is a surrogate. -/
def Encodable (s : Str) : Prop := ∀ n ∈ s, n.isValidChar

instance (s : Str) : Decidable (Encodable s) := List.decidableBAll _ s

/-- UTF-8 has bytes for a string exactly when it is encodable. -/
theorem encodeUtf8_eq_some {s : Str} : (∃ b, encodeUtf8 s = some b) ↔ Encodable s := by
  unfold encodeUtf8
  split
  · next h => exact iff_of_true ⟨_, rfl⟩ h
  · next h => exact iff_of_false (by simp) h

/-- The number of bytes of an encodable string. -/
def utf8Length (s : Str) : ℕ := ((s.map Char.ofNat).flatMap String.utf8EncodeChar).length

/-- As many bytes as `utf8Length` says. -/
theorem encodeUtf8_length {s : Str} {b : Bytes} (h : encodeUtf8 s = some b) :
    b.length = utf8Length s := by
  unfold encodeUtf8 at h
  split at h
  · obtain rfl := Option.some.inj h
    rfl
  · cases h

/-- The lengths of two parts are added. -/
theorem utf8Length_append (s t : Str) : utf8Length (s ++ t) = utf8Length s + utf8Length t := by
  rw [utf8Length, List.map_append, List.flatMap_append, List.length_append]
  rfl

/-- The empty string. -/
theorem encodable_nil : Encodable [] := nofun

/-- Its first character, and the rest. -/
theorem encodable_cons {n : ℕ} {s : Str} : Encodable (n :: s) ↔ n.isValidChar ∧ Encodable s :=
  List.forall_mem_cons

/-- Both parts. -/
theorem encodable_append {s t : Str} : Encodable (s ++ t) ↔ Encodable s ∧ Encodable t :=
  List.forall_mem_append

/-- ASCII text is encodable. -/
theorem encodable_of_ascii {s : Str} (h : ∀ n ∈ s, n < 128) : Encodable s := fun n hn =>
  .inl ((h n hn).trans (by decide))

/-- A predicate for each kind of atom. -/
structure Atoms (F : Type) where
  int : ℤ → Prop
  float : F → Prop
  str : Str → Prop

namespace Value

variable (p : Atoms F)

mutual

/-- The keys are strings, and every atom meets its predicate. -/
def Each : Value F → Prop
  | .none => True
  | .bool _ => True
  | .int i => p.int i
  | .float x => p.float x
  | .str s => p.str s
  | .list items => EachItem items
  | .tuple items => EachItem items
  | .dict items => EachMember items

/-- The same of the items of a list. -/
def EachItem : List (Value F) → Prop
  | [] => True
  | v :: items => v.Each ∧ EachItem items

/-- The same of the names and values of an object. -/
def EachMember : List (Key F × Value F) → Prop
  | [] => True
  | (k, v) :: items => (∃ s, k = .str s ∧ p.str s) ∧ v.Each ∧ EachMember items

end

variable {p}

/-- Each name and each value. -/
theorem eachMember_iff {items : List (Key F × Value F)} :
    EachMember p items ↔ ∀ m ∈ items, (∃ s, m.1 = .str s ∧ p.str s) ∧ m.2.Each p := by
  induction items with
  | nil => simp [EachMember]
  | cons m items ih =>
      rw [List.forall_mem_cons, ← ih]
      exact ⟨fun h => ⟨⟨h.1, h.2.1⟩, h.2.2⟩, fun h => ⟨h.1.1, h.1.2, h.2⟩⟩

/-- The order of members does not matter. -/
theorem eachMember_perm {items items' : List (Key F × Value F)} (h : items.Perm items') :
    EachMember p items ↔ EachMember p items' := by
  rw [eachMember_iff, eachMember_iff]
  exact forall_congr' fun m => by rw [h.mem_iff]

mutual

/-- **Sorting keys keeps the atoms.** -/
theorem each_sortKeys : ∀ (v : Value F) {w : Value F}, sortKeys v = some w → (v.Each p ↔ w.Each p)
  | .none, _, h => by
      obtain rfl := Option.some.inj h
      rfl
  | .bool _, _, h => by
      obtain rfl := Option.some.inj h
      rfl
  | .int _, _, h => by
      obtain rfl := Option.some.inj h
      rfl
  | .float _, _, h => by
      obtain rfl := Option.some.inj h
      rfl
  | .str _, _, h => by
      obtain rfl := Option.some.inj h
      rfl
  | .list items, _, h => by
      rw [sortKeys, Option.map_eq_some_iff] at h
      obtain ⟨l, hl, rfl⟩ := h
      rw [Each, Each]
      exact eachItem_sortItems items hl
  | .tuple items, _, h => by
      rw [sortKeys, Option.map_eq_some_iff] at h
      obtain ⟨l, hl, rfl⟩ := h
      rw [Each, Each]
      exact eachItem_sortItems items hl
  | .dict items, _, h => by
      rw [sortKeys, Option.map_eq_some_iff] at h
      obtain ⟨pairs, hpairs, rfl⟩ := h
      have hperm : (members (F := F) (sortPairs pairs)).Perm (members pairs) :=
        (sortPairs_perm pairs).map _
      rw [Each, Each, eachMember_perm hperm]
      exact eachMember_sortMembers items hpairs

/-- Sorting the names keeps the atoms of a list. -/
theorem eachItem_sortItems : ∀ (items : List (Value F)) {l : List (Value F)},
    sortItems items = some l → (EachItem p items ↔ EachItem p l)
  | [], _, h => by
      obtain rfl := Option.some.inj h
      rfl
  | v :: items, _, h => by
      obtain ⟨w, l, hw, hl, rfl⟩ := sortItems_cons.1 h
      rw [EachItem, EachItem, each_sortKeys v hw, eachItem_sortItems items hl]

/-- It keeps those of an object. -/
theorem eachMember_sortMembers : ∀ (items : List (Key F × Value F))
    {pairs : List (Str × Value F)}, sortMembers items = some pairs →
    (EachMember p items ↔ EachMember p (members pairs))
  | [], _, h => by
      obtain rfl := Option.some.inj h
      rfl
  | (k, v) :: items, _, h => by
      obtain ⟨s, w, rest, rfl, hw, hr, rfl⟩ := sortMembers_cons.1 h
      have hcons : members ((s, w) :: rest) = (.str s, w) :: members (F := F) rest := rfl
      rw [hcons, EachMember, EachMember, each_sortKeys v hw, eachMember_sortMembers items hr]

end

mutual

/-- **Native data has string keys and distinct ones.** -/
theorem distinct_of_native : ∀ v : Value F, v.Native → v.Distinct
  | .none, _ => trivial
  | .bool _, _ => trivial
  | .int _, _ => trivial
  | .float _, _ => trivial
  | .str _, _ => trivial
  | .tuple _, h => absurd h id
  | .list items, h => distinctItems_of_native items h
  | .dict items, h => ⟨h.2, distinctMembers_of_native items h.1⟩

/-- The items of a native list. -/
theorem distinctItems_of_native : ∀ items : List (Value F), NativeItems items → DistinctItems items
  | [], _ => trivial
  | v :: items, h => ⟨distinct_of_native v h.1, distinctItems_of_native items h.2⟩

/-- The members of a native object. -/
theorem distinctMembers_of_native : ∀ items : List (Key F × Value F), NativeMembers items →
    DistinctMembers items
  | [], _ => trivial
  | (_, v) :: items, h => ⟨distinct_of_native v h.2.1, distinctMembers_of_native items h.2.2⟩

end

end Value

/-! ## Writing -/

/-- Any atom: only the keys are strings. -/
def anyAtom : Atoms F := ⟨fun _ => True, fun _ => True, fun _ => True⟩

/-- What `json.dumps` with `allow_nan=False` can write. -/
def writable [PyFloat F] : Atoms F where
  int i := ∃ t, intRepr i = some t
  float x := PyFloat.isFinite x = true
  str _ := True

/-- Strings that UTF-8 can encode. -/
def encodable : Atoms F where
  int _ := True
  float _ := True
  str := Encodable

mutual

/-- A native value has no atoms but these. -/
theorem each_anyAtom : ∀ v : Value F, v.Native → v.Each anyAtom
  | .none, _ => trivial
  | .bool _, _ => trivial
  | .int _, _ => trivial
  | .float _, _ => trivial
  | .str _, _ => trivial
  | .tuple _, h => absurd h id
  | .list items, h => eachItem_anyAtom items h
  | .dict items, h => eachMember_anyAtom items h.1

/-- Nor has a native list. -/
theorem eachItem_anyAtom : ∀ items : List (Value F), Value.NativeItems items →
    Value.EachItem anyAtom items
  | [], _ => trivial
  | v :: items, h => ⟨each_anyAtom v h.1, eachItem_anyAtom items h.2⟩

/-- Nor has a native object. -/
theorem eachMember_anyAtom : ∀ items : List (Key F × Value F), Value.NativeMembers items →
    Value.EachMember anyAtom items
  | [], _ => trivial
  | (_, v) :: items, h =>
      ⟨⟨h.1.choose, h.1.choose_spec, trivial⟩, each_anyAtom v h.2.1, eachMember_anyAtom items h.2.2⟩

end

/-- Encodable text has no surrogates to join. -/
theorem joinSurrogates_of_encodable {s : Str} (h : Encodable s) : joinSurrogates s = s := by
  fun_induction joinSurrogates s with
  | case1 u u' s hpair ih =>
      have hu := h u List.mem_cons_self
      rw [Bool.and_eq_true] at hpair
      simp only [isHighSurrogate, Bool.and_eq_true, decide_eq_true_eq, Nat.isValidChar] at hpair hu
      omega
  | case2 u u' s _ ih => rw [ih fun n hn => h n (List.mem_cons_of_mem u hn)]
  | case3 s => rfl

mutual

/-- **Native data of encodable strings comes back unchanged**, also through ASCII. -/
theorem reread_encodable [PyFloat F] {hooks : Hooks F}
    (hhook : ∀ pairs, (pairs.map Prod.fst).Nodup → hooks.object pairs = some (.dict (members pairs))) :
    ∀ v : Value F, v.Native → v.Each encodable →
    reread hooks joinSurrogates v = some v
  | .none, _, _ => rfl
  | .bool _, _, _ => rfl
  | .int _, _, _ => rfl
  | .float _, _, _ => rfl
  | .str s, _, h => by
      rw [reread, joinSurrogates_of_encodable h]
  | .tuple _, hv, _ => absurd hv id
  | .list items, hv, h => by
      rw [reread, rereadItems_encodable hhook items hv h]
      rfl
  | .dict items, hv, h => by
      obtain ⟨pairs, rfl, hm⟩ := rereadMembers_encodable hhook items hv.1 h
      rw [reread, hm]
      refine hhook pairs ?_
      have hmap : (members pairs).map Prod.fst = (pairs.map Prod.fst).map (Key.str (F := F)) := by
        simp [members, List.map_map, Function.comp_def]
      have hkeys := hv.2
      rw [hmap] at hkeys
      exact hkeys.of_map

/-- The items that are read again. -/
theorem rereadItems_encodable [PyFloat F] {hooks : Hooks F}
    (hhook : ∀ pairs, (pairs.map Prod.fst).Nodup → hooks.object pairs = some (.dict (members pairs))) :
    ∀ items : List (Value F), Value.NativeItems items →
    Value.EachItem encodable items → rereadItems hooks joinSurrogates items = some items
  | [], _, _ => rfl
  | v :: items, hv, h => by
      rw [rereadItems, reread_encodable hhook v hv.1 h.1, rereadItems_encodable hhook items hv.2 h.2]
      rfl

/-- The members that are read again. -/
theorem rereadMembers_encodable [PyFloat F] {hooks : Hooks F}
    (hhook : ∀ pairs, (pairs.map Prod.fst).Nodup → hooks.object pairs = some (.dict (members pairs))) :
    ∀ items : List (Key F × Value F), Value.NativeMembers items →
    Value.EachMember encodable items →
    ∃ pairs, members pairs = items ∧ rereadMembers hooks joinSurrogates items = some pairs
  | [], _, _ => ⟨[], rfl, rfl⟩
  | (k, v) :: items, hv, h => by
      obtain ⟨k, rfl⟩ := hv.1
      obtain ⟨⟨k', hk', hk⟩, hvalue, hrest⟩ := h
      obtain rfl : k = k' := Key.str.inj hk'
      obtain ⟨pairs, hpairs, hm⟩ := rereadMembers_encodable hhook items hv.2.2 hrest
      refine ⟨(k, v) :: pairs, congrArg _ hpairs, ?_⟩
      rw [rereadMembers, reread_encodable hhook v hv.2.1 hvalue, hm]
      simp only [keyText, Option.bind_eq_bind, Option.bind_some, joinSurrogates_of_encodable hk]
      rfl

end

/-- Data that every JSON writer and reader keep: native, of encodable strings. -/
structure Value.Plain (v : Value F) : Prop where
  native : v.Native
  encodable : v.Each encodable

/-- A list of plain values is plain. -/
theorem Value.plain_list {items : List (Value F)} (h : ∀ v ∈ items, v.Plain) :
    (Value.list items).Plain := by
  induction items with
  | nil => exact ⟨trivial, trivial⟩
  | cons v items ih =>
      have hrest := ih fun w hw => h w (List.mem_cons_of_mem v hw)
      have hhead := h v List.mem_cons_self
      exact ⟨⟨hhead.native, hrest.native⟩, ⟨hhead.encodable, hrest.encodable⟩⟩

/-- A dict of plain members. -/
theorem Value.plain_dict (names : List Str) {items : List (Key F × Value F)}
    (hkeys : items.map Prod.fst = names.map .str) (hnodup : names.Nodup)
    (hnames : ∀ name ∈ names, Encodable name) (h : ∀ item ∈ items, item.2.Plain) :
    (Value.dict items).Plain := by
  have hkey : ∀ item ∈ items, ∃ name ∈ names, item.1 = .str name := by
    intro item hmem
    have hfst : item.1 ∈ items.map Prod.fst := List.mem_map_of_mem hmem
    rw [hkeys] at hfst
    obtain ⟨name, hname, heq⟩ := List.mem_map.1 hfst
    exact ⟨name, hname, heq.symm⟩
  refine ⟨⟨Value.nativeMembers_iff.2 fun item hmem => ?_, ?_⟩, Value.eachMember_iff.2 fun item hmem => ?_⟩
  · obtain ⟨name, -, heq⟩ := hkey item hmem
    exact ⟨⟨name, heq⟩, (h item hmem).native⟩
  · rw [hkeys]
    exact hnodup.map fun _ _ heq => Key.str.inj heq
  · obtain ⟨name, hname, heq⟩ := hkey item hmem
    exact ⟨⟨name, heq, hnames name hname⟩, (h item hmem).encodable⟩

section Writing

variable [PyFloat F] {write : Str → Str}

mutual

/-- **A value of writable numbers can be written.** -/
theorem dumps_of_each : ∀ (v : Value F), v.Each writable → ∃ t, dumpsWith write v = some t
  | .none, _ => ⟨_, by rw [dumpsWith]⟩
  | .bool true, _ => ⟨_, by rw [dumpsWith]⟩
  | .bool false, _ => ⟨_, by rw [dumpsWith]⟩
  | .int i, h => by
      obtain ⟨t, ht⟩ := h
      exact ⟨t, by rw [dumpsWith, ht]⟩
  | .float x, h => by
      have hx : PyFloat.isFinite x = true := h
      exact ⟨_, by rw [dumpsWith, floatText, if_pos hx]⟩
  | .str s, _ => ⟨_, by rw [dumpsWith]⟩
  | .list [], _ => ⟨_, by rw [dumpsWith]⟩
  | .tuple [], _ => ⟨_, by rw [dumpsWith]⟩
  | .list (v :: items), h => by
      obtain ⟨t, ht⟩ := dumps_of_each v h.1
      obtain ⟨u, hu⟩ := dumpsItems_of_each items h.2
      exact ⟨_, by rw [dumpsWith, ht, hu]; rfl⟩
  | .tuple (v :: items), h => by
      obtain ⟨t, ht⟩ := dumps_of_each v h.1
      obtain ⟨u, hu⟩ := dumpsItems_of_each items h.2
      exact ⟨_, by rw [dumpsWith, ht, hu]; rfl⟩
  | .dict [], _ => ⟨_, by rw [dumpsWith]⟩
  | .dict ((k, v) :: items), h => by
      obtain ⟨⟨s, rfl, -⟩, hv, hitems⟩ := h
      obtain ⟨t, ht⟩ := dumps_of_each v hv
      obtain ⟨u, hu⟩ := dumpsMembers_of_each items hitems
      exact ⟨_, by rw [dumpsWith, keyText, ht, hu]; rfl⟩

/-- Writable items are written. -/
theorem dumpsItems_of_each : ∀ (items : List (Value F)), Value.EachItem writable items →
    ∃ t, dumpsItems write items = some t
  | [], _ => ⟨_, by rw [dumpsItems]⟩
  | v :: items, h => by
      obtain ⟨t, ht⟩ := dumps_of_each v h.1
      obtain ⟨u, hu⟩ := dumpsItems_of_each items h.2
      exact ⟨_, by rw [dumpsItems, ht, hu]; rfl⟩

/-- Writable members are written. -/
theorem dumpsMembers_of_each : ∀ (items : List (Key F × Value F)),
    Value.EachMember writable items → ∃ t, dumpsMembers write items = some t
  | [], _ => ⟨_, by rw [dumpsMembers]⟩
  | (k, v) :: items, h => by
      obtain ⟨⟨s, rfl, -⟩, hv, hitems⟩ := h
      obtain ⟨t, ht⟩ := dumps_of_each v hv
      obtain ⟨u, hu⟩ := dumpsMembers_of_each items hitems
      exact ⟨_, by rw [dumpsMembers, keyText, ht, hu]; rfl⟩

end

mutual

/-- **A value that was written has writable numbers.** -/
theorem each_of_dumps : ∀ (v : Value F) {t : Str}, v.Each anyAtom → dumpsWith write v = some t →
    v.Each writable
  | .none, _, _, _ => trivial
  | .bool _, _, _, _ => trivial
  | .int i, t, _, h => ⟨t, by rwa [dumpsWith] at h⟩
  | .float x, _, _, h => by
      rw [dumpsWith, floatText] at h
      split at h
      · next hx => exact hx
      · cases h
  | .str _, _, _, _ => trivial
  | .list [], _, _, _ => trivial
  | .tuple [], _, _, _ => trivial
  | .list (v :: items), _, hv, h => by
      obtain ⟨u, w, hu, hw, -⟩ := dumps_list h
      exact ⟨each_of_dumps v hv.1 hu, eachItem_of_dumpsItems items hv.2 hw⟩
  | .tuple (v :: items), _, hv, h => by
      rw [dumps_tuple] at h
      obtain ⟨u, w, hu, hw, -⟩ := dumps_list h
      exact ⟨each_of_dumps v hv.1 hu, eachItem_of_dumpsItems items hv.2 hw⟩
  | .dict [], _, _, _ => trivial
  | .dict ((k, v) :: items), _, hv, h => by
      obtain ⟨kt, u, w, -, hu, hw, -⟩ := dumps_dict h
      exact ⟨hv.1, each_of_dumps v hv.2.1 hu, eachMember_of_dumpsMembers items hv.2.2 hw⟩

/-- Items that are written are writable. -/
theorem eachItem_of_dumpsItems : ∀ (items : List (Value F)) {t : Str},
    Value.EachItem anyAtom items → dumpsItems write items = some t →
    Value.EachItem writable items
  | [], _, _, _ => trivial
  | v :: items, _, hv, h => by
      obtain ⟨u, w, hu, hw, -⟩ := dumpsItems_cons h
      exact ⟨each_of_dumps v hv.1 hu, eachItem_of_dumpsItems items hv.2 hw⟩

/-- Members that are written are writable. -/
theorem eachMember_of_dumpsMembers : ∀ (items : List (Key F × Value F)) {t : Str},
    Value.EachMember anyAtom items → dumpsMembers write items = some t →
    Value.EachMember writable items
  | [], _, _, _ => trivial
  | (k, v) :: items, _, hv, h => by
      obtain ⟨kt, u, w, -, hu, hw, -⟩ := dumpsMembers_cons h
      exact ⟨hv.1, each_of_dumps v hv.2.1 hu, eachMember_of_dumpsMembers items hv.2.2 hw⟩

end

end Writing

/-! ## Text that UTF-8 can encode -/

/-- Digits are encodable. -/
theorem ascii_digits {s : Str} (h : ∀ d ∈ s, isDigit d = true) : Encodable s :=
  encodable_of_ascii fun d hd => by
    have hdigit := h d hd
    simp only [isDigit, Bool.and_eq_true, decide_eq_true_eq] at hdigit
    omega

/-- A number is written in digits. -/
theorem isDigit_natText (n : ℕ) : ∀ d ∈ natText n, isDigit d = true := by
  rcases natText_intPart n with h | ⟨d, ds, h, -, hd, hds⟩
  · rw [h]
    simp [isDigit]
  · rw [h]
    exact List.forall_mem_cons.2 ⟨hd, hds⟩

/-- The text of an integer is encodable. -/
theorem encodable_intText (i : ℤ) : Encodable (intText i) := by
  cases i with
  | ofNat n => exact ascii_digits (isDigit_natText n)
  | negSucc n => exact encodable_cons.2 ⟨by decide, ascii_digits (isDigit_natText (n + 1))⟩

/-- So is that of a float. -/
theorem encodable_floatText {s : Str} (h : FloatText s) : Encodable s := by
  obtain ⟨sign, int, frac, exp, rfl, hsign, hint, hfrac, hexp, -⟩ := h
  have hs : Encodable sign := by
    rcases hsign with rfl | rfl <;> decide
  have hi : Encodable int := by
    rcases hint with rfl | ⟨d, ds, rfl, -, hd, hds⟩
    · decide
    · exact ascii_digits (List.forall_mem_cons.2 ⟨hd, hds⟩)
  have hf : Encodable frac := by
    rcases hfrac with rfl | ⟨ds, rfl, -, hds⟩
    · exact encodable_nil
    · exact encodable_cons.2 ⟨by decide, ascii_digits hds⟩
  have he : Encodable exp := by
    rcases hexp with rfl | ⟨c, sign, ds, rfl, hc, hsign, -, hds⟩
    · exact encodable_nil
    · refine encodable_cons.2 ⟨?_, encodable_append.2 ⟨?_, ascii_digits hds⟩⟩
      · rcases hc with rfl | rfl <;> decide
      · rcases hsign with rfl | rfl | rfl <;> decide
  exact encodable_append.2 ⟨encodable_append.2 ⟨encodable_append.2 ⟨hs, hi⟩, hf⟩, he⟩

/-- A hexadecimal digit is ASCII. -/
theorem hexDigit_lt {n : ℕ} (h : n < 16) : hexDigit n < 128 := by
  unfold hexDigit
  split <;> omega

/-- Only the character itself may be a surrogate. -/
theorem encodable_escapeChar (n : ℕ) : Encodable (escapeChar n) ↔ n.isValidChar := by
  by_cases hn : n ∈ [34, 92, 10, 13, 9, 12, 8]
  · simp only [List.mem_cons, List.not_mem_nil, or_false] at hn
    rcases hn with rfl | rfl | rfl | rfl | rfl | rfl | rfl <;> exact iff_of_true (by decide) (by decide)
  · simp only [List.mem_cons, List.not_mem_nil, or_false, not_or] at hn
    unfold escapeChar
    rw [if_neg hn.1, if_neg hn.2.1, if_neg hn.2.2.1, if_neg hn.2.2.2.1, if_neg hn.2.2.2.2.1,
      if_neg hn.2.2.2.2.2.1, if_neg hn.2.2.2.2.2.2]
    split
    · next hlt =>
        refine iff_of_true (encodable_of_ascii ?_) (.inl (by omega))
        simp only [List.forall_mem_cons]
        exact ⟨by omega, by omega, by omega, by omega, hexDigit_lt (by omega),
          hexDigit_lt (by omega), nofun⟩
    · simp [Encodable]

/-- **A JSON string is encodable when the string is.** -/
theorem encodable_stringText (s : Str) : Encodable (stringText s) ↔ Encodable s := by
  have hchars : Encodable (s.flatMap escapeChar) ↔ Encodable s := by
    induction s with
    | nil => exact iff_of_true encodable_nil encodable_nil
    | cons n s ih =>
        rw [List.flatMap_cons, encodable_append, ih, encodable_escapeChar, encodable_cons]
  rw [stringText, encodable_cons, encodable_append, hchars]
  exact ⟨fun h => h.2.1, fun h => ⟨by decide, h, by decide⟩⟩

section Encoding

variable [PyFloat F]

mutual

/-- **A text is encodable when the strings of its value are.** -/
theorem encodable_dumps : ∀ (v : Value F) {t : Str}, v.Each anyAtom → dumps v = some t →
    (Encodable t ↔ v.Each encodable)
  | .none, t, _, h => by
      rw [dumps, dumpsWith] at h
      obtain rfl := Option.some.inj h
      exact iff_of_true (by decide) trivial
  | .bool true, t, _, h => by
      rw [dumps, dumpsWith] at h
      obtain rfl := Option.some.inj h
      exact iff_of_true (by decide) trivial
  | .bool false, t, _, h => by
      rw [dumps, dumpsWith] at h
      obtain rfl := Option.some.inj h
      exact iff_of_true (by decide) trivial
  | .int i, t, _, h => by
      rw [dumps, dumpsWith] at h
      obtain ⟨-, rfl⟩ := intRepr_eq h
      exact iff_of_true (encodable_intText i) trivial
  | .float x, t, _, h => by
      rw [dumps, dumpsWith, floatText] at h
      split at h
      · next hx =>
          obtain rfl := Option.some.inj h
          exact iff_of_true (encodable_floatText (PyFloat.repr_floatText x hx)) trivial
      · cases h
  | .str s, t, _, h => by
      rw [dumps, dumpsWith] at h
      obtain rfl := Option.some.inj h
      exact encodable_stringText s
  | .list [], t, _, h => by
      rw [dumps, dumpsWith] at h
      obtain rfl := Option.some.inj h
      exact iff_of_true (by decide) trivial
  | .tuple [], t, _, h => by
      rw [dumps, dumpsWith] at h
      obtain rfl := Option.some.inj h
      exact iff_of_true (by decide) trivial
  | .list (v :: items), t, hv, h => by
      obtain ⟨u, w, hu, hw, rfl⟩ := dumps_list h
      rw [encodable_cons, encodable_append, encodable_dumps v hv.1 hu,
        encodable_dumpsItems items hv.2 hw]
      exact ⟨fun hall => hall.2, fun hall => ⟨by decide, hall⟩⟩
  | .tuple (v :: items), t, hv, h => by
      rw [dumps, dumps_tuple] at h
      obtain ⟨u, w, hu, hw, rfl⟩ := dumps_list h
      rw [encodable_cons, encodable_append, encodable_dumps v hv.1 hu,
        encodable_dumpsItems items hv.2 hw]
      exact ⟨fun hall => hall.2, fun hall => ⟨by decide, hall⟩⟩
  | .dict [], t, _, h => by
      rw [dumps, dumpsWith] at h
      obtain rfl := Option.some.inj h
      exact iff_of_true (by decide) trivial
  | .dict ((k, v) :: items), t, hv, h => by
      obtain ⟨⟨s, rfl, -⟩, hv, hitems⟩ := hv
      obtain ⟨kt, u, w, hk, hu, hw, rfl⟩ := dumps_dict h
      obtain rfl := Option.some.inj hk
      rw [encodable_cons, encodable_append, encodable_cons, encodable_append,
        encodable_stringText, encodable_dumps v hv hu, encodable_dumpsMembers items hitems hw]
      exact ⟨fun hall => ⟨⟨_, rfl, hall.2.1⟩, hall.2.2.2⟩, fun ⟨⟨_, hs, henc⟩, hall⟩ =>
        ⟨by decide, Key.str.inj hs ▸ henc, by decide, hall⟩⟩

/-- The text of a list is encodable where its strings are. -/
theorem encodable_dumpsItems : ∀ (items : List (Value F)) {t : Str},
    Value.EachItem anyAtom items →
    dumpsItems stringText items = some t → (Encodable t ↔ Value.EachItem encodable items)
  | [], t, _, h => by
      rw [dumpsItems] at h
      obtain rfl := Option.some.inj h
      exact iff_of_true (by decide) trivial
  | v :: items, t, hv, h => by
      obtain ⟨u, w, hu, hw, rfl⟩ := dumpsItems_cons h
      rw [encodable_cons, encodable_append, encodable_dumps v hv.1 hu,
        encodable_dumpsItems items hv.2 hw]
      exact ⟨fun hall => hall.2, fun hall => ⟨by decide, hall⟩⟩

/-- The text of an object is encodable where its strings are. -/
theorem encodable_dumpsMembers : ∀ (items : List (Key F × Value F)) {t : Str},
    Value.EachMember anyAtom items →
    dumpsMembers stringText items = some t → (Encodable t ↔ Value.EachMember encodable items)
  | [], t, _, h => by
      rw [dumpsMembers] at h
      obtain rfl := Option.some.inj h
      exact iff_of_true (by decide) trivial
  | (k, v) :: items, t, hv, h => by
      obtain ⟨⟨s, rfl, -⟩, hv, hitems⟩ := hv
      obtain ⟨kt, u, w, hk, hu, hw, rfl⟩ := dumpsMembers_cons h
      obtain rfl := Option.some.inj hk
      rw [encodable_cons, encodable_append, encodable_cons, encodable_append,
        encodable_stringText, encodable_dumps v hv hu, encodable_dumpsMembers items hitems hw]
      exact ⟨fun hall => ⟨⟨_, rfl, hall.2.1⟩, hall.2.2.2⟩, fun ⟨⟨_, hs, henc⟩, hall⟩ =>
        ⟨by decide, Key.str.inj hs ▸ henc, by decide, hall⟩⟩

end

end Encoding

/-! ## Reading -/

/-- What `json.loads` makes: integers of as many digits as `int` reads. -/
def loadable : Atoms F where
  int i := ∃ t, intRepr i = some t
  float _ := True
  str _ := True

/-- A value has no more digits than its text. -/
theorem digitsValue_lt {s : Str} (h : ∀ d ∈ s, isDigit d = true) :
    digitsValue s < 10 ^ s.length := by
  have hfold : ∀ (s : Str) (n : ℕ), (∀ d ∈ s, isDigit d = true) →
      s.foldl (fun n d => n * 10 + (d - 48)) n < (n + 1) * 10 ^ s.length := by
    intro s
    induction s with
    | nil =>
        intro n _
        simp
    | cons d s ih =>
        intro n hs
        have hd := hs d List.mem_cons_self
        simp only [isDigit, Bool.and_eq_true, decide_eq_true_eq] at hd
        have hlt := ih (n * 10 + (d - 48)) fun e he => hs e (List.mem_cons_of_mem d he)
        rw [List.foldl_cons, List.length_cons]
        calc _ < (n * 10 + (d - 48) + 1) * 10 ^ s.length := hlt
          _ ≤ ((n + 1) * 10) * 10 ^ s.length := Nat.mul_le_mul_right _ (by omega)
          _ = (n + 1) * 10 ^ (s.length + 1) := by rw [Nat.pow_succ]; ring
  have := hfold s 0 h
  rwa [Nat.zero_add, Nat.one_mul] at this

/-- A text of digits is as long as its number, or longer. -/
theorem natText_digitsValue_length {s : Str} (hne : s ≠ []) (h : ∀ d ∈ s, isDigit d = true) :
    (natText (digitsValue s)).length ≤ s.length := by
  unfold natText
  split
  · exact List.length_pos_iff.2 hne
  · rw [List.length_map, List.length_reverse]
    exact (Nat.digits_length_le_iff (by decide) _).2 (digitsValue_lt h)

/-- What is taken are digits. -/
theorem spanDigits_digits (s : Str) : ∀ d ∈ (spanDigits s).1, isDigit d = true :=
  fun _ hd => List.mem_takeWhile_imp hd

/-- An integer has digits, and nothing else. -/
theorem scanInt_digits {s int r : Str} (h : scanInt s = some (int, r)) :
    int ≠ [] ∧ ∀ d ∈ int, isDigit d = true := by
  cases s with
  | nil => cases h
  | cons d s =>
      rw [scanInt] at h
      split at h
      · cases h
        exact ⟨by simp, by simp [isDigit]⟩
      · split at h
        · next hd =>
            cases h
            exact ⟨by simp, List.forall_mem_cons.2 ⟨hd, spanDigits_digits s⟩⟩
        · cases h

section Loading

variable [PyFloat F] {hooks : Hooks F}

/-- A JSON number is a float, or an integer that can be written. -/
theorem each_scanNumber {s r : Str} {v : Value F} (h : scanNumber s = some (v, r)) :
    v.Native ∧ v.Each loadable := by
  simp only [scanNumber] at h
  split at h
  · cases h
  · next int rest hint =>
      obtain ⟨hne, hdigits⟩ := scanInt_digits hint
      split at h
      · split at h
        · cases h
        · next hlen =>
            cases h
            refine ⟨trivial, ?_⟩
            have hle : (natText (digitsValue int)).length ≤ maxStrDigits :=
              (natText_digitsValue_length hne hdigits).trans (by omega)
            show ∃ t, intRepr _ = some t
            unfold intRepr
            split
            · exact ⟨_, if_neg (by simpa using hle)⟩
            · exact ⟨_, if_neg (by simpa using hle)⟩
      · cases h
        exact ⟨trivial, trivial⟩

/-- Objects are dicts of distinct names, and constants that are not finite are
refused. -/
structure Hooks.Strict (hooks : Hooks F) : Prop where
  object : ∀ pairs v, hooks.object pairs = some v →
    (pairs.map Prod.fst).Nodup ∧ v = .dict (members pairs)
  constant : ∀ x, hooks.constant x = none

/-- What a member of an object is. -/
def Loaded (v : Value F) : Prop := v.Native ∧ v.Each loadable

/-- A constant is loaded. -/
theorem loaded_scanConstant (h : hooks.Strict) {s r : Str} {v : Value F}
    (hs : scanConstant hooks s = some (some v, r)) : Loaded v := by
  unfold scanConstant at hs
  simp only [h.constant] at hs
  repeat' split at hs
  all_goals cases hs
  all_goals exact ⟨trivial, trivial⟩

omit [PyFloat F] in
/-- An object of loaded values is loaded. -/
theorem loaded_dict {pairs : List (Str × Value F)} (hnd : (pairs.map Prod.fst).Nodup)
    (h : ∀ p ∈ pairs, Loaded p.2) : Loaded (.dict (members pairs)) := by
  have hmem : ∀ m ∈ members pairs, ∃ p ∈ pairs, (.str p.1, p.2) = m := fun m hm =>
    List.mem_map.1 hm
  refine ⟨⟨Value.nativeMembers_iff.2 fun m hm => ?_, ?_⟩, Value.eachMember_iff.2 fun m hm => ?_⟩
  · obtain ⟨p, hp, rfl⟩ := hmem m hm
    exact ⟨⟨_, rfl⟩, (h p hp).1⟩
  · have hmap : (members pairs).map Prod.fst = (pairs.map Prod.fst).map (Key.str (F := F)) := by
      simp [members, List.map_map, Function.comp_def]
    rw [hmap]
    exact hnd.map fun _ _ => Key.str.inj
  · obtain ⟨p, hp, rfl⟩ := hmem m hm
    exact ⟨⟨_, rfl, trivial⟩, (h p hp).2⟩

omit [PyFloat F] in
/-- So is what a strict hook makes of it. -/
theorem loaded_object (h : hooks.Strict) {pairs : List (Str × Value F)} {v : Value F}
    (hall : ∀ p ∈ pairs, Loaded p.2) (hv : hooks.object pairs = some v) : Loaded v := by
  obtain ⟨hnd, rfl⟩ := h.object pairs v hv
  exact loaded_dict hnd hall

omit [PyFloat F] in
/-- A list of loaded values is loaded. -/
theorem loaded_list {items : List (Value F)} (h : ∀ v ∈ items, Loaded v) :
    Loaded (.list items) := by
  induction items with
  | nil => exact ⟨trivial, trivial⟩
  | cons v items ih =>
      obtain ⟨hn, he⟩ := h v List.mem_cons_self
      obtain ⟨hns, hes⟩ := ih fun w hw => h w (List.mem_cons_of_mem v hw)
      exact ⟨⟨hn, hns⟩, he, hes⟩

/-- A value is loaded, where what it contains is. -/
theorem loaded_parseValue (h : hooks.Strict) {n : ℕ}
    (hitems : ∀ s items r, parseItems hooks n s = some (items, r) → ∀ v ∈ items, Loaded v)
    (hmembers : ∀ s pairs r, parseMembers hooks n s = some (pairs, r) → ∀ p ∈ pairs, Loaded p.2)
    {s r : Str} {v : Value F} (hs : parseValue hooks (n + 1) s = some (v, r)) : Loaded v := by
  rw [parseValue.eq_def] at hs
  simp only at hs
  split at hs
  · obtain ⟨⟨t, u⟩, -, heq⟩ := Option.map_eq_some_iff.1 hs
    cases heq
    exact ⟨trivial, trivial⟩
  · split at hs
    · cases hs
      exact loaded_list (List.forall_mem_nil _)
    · obtain ⟨⟨items, u⟩, hitem, heq⟩ := Option.map_eq_some_iff.1 hs
      cases heq
      exact loaded_list (hitems _ _ _ hitem)
  · split at hs
    · obtain ⟨w, hw, heq⟩ := Option.map_eq_some_iff.1 hs
      cases heq
      have hnone : ∀ p ∈ ([] : List (Str × Value F)), Loaded p.2 :=
        List.forall_mem_nil _
      exact loaded_object h hnone hw
    · simp only [Option.bind_eq_bind, Option.bind_eq_some_iff, Option.pure_def,
        Option.some.injEq] at hs
      obtain ⟨⟨pairs, u⟩, hpairs, w, hw, heq⟩ := hs
      cases heq
      exact loaded_object h (hmembers _ _ _ hpairs) hw
  · split at hs
    · next w u hw =>
        obtain ⟨x, hx, heq⟩ := Option.map_eq_some_iff.1 hs
        subst hx
        cases heq
        exact loaded_scanConstant h hw
    · exact each_scanNumber hs

/-- **Whatever the parser makes**: no tuples, distinct string keys, and integers
that can be written. -/
theorem loaded_parse (h : hooks.Strict) (n : ℕ) :
    (∀ s v r, parseValue hooks n s = some (v, r) → Loaded v) ∧
      (∀ s items r, parseItems hooks n s = some (items, r) → ∀ v ∈ items, Loaded v) ∧
      ∀ s pairs r, parseMembers hooks n s = some (pairs, r) → ∀ p ∈ pairs, Loaded p.2 := by
  induction n with
  | zero =>
      refine ⟨fun s v r hs => ?_, fun s items r hs => ?_, fun s pairs r hs => ?_⟩
      · cases hs
      · cases hs
      · cases hs
  | succ n ih =>
      obtain ⟨ihv, ihi, ihm⟩ := ih
      refine ⟨fun s v r hs => loaded_parseValue h ihi ihm hs, fun s items r hs => ?_,
        fun s pairs r hs => ?_⟩
      · rw [parseItems] at hs
        simp only [Option.bind_eq_bind, Option.bind_eq_some_iff] at hs
        obtain ⟨⟨v, u⟩, hv, hs⟩ := hs
        have hhead := ihv _ _ _ hv
        split at hs
        · cases hs
          exact List.forall_mem_cons.2 ⟨hhead, List.forall_mem_nil _⟩
        · simp only [Option.bind_eq_some_iff, Option.pure_def, Option.some.injEq] at hs
          obtain ⟨⟨rest, w⟩, hrest, heq⟩ := hs
          cases heq
          exact List.forall_mem_cons.2 ⟨hhead, ihi _ _ _ hrest⟩
        · cases hs
      · rw [parseMembers.eq_def] at hs
        simp only at hs
        split at hs
        · simp only [Option.bind_eq_bind, Option.bind_eq_some_iff] at hs
          obtain ⟨⟨k, u⟩, -, hs⟩ := hs
          split at hs
          · simp only [Option.bind_eq_some_iff] at hs
            obtain ⟨⟨v, w⟩, hv, hs⟩ := hs
            have hhead := ihv _ _ _ hv
            split at hs
            · cases hs
              exact List.forall_mem_cons.2 ⟨hhead, List.forall_mem_nil _⟩
            · simp only [Option.bind_eq_some_iff, Option.pure_def, Option.some.injEq] at hs
              obtain ⟨⟨rest, x⟩, hrest, heq⟩ := hs
              cases heq
              exact List.forall_mem_cons.2 ⟨hhead, ihm _ _ _ hrest⟩
            · cases hs
          · cases hs
        · cases hs

/-- **Whatever `json.loads` makes with strict hooks.** -/
theorem loaded_of_loads (h : hooks.Strict) {s : Str} {v : Value F}
    (hs : loadsWith hooks s = some v) : Loaded v := by
  unfold loadsWith at hs
  split at hs
  · next hparse =>
      split at hs
      · cases hs
        exact (loaded_parse h _).1 _ _ _ hparse
      · cases hs
  · cases hs

end Loading

end Python
end Paqto
