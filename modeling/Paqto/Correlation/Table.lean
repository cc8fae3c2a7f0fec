/-
# Calls that wait for an answer, correlated by key

A table as request/reply protocols keep it: a call registers an entry under its
key, an arriving answer takes the entry out and sets the future of its owner,
the loss of a channel fails the entries of that channel, and a call that ends
takes out its own entry and no other.

`Table.Sound P Q n` says that every entry satisfies `P`, that every answer a
future holds satisfies `Q` for its owner, and that there are at most `n`
entries.  `Table.Tracked n`, for calls that are numbered, says that a future
below `n` that is not done has its entry in the table.  Each operation has one
lemma that keeps them.
-/

import Mathlib.Data.List.Basic
import Mathlib.Logic.Function.Basic

namespace Paqto
namespace Correlation

/-- A future with a single waiter. -/
inductive Future (α : Type*)
  | pending
  | result (a : α)
  | error
  | cancelled
  deriving DecidableEq, Repr

/-- What is kept for a registered call: its key, the call, and where its answer
has to come from. -/
structure Entry (κ ι γ π : Type*) where
  key : κ
  owner : ι
  channel : γ
  peer : π
  deriving DecidableEq, Repr

/-- The pending entries and their futures. -/
structure Table (κ ι γ π α : Type*) where
  entries : List (Entry κ ι γ π)
  futures : ι → Future α

variable {κ ι γ π α : Type*} [DecidableEq κ] [DecidableEq ι]

namespace Table

/-- Nothing is pending. -/
def empty : Table κ ι γ π α where
  entries := []
  futures := fun _ => .pending

/-- The entry of a key. -/
def lookup (t : Table κ ι γ π α) (key : κ) : Option (Entry κ ι γ π) :=
  t.entries.find? (·.key = key)

/-- The entry of a key is taken out. -/
def pop (t : Table κ ι γ π α) (key : κ) : Table κ ι γ π α :=
  { t with entries := t.entries.filter (·.key ≠ key) }

/-- Complete a future that is not done. -/
def settle (t : Table κ ι γ π α) (i : ι) (f : Future α) : Table κ ι γ π α :=
  match t.futures i with
  | .pending => { t with futures := Function.update t.futures i f }
  | _ => t

/-- An entry is added, with a pending future. -/
def register (t : Table κ ι γ π α) (e : Entry κ ι γ π) : Table κ ι γ π α where
  entries := t.entries ++ [e]
  futures := Function.update t.futures e.owner .pending

/-- The call that an answer under `key` completes when it comes from peer `p`
over channel `c`. -/
def target [DecidableEq γ] [DecidableEq π] (t : Table κ ι γ π α) (key : κ) (c : γ) (p : π) :
    Option ι :=
  ((t.lookup key).filter fun e => e.channel = c ∧ e.peer = p).map (·.owner)

/-- An answer arrives; one that does not match its entry leaves the table. -/
def resolve [DecidableEq γ] [DecidableEq π] (t : Table κ ι γ π α) (key : κ) (c : γ) (p : π)
    (a : α) : Table κ ι γ π α :=
  match t.target key c p with
  | none => t
  | some i => (t.pop key).settle i (.result a)

/-- Take out the entries of a list that satisfy `q` and fail their owners. -/
def failEntries (q : Entry κ ι γ π → Prop) [DecidablePred q] (t : Table κ ι γ π α) :
    List (Entry κ ι γ π) → Table κ ι γ π α
  | [] => t
  | e :: entries =>
      failEntries q (if q e then (t.pop e.key).settle e.owner .error else t) entries

/-- A channel is lost. -/
def failChannel [DecidableEq γ] (t : Table κ ι γ π α) (c : γ) : Table κ ι γ π α :=
  t.failEntries (·.channel = c) t.entries

/-- Nothing will be answered any more. -/
def failAll (t : Table κ ι γ π α) : Table κ ι γ π α := t.failEntries (fun _ => True) t.entries

/-- The end of a call: its own entry leaves the table, its future is cancelled
if it is not done. -/
def release (t : Table κ ι γ π α) (key : κ) (i : ι) : Table κ ι γ π α :=
  match t.lookup key with
  | some e => if e.owner = i then (t.pop key).settle i .cancelled else t.settle i .cancelled
  | none => t.settle i .cancelled

/-! ## What an operation changes -/

section lemmas

variable {t : Table κ ι γ π α}

omit [DecidableEq κ] in
/-- A future that is settled keeps its entry. -/
@[simp] theorem settle_entries (i : ι) (f : Future α) : (t.settle i f).entries = t.entries := by
  unfold settle; split <;> rfl

omit [DecidableEq κ] in
/-- No other future is settled. -/
theorem settle_futures {i j : ι} {f : Future α} :
    (t.settle i f).futures j = t.futures j ∨ j = i ∧ (t.settle i f).futures j = f := by
  unfold settle
  split
  · by_cases h : j = i
    · exact .inr ⟨h, by simp [h]⟩
    · exact .inl (by simp [h])
  · exact .inl rfl

omit [DecidableEq ι] in
/-- Entries only go. -/
theorem pop_sublist (key : κ) : (t.pop key).entries.Sublist t.entries := List.filter_sublist

/-- Entries only go. -/
theorem failEntries_sublist (q : Entry κ ι γ π → Prop) [DecidablePred q]
    (l : List (Entry κ ι γ π)) : (t.failEntries q l).entries.Sublist t.entries := by
  induction l generalizing t with
  | nil => exact List.Sublist.refl _
  | cons e l ih =>
      unfold failEntries
      split
      · refine ih.trans ?_
        rw [settle_entries]
        exact pop_sublist _
      · exact ih

/-- A failure gives no result. -/
theorem failEntries_result (q : Entry κ ι γ π → Prop) [DecidablePred q]
    (l : List (Entry κ ι γ π)) {i : ι} {a : α}
    (h : (t.failEntries q l).futures i = .result a) : t.futures i = .result a := by
  induction l generalizing t with
  | nil => exact h
  | cons e l ih =>
      unfold failEntries at h
      have h' := ih h
      split at h'
      · rcases settle_futures (t := t.pop e.key) (i := e.owner) (j := i) (f := .error) with
          he | ⟨_, he⟩
        · exact he ▸ h'
        · rw [he] at h'
          cases h'
      · exact h'

/-- Failing removes what it looks for. -/
theorem failEntries_none (q : Entry κ ι γ π → Prop) [DecidablePred q]
    {l : List (Entry κ ι γ π)} {e : Entry κ ι γ π} (hl : e ∈ l) (hq : q e) :
    e ∉ (t.failEntries q l).entries := by
  induction l generalizing t with
  | nil => cases hl
  | cons d l ih =>
      rcases List.mem_cons.1 hl with rfl | hl
      · intro h
        unfold failEntries at h
        rw [if_pos hq] at h
        have := (failEntries_sublist q l).subset h
        simp [pop] at this
      · exact ih hl

/-- Entries only go. -/
theorem release_sublist (key : κ) (i : ι) :
    (t.release key i).entries.Sublist t.entries := by
  unfold release
  split
  · split
    · rw [settle_entries]
      exact pop_sublist key
    · rw [settle_entries]
  · rw [settle_entries]

/-- A release gives no result. -/
theorem release_result {key : κ} {i j : ι} {a : α}
    (h : (t.release key i).futures j = .result a) : t.futures j = .result a := by
  have hsettle : ∀ u : Table κ ι γ π α, u.futures = t.futures →
      (u.settle i .cancelled).futures j = .result a → t.futures j = .result a := by
    intro u hu hr
    rcases settle_futures (t := u) (i := i) (j := j) (f := .cancelled) with he | ⟨_, he⟩
    · rw [← hu, ← he]
      exact hr
    · rw [he] at hr
      cases hr
  unfold release at h
  split at h
  · split at h
    · exact hsettle (t.pop key) rfl h
    · exact hsettle t rfl h
  · exact hsettle t rfl h

/-- Entries only go. -/
theorem resolve_sublist [DecidableEq γ] [DecidableEq π] (key : κ) (c : γ) (p : π) (a : α) :
    (t.resolve key c p a).entries.Sublist t.entries := by
  unfold resolve
  split
  · exact List.Sublist.refl _
  · rw [settle_entries]
    exact pop_sublist key

/-- The entries of the other calls stay. -/
theorem mem_release_of_ne {key : κ} {i : ι} {e : Entry κ ι γ π} (he : e ∈ t.entries)
    (hkey : e.key ≠ key) : e ∈ (t.release key i).entries := by
  unfold release
  split
  · split
    · simpa [pop] using ⟨he, hkey⟩
    · simpa using he
  · simpa using he

end lemmas

/-! ## Sound tables -/

/-- Every entry satisfies `P`, every answer satisfies `Q`, and there are at most
`n` entries. -/
structure Sound (P : Entry κ ι γ π → Prop) (Q : ι → α → Prop) (n : ℕ) (t : Table κ ι γ π α) :
    Prop where
  entry : ∀ e ∈ t.entries, P e
  result : ∀ i a, t.futures i = .result a → Q i a
  bound : t.entries.length ≤ n

namespace Sound

variable {P P' : Entry κ ι γ π → Prop} {Q Q' : ι → α → Prop} {n : ℕ} {t : Table κ ι γ π α}

omit [DecidableEq κ] [DecidableEq ι] in
/-- Nothing is pending. -/
theorem empty : (Table.empty : Table κ ι γ π α).Sound P Q n := by
  refine ⟨by simp [Table.empty], fun i a h => ?_, by simp [Table.empty]⟩
  cases h

omit [DecidableEq κ] [DecidableEq ι] in
/-- Weaker conditions. -/
theorem mono (h : t.Sound P Q n) (hP : ∀ e ∈ t.entries, P e → P' e)
    (hQ : ∀ i a, t.futures i = .result a → Q i a → Q' i a) : t.Sound P' Q' n :=
  ⟨fun e he => hP e he (h.entry e he), fun i a hi => hQ i a hi (h.result i a hi), h.bound⟩

omit [DecidableEq κ] [DecidableEq ι] in
/-- What only takes entries out and adds no answer keeps a table sound. -/
theorem of_sublist (h : t.Sound P Q n) {u : Table κ ι γ π α}
    (hu : u.entries.Sublist t.entries)
    (hf : ∀ i a, u.futures i = .result a → t.futures i = .result a) : u.Sound P Q n :=
  ⟨fun e he => h.entry e (hu.subset he), fun i a hi => h.result i a (hf i a hi),
    Nat.le_trans hu.length_le h.bound⟩

/-- The entries of a channel fail. -/
theorem failChannel [DecidableEq γ] (h : t.Sound P Q n) (c : γ) :
    (t.failChannel c).Sound P Q n :=
  h.of_sublist (failEntries_sublist _ _) fun _ _ => failEntries_result _ _

/-- All entries fail. -/
theorem failAll (h : t.Sound P Q n) : t.failAll.Sound P Q n :=
  h.of_sublist (failEntries_sublist _ _) fun _ _ => failEntries_result _ _

/-- An entry is released. -/
theorem release (h : t.Sound P Q n) (key : κ) (i : ι) : (t.release key i).Sound P Q n :=
  h.of_sublist (release_sublist key i) fun _ _ => release_result

omit [DecidableEq κ] in
/-- A waiter is cancelled. -/
theorem cancel (h : t.Sound P Q n) (i : ι) : (t.settle i .cancelled).Sound P Q n := by
  refine h.of_sublist (by rw [settle_entries]) fun j a hj => ?_
  rcases settle_futures (t := t) (i := i) (j := j) (f := .cancelled) with he | ⟨_, he⟩
  · exact he ▸ hj
  · rw [he] at hj
    cases hj

omit [DecidableEq κ] in
/-- An entry is added. -/
theorem register (h : t.Sound P Q n) {e : Entry κ ι γ π} (he : P e)
    (hlt : t.entries.length < n) : (t.register e).Sound P Q n := by
  refine ⟨fun d hd => ?_, fun i a hi => ?_, ?_⟩
  · rcases List.mem_append.1 hd with hd | hd
    · exact h.entry d hd
    · rw [List.mem_singleton.1 hd]
      exact he
  · by_cases hie : i = e.owner
    · simp [Table.register, hie] at hi
    · exact h.result i a (by simpa [Table.register, hie] using hi)
  · rw [Table.register, List.length_append]
    exact hlt

/-- **An answer completes only the call it was registered for.** -/
theorem resolve [DecidableEq γ] [DecidableEq π] (h : t.Sound P Q n) {key : κ} {c : γ} {p : π}
    {a : α}
    (hQ : ∀ e ∈ t.entries, P e → e.key = key → e.channel = c → e.peer = p →
      t.target key c p = some e.owner → Q e.owner a) :
    (t.resolve key c p a).Sound P Q n := by
  unfold Table.resolve
  split
  · exact h
  · rename_i i hi
    obtain ⟨e, he, rfl⟩ := Option.map_eq_some_iff.1 hi
    obtain ⟨hlookup, hmatch⟩ := Option.filter_eq_some_iff.1 he
    have hmem : e ∈ t.entries := List.mem_of_find?_eq_some hlookup
    have hkey : e.key = key := by simpa using List.find?_some hlookup
    have hcp : e.channel = c ∧ e.peer = p := by simpa using hmatch
    refine ⟨fun d hd => ?_, fun j b hj => ?_, ?_⟩
    · rw [settle_entries] at hd
      exact h.entry d ((pop_sublist key).subset hd)
    · rcases settle_futures (t := t.pop key) (i := e.owner) (j := j) (f := .result a) with
        hs | ⟨rfl, hs⟩
      · exact h.result j b (hs ▸ hj)
      · rw [hs] at hj
        cases hj
        exact hQ e hmem (h.entry e hmem) hkey hcp.1 hcp.2 hi
    · rw [settle_entries]
      exact Nat.le_trans (pop_sublist key).length_le h.bound

/-- **A call that ends leaves nothing behind.**  When the key of an entry
determines its owner, `release` leaves no entry of the call. -/
theorem release_owner (h : t.Sound P Q n) {key : κ} {i : ι}
    (hown : ∀ e, P e → (e.owner = i ↔ e.key = key)) {e : Entry κ ι γ π}
    (he : e ∈ (t.release key i).entries) : e.owner ≠ i := by
  intro hi
  have hmem := (release_sublist key i).subset he
  have hkey := (hown e (h.entry e hmem)).1 hi
  obtain ⟨d, hd⟩ : ∃ d, t.lookup key = some d := by
    rw [← Option.isSome_iff_exists, Table.lookup, List.find?_isSome]
    exact ⟨e, hmem, by simpa using hkey⟩
  have hdkey : d.key = key := by simpa using List.find?_some hd
  have hdown : d.owner = i :=
    (hown d (h.entry d (List.mem_of_find?_eq_some hd))).2 hdkey
  rw [Table.release, hd] at he
  simp [hdown, pop, hkey] at he

end Sound

/-! ## Tracked futures -/

/-- A future that is not done has its entry, and a key has one owner. -/
structure Tracked (n : ℕ) (t : Table κ ℕ γ π α) : Prop where
  pending : ∀ i < n, t.futures i = .pending → ∃ e ∈ t.entries, e.owner = i
  owner : ∀ e ∈ t.entries, ∀ d ∈ t.entries, e.key = d.key → e.owner = d.owner

namespace Tracked

variable {n : ℕ} {t : Table κ ℕ γ π α}

omit [DecidableEq κ] in
/-- Nothing is pending. -/
theorem empty : (Table.empty : Table κ ℕ γ π α).Tracked 0 :=
  ⟨fun _ hi => absurd hi (Nat.not_lt_zero _), fun e he => by simp [Table.empty] at he⟩

omit [DecidableEq κ] in
/-- Completing a future. -/
theorem settle (h : t.Tracked n) (i : ℕ) {f : Future α} (hf : f ≠ .pending) :
    (t.settle i f).Tracked n := by
  refine ⟨fun j hj hp => ?_, fun e he d hd => ?_⟩
  · rw [settle_entries]
    rcases settle_futures (t := t) (i := i) (j := j) (f := f) with hs | ⟨-, hs⟩
    · exact h.pending j hj (hs ▸ hp)
    · exact absurd (hs.symm.trans hp) hf
  · rw [settle_entries] at he hd
    exact h.owner e he d hd

/-- An entry leaves the table and its owner's future is completed. -/
theorem pop_settle (h : t.Tracked n) {key : κ} {i : ℕ} {f : Future α} (hf : f ≠ .pending)
    (hown : ∀ e ∈ t.entries, e.key = key → e.owner = i) :
    ((t.pop key).settle i f).Tracked n := by
  refine ⟨fun j hj hp => ?_, fun e he d hd => ?_⟩
  · have hji : j ≠ i := by
      rintro rfl
      unfold Table.settle at hp
      split at hp
      · simp [hf] at hp
      · next hnp => exact hnp hp
    rw [settle_entries]
    rcases settle_futures (t := t.pop key) (i := i) (j := j) (f := f) with hs | ⟨he, -⟩
    · obtain ⟨e, he, ho⟩ := h.pending j hj (hs ▸ hp)
      refine ⟨e, List.mem_filter.2 ⟨he, ?_⟩, ho⟩
      by_contra hk
      exact hji (ho ▸ hown e he (by simpa using hk))
    · exact absurd he hji
  · rw [settle_entries] at he hd
    exact h.owner e ((pop_sublist key).subset he) d ((pop_sublist key).subset hd)

/-- An entry is added. -/
theorem register (h : t.Tracked n) {e : Entry κ ℕ γ π} (he : e.owner = n)
    (hkey : t.lookup e.key = none) : (t.register e).Tracked (n + 1) := by
  have hfree : ∀ d ∈ t.entries, d.key ≠ e.key := by
    intro d hd hk
    have hnone := List.find?_eq_none.1 hkey d hd
    simp [hk] at hnone
  refine ⟨fun i hi hp => ?_, fun d hd f hf hk => ?_⟩
  · by_cases hie : i = e.owner
    · exact ⟨e, List.mem_append_right _ (List.mem_singleton_self _), hie.symm⟩
    · simp only [Table.register, Function.update_of_ne hie] at hp
      obtain ⟨d, hd, ho⟩ := h.pending i (by omega) hp
      exact ⟨d, List.mem_append_left _ hd, ho⟩
  · rcases List.mem_append.1 hd with hd | hd <;> rcases List.mem_append.1 hf with hf | hf
    · exact h.owner d hd f hf hk
    · have hfe := congrArg Entry.key (List.mem_singleton.1 hf)
      exact absurd (hk.trans hfe) (hfree d hd)
    · have hde := congrArg Entry.key (List.mem_singleton.1 hd)
      exact absurd (hk.symm.trans hde) (hfree f hf)
    · rw [List.mem_singleton.1 hd, List.mem_singleton.1 hf]

/-- An entry is resolved. -/
theorem resolve [DecidableEq γ] [DecidableEq π] (h : t.Tracked n) (key : κ) (c : γ) (p : π)
    (a : α) :
    (t.resolve key c p a).Tracked n := by
  unfold Table.resolve
  split
  · exact h
  · next i hi =>
      obtain ⟨e, he, rfl⟩ := Option.map_eq_some_iff.1 hi
      have hlookup := (Option.filter_eq_some_iff.1 he).1
      have hmem : e ∈ t.entries := List.mem_of_find?_eq_some hlookup
      have hkey : e.key = key := by simpa using List.find?_some hlookup
      exact h.pop_settle (by simp) fun d hd hk => h.owner d hd e hmem (hk.trans hkey.symm)

/-- An entry is released. -/
theorem release (h : t.Tracked n) (key : κ) (i : ℕ) : (t.release key i).Tracked n := by
  unfold Table.release
  split
  · next e he =>
      have hmem : e ∈ t.entries := List.mem_of_find?_eq_some he
      have hkey : e.key = key := by simpa using List.find?_some he
      split
      · next ho =>
          exact h.pop_settle (by simp) fun d hd hk =>
            (h.owner d hd e hmem (hk.trans hkey.symm)).trans ho
      · exact h.settle i (by simp)
  · exact h.settle i (by simp)

/-- The entries to fail are those of the table, or were. -/
theorem failEntries (h : t.Tracked n) (q : Entry κ ℕ γ π → Prop) [DecidablePred q]
    (l : List (Entry κ ℕ γ π))
    (hl : ∀ e ∈ l, ∀ d ∈ t.entries, d.key = e.key → d.owner = e.owner) :
    (t.failEntries q l).Tracked n := by
  induction l generalizing t with
  | nil => exact h
  | cons e l ih =>
      unfold Table.failEntries
      have hrest : ∀ f ∈ l, ∀ d ∈ t.entries, d.key = f.key → d.owner = f.owner := fun f hf =>
        hl f (List.mem_cons_of_mem _ hf)
      split
      · refine ih (h.pop_settle (by simp) (hl e List.mem_cons_self)) fun f hf d hd hk => ?_
        rw [settle_entries] at hd
        exact hrest f hf d ((pop_sublist e.key).subset hd) hk
      · exact ih h hrest

/-- The entries of a channel fail. -/
theorem failChannel [DecidableEq γ] (h : t.Tracked n) (c : γ) : (t.failChannel c).Tracked n :=
  h.failEntries _ _ fun e he d hd hk => h.owner d hd e he hk

/-- All entries fail. -/
theorem failAll (h : t.Tracked n) : t.failAll.Tracked n :=
  h.failEntries _ _ fun e he d hd hk => h.owner d hd e he hk

omit [DecidableEq κ] in
/-- In a table without entries every future is done. -/
theorem done (h : t.Tracked n) (ht : t.entries = []) : ∀ i < n, t.futures i ≠ .pending := by
  intro i hi hp
  obtain ⟨e, he, -⟩ := h.pending i hi hp
  rw [ht] at he
  cases he

end Tracked

/-- `failAll` leaves no entry. -/
theorem failAll_entries (t : Table κ ι γ π α) : t.failAll.entries = [] := by
  refine List.eq_nil_iff_forall_not_mem.2 fun e he => ?_
  exact failEntries_none _ ((failEntries_sublist _ _).subset he) trivial he

end Table
end Correlation
end Paqto
