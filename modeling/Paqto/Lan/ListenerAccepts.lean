/-
# The listener loses no accepted connection

Every admitted connection has one place: it waits in `_accepted`, is assigned to
a call that has not yet resumed, or was returned by one call; and calls get
connections in the order of admission.  An `accept()` call that is cancelled after
a connection was assigned to it takes the connection with it, so this holds in the
runs without such a cancellation (`listener_loses_none`).
-/

import Paqto.Lan.Listener
import Mathlib.Data.List.Nodup

namespace Paqto
namespace Lan
namespace Listener

open Transition

variable {cfg : Config} {s t : Listener}

/-! ## Places -/

/-- The connection that a call has. -/
def Call.held : Call → Option ℕ
  | .waiting (.result c) _ => some c
  | .returned c => some c
  | _ => none

/-- The connection that a call holds. -/
def heldBy (s : Listener) (k : ℕ) : Option ℕ := (s.calls k).bind Call.held

/-- Where an admitted connection is. -/
inductive Place
  | accepted
  /-- Assigned to a call that has not resumed. -/
  | assigned (call : ℕ)
  | returned (call : ℕ)
  deriving DecidableEq, Repr

/-- The connection is at a place. -/
def At (s : Listener) (c : ℕ) : Place → Prop
  | .accepted => c ∈ s.accepted
  | .assigned k => ∃ mustCancel, s.calls k = some (.waiting (.result c) mustCancel)
  | .returned k => s.calls k = some (.returned c)

/-- It was assigned to the call, or returned by it. -/
theorem heldBy_eq_some {k c : ℕ} :
    s.heldBy k = some c ↔ s.At c (.assigned k) ∨ s.At c (.returned k) := by
  rw [heldBy]
  cases hk : s.calls k with
  | none => simp [At, hk]
  | some call =>
      cases call with
      | returned b => simp [At, hk, Call.held]
      | raised => simp [At, hk, Call.held]
      | waiting waiter m => cases waiter <;> simp [At, hk, Call.held]

/-- No admitted connection is lost or given twice. -/
structure LosesNone (cfg : Config) (s : Listener) : Prop where
  /-- Every admitted connection is in exactly one place. -/
  placed : ∀ c ∈ s.admitted, ∃! p, s.At c p
  /-- Connections are given to calls in the order of admission. -/
  order : s.admitted = s.assigned.map Prod.snd ++ s.accepted
  /-- What a call has is what it was given. -/
  given : ∀ k c, (k, c) ∈ s.assigned ↔ s.At c (.assigned k) ∨ s.At c (.returned k)
  bound : s.accepted.length ≤ cfg.maxPendingAccepts

/-- No call is cancelled that has a connection and has not resumed. -/
def NoCancelAssigned (s : Listener) : Label → Prop
  | .cancel k => s.closed = false → ∀ c mustCancel, s.calls k ≠ some (.waiting (.result c) mustCancel)
  | _ => True

/-! ## The invariant -/

/-- What holds in every run of the listener. -/
structure Inv (cfg : Config) (s : Listener) : Prop where
  order : s.admitted = s.assigned.map Prod.snd ++ s.accepted
  fresh : ∀ c ∈ s.admitted, c < s.nextConnection
  nodup : s.admitted.Nodup
  calls : ∀ k, s.nextCall ≤ k → s.calls k = none
  bound : s.accepted.length ≤ cfg.maxPendingAccepts
  /-- A call waits only while nothing waits for it. -/
  idle : ∀ k ∈ s.acceptWaiters, isPending s.calls k = true → s.accepted = []
  given : ∀ k c, (k, c) ∈ s.assigned ↔ s.heldBy k = some c
  /-- No call that has a connection is cancelled. -/
  kept : ∀ k c, s.calls k ≠ some (.waiting (.result c) true)

/-- Nothing was accepted yet. -/
theorem inv_initial : Inv cfg initial where
  order := rfl
  fresh := nofun
  nodup := List.nodup_nil
  calls _ _ := rfl
  bound := Nat.zero_le _
  idle := nofun
  given _ _ := by simp [initial, heldBy]
  kept := nofun

/-- A pending waiter. -/
theorem isPending_eq {calls : ℕ → Option Call} {k : ℕ} :
    isPending calls k = true ↔ ∃ mustCancel, calls k = some (.waiting .pending mustCancel) := by
  unfold isPending
  split
  · next m h => exact iff_of_true rfl ⟨m, h⟩
  · next h => exact iff_of_false (by simp) fun ⟨m, hm⟩ => h m hm

/-- The next waiter is pending, and those before it are dropped. -/
theorem nextWaiter_some {calls : ℕ → Option Call} {waiters rest : List ℕ} {k : ℕ}
    (h : nextWaiter calls waiters = (some k, rest)) :
    isPending calls k = true ∧ k ∈ waiters ∧ ∀ j ∈ rest, j ∈ waiters := by
  induction waiters with
  | nil => cases h
  | cons j waiters ih =>
      rw [nextWaiter] at h
      split at h
      · next hj =>
          cases h
          exact ⟨hj, List.mem_cons_self, fun i hi => List.mem_cons_of_mem _ hi⟩
      · obtain ⟨hk, hmem, hrest⟩ := ih h
        exact ⟨hk, List.mem_cons_of_mem _ hmem, fun i hi => List.mem_cons_of_mem _ (hrest i hi)⟩

/-- Without one none is left. -/
theorem nextWaiter_none {calls : ℕ → Option Call} {waiters rest : List ℕ}
    (h : nextWaiter calls waiters = (none, rest)) : rest = [] := by
  induction waiters with
  | nil =>
      cases h
      rfl
  | cons j waiters ih =>
      rw [nextWaiter] at h
      split at h
      · cases h
      · exact ih h

/-- What the calls hold after one of them moves. -/
theorem heldBy_setCall (k : ℕ) (call : Call) (j : ℕ) :
    (s.setCall k call).heldBy j = if j = k then call.held else s.heldBy j := by
  by_cases h : j = k
  · subst h
    rw [heldBy, setCall_self, if_pos rfl]
    rfl
  · rw [heldBy, setCall_of_ne s h, if_neg h]
    rfl

/-! ## Steps -/

/-- A call goes on with the connection it has, or with none. -/
theorem Inv.setCall (h : Inv cfg s) {k : ℕ} {call : Call} (hk : s.calls k ≠ none)
    (hheld : call.held = s.heldBy k) (hkept : ∀ c, call ≠ .waiting (.result c) true)
    (hpending : ∀ m, call ≠ .waiting .pending m) : Inv cfg (s.setCall k call) where
  order := h.order
  fresh := h.fresh
  nodup := h.nodup
  calls j hj := by
    have hne : j ≠ k := by
      rintro rfl
      exact hk (h.calls j hj)
    exact (setCall_of_ne s hne call).trans (h.calls j hj)
  bound := h.bound
  idle j hj hp := by
    refine h.idle j hj ?_
    obtain ⟨m, hm⟩ := isPending_eq.1 hp
    by_cases hjk : j = k
    · subst hjk
      rw [setCall_self] at hm
      exact absurd (Option.some.inj hm) (hpending m)
    · rw [setCall_of_ne s hjk] at hm
      exact isPending_eq.2 ⟨m, hm⟩
  given j c := by
    rw [heldBy_setCall]
    split
    · next hjk =>
        subst hjk
        rw [hheld]
        exact h.given j c
    · exact h.given j c
  kept j c := by
    by_cases hjk : j = k
    · subst hjk
      rw [setCall_self]
      exact fun hc => hkept c (Option.some.inj hc)
    · rw [setCall_of_ne s hjk]
      exact h.kept j c

/-- A call goes on. -/
theorem Inv.resume (h : Inv cfg s) {k : ℕ} (hs : s.resume k = some t) : Inv cfg t := by
  unfold Listener.resume at hs
  split at hs
  · next waiter mustCancel hk =>
      obtain ⟨call, hcall, rfl⟩ := Option.map_eq_some_iff.1 hs
      have hset : Inv cfg (s.setCall k call) := by
        refine h.setCall (by rw [hk]; simp) ?_ ?_ ?_
        · rw [heldBy, hk]
          cases waiter with
          | pending => cases hcall
          | result c =>
              cases mustCancel with
              | true => exact absurd hk (h.kept k c)
              | false =>
                  cases hcall
                  rfl
          | closed => cases mustCancel <;> cases hcall <;> rfl
          | cancelled => cases mustCancel <;> cases hcall <;> rfl
        · intro c hc
          subst hc
          cases waiter <;> cases mustCancel <;> cases hcall
        · intro m hm
          subst hm
          cases waiter <;> cases mustCancel <;> cases hcall
      exact { hset with idle := fun j hj => hset.idle j (List.mem_of_mem_erase hj) }
  · cases hs

/-- A call is cancelled that has no connection yet. -/
theorem Inv.cancel (h : Inv cfg s) {k : ℕ}
    (hG : ∀ c mustCancel, s.calls k ≠ some (.waiting (.result c) mustCancel))
    (hs : s.cancel k = some t) : Inv cfg t := by
  unfold Listener.cancel at hs
  split at hs
  · next m hk =>
      cases hs
      exact h.setCall (by rw [hk]; simp) (by rw [heldBy, hk]; rfl) nofun nofun
  · next waiter m hne hk =>
      cases hs
      refine h.setCall (by rw [hk]; simp) (by rw [heldBy, hk]; cases waiter <;> rfl) ?_ ?_
      · rintro c ⟨⟩
        exact hG c m hk
      · rintro m' ⟨⟩
        exact hne rfl
  · cases hs

/-- A new call has no connection yet. -/
theorem Inv.heldBy_nextCall (h : Inv cfg s) : s.heldBy s.nextCall = none := by
  rw [heldBy, h.calls _ le_rfl]
  rfl

/-- What the calls hold after a new one. -/
theorem heldBy_newCall (call : Call) (k : ℕ) :
    (s.newCall call).heldBy k = if k = s.nextCall then call.held else s.heldBy k :=
  heldBy_setCall s.nextCall call k

/-- The part of the invariant that looks at calls only. -/
theorem Inv.newCall (h : Inv cfg s) (call : Call) (hkept : ∀ c, call ≠ .waiting (.result c) true) :
    (∀ k, s.nextCall + 1 ≤ k → (s.newCall call).calls k = none) ∧
      ∀ k c, (s.newCall call).calls k ≠ some (.waiting (.result c) true) := by
  refine ⟨fun k hk => ?_, fun k c => ?_⟩
  · have hne : k ≠ s.nextCall := by omega
    exact (setCall_of_ne s hne call).trans (h.calls k (by omega))
  · by_cases hk : k = s.nextCall
    · subst hk
      exact fun hc => hkept c (Option.some.inj ((setCall_self s _ call).symm.trans hc))
    · exact fun hc => h.kept k c ((setCall_of_ne s hk call).symm.trans hc)

/-- A call that waits after a new call has begun waited before, or is the new
one. -/
theorem isPending_newCall {call : Call} {k : ℕ} (h : isPending (s.newCall call).calls k = true) :
    isPending s.calls k = true ∨ k = s.nextCall ∧ ∃ m, call = .waiting .pending m := by
  obtain ⟨m, hm⟩ := isPending_eq.1 h
  by_cases hk : k = s.nextCall
  · subst hk
    exact .inr ⟨rfl, m, Option.some.inj ((setCall_self s _ call).symm.trans hm)⟩
  · exact .inl (isPending_eq.2 ⟨m, (setCall_of_ne s hk call).symm.trans hm⟩)

/-- `accept` is called. -/
theorem Inv.accept (h : Inv cfg s) : Inv cfg s.accept := by
  have hnone := h.heldBy_nextCall
  rcases s.accept_cases with heq | ⟨b, accepted, hacc, heq⟩ | ⟨hacc, heq⟩
  · obtain ⟨hcalls, hkept⟩ := h.newCall .raised nofun
    rw [heq]
    refine ⟨h.order, h.fresh, h.nodup, hcalls, h.bound, fun k hk hp => ?_, fun k c => ?_, hkept⟩
    · rcases isPending_newCall hp with hp | ⟨-, m, hm⟩
      · exact h.idle k hk hp
      · cases hm
    · rw [heldBy_newCall]
      split
      · next hk =>
          subst hk
          exact (h.given _ c).trans (by rw [hnone]; rfl)
      · exact h.given k c
  · obtain ⟨hcalls, hkept⟩ := h.newCall (.returned b) nofun
    rw [heq]
    refine ⟨?_, h.fresh, h.nodup, hcalls, ?_, fun k hk hp => ?_, fun k c => ?_, hkept⟩
    · change s.admitted = (s.assigned ++ [(s.nextCall, b)]).map Prod.snd ++ accepted
      rw [h.order, hacc]
      simp
    · have hbound := h.bound
      rw [hacc, List.length_cons] at hbound
      exact Nat.le_of_succ_le hbound
    · rcases isPending_newCall hp with hp | ⟨-, m, hm⟩
      · exact absurd (h.idle k hk hp) (by simp [hacc])
      · cases hm
    · change (k, c) ∈ s.assigned ++ [(s.nextCall, b)] ↔
        (s.newCall (.returned b)).heldBy k = some c
      rw [heldBy_newCall, List.mem_append, List.mem_singleton, Prod.mk.injEq, h.given]
      split
      · next hk =>
          subst hk
          simp [hnone, Call.held, eq_comm]
      · next hk => exact ⟨fun hc => hc.resolve_right fun hb => hk hb.1, .inl⟩
  · obtain ⟨hcalls, hkept⟩ := h.newCall (.waiting .pending false) nofun
    rw [heq]
    refine ⟨h.order, h.fresh, h.nodup, hcalls, h.bound, fun _ _ _ => hacc, fun k c => ?_, hkept⟩
    change (k, c) ∈ s.assigned ↔ (s.newCall (.waiting .pending false)).heldBy k = some c
    rw [heldBy_newCall, h.given]
    split
    · next hk =>
        subst hk
        rw [hnone]
        rfl
    · exact Iff.rfl

/-- A new connection is admitted. -/
theorem Inv.acceptClient (h : Inv cfg s) {c : ℕ} (hc : ∀ b ∈ s.admitted, b < c)
    (hnext : s.nextConnection = c + 1) : Inv cfg (s.acceptClient cfg c) := by
  have hnew : c ∉ s.admitted := fun hmem => lt_irrefl c (hc c hmem)
  have hfresh : ∀ b ∈ s.admitted ++ [c], b < s.nextConnection := by
    intro b hb
    rcases List.mem_append.1 hb with hb | hb
    · exact h.fresh b hb
    · obtain rfl := List.mem_singleton.1 hb
      omega
  have hnodup : (s.admitted ++ [c]).Nodup := by
    rw [← List.concat_eq_append]
    exact h.nodup.concat hnew
  rcases s.acceptClient_cases cfg c with ⟨k, waiters, hnextw, heq⟩ |
    ⟨waiters, hnextw, ⟨hfull, heq⟩ | ⟨hroom, heq⟩⟩
  · obtain ⟨hk, hmem, hsub⟩ := nextWaiter_some hnextw
    have hacc := h.idle k hmem hk
    obtain ⟨m, hm⟩ := isPending_eq.1 hk
    have hheld : s.heldBy k = none := by
      rw [heldBy, hm]
      rfl
    rw [heq]
    refine ⟨?_, hfresh, hnodup, fun j hj => ?_, h.bound, fun j hj hp => hacc, fun j b => ?_,
      fun j b => ?_⟩
    · change s.admitted ++ [c] = (s.assigned ++ [(k, c)]).map Prod.snd ++ s.accepted
      rw [h.order, hacc]
      simp
    · have hne : j ≠ k := by
        rintro rfl
        rw [h.calls j hj] at hm
        cases hm
      exact (setCall_of_ne s hne _).trans (h.calls j hj)
    · change (j, b) ∈ s.assigned ++ [(k, c)] ↔
        (s.setCall k (.waiting (.result c) false)).heldBy j = some b
      rw [heldBy_setCall, List.mem_append, List.mem_singleton, Prod.mk.injEq, h.given]
      split
      · next hj =>
          subst hj
          simp [hheld, Call.held, eq_comm]
      · next hj => exact ⟨fun hb => hb.resolve_right fun hcon => hj hcon.1, .inl⟩
    · by_cases hj : j = k
      · subst hj
        exact fun hb => by cases (setCall_self s j _).symm.trans hb
      · exact fun hb => h.kept j b ((setCall_of_ne s hj _).symm.trans hb)
  · obtain rfl := nextWaiter_none hnextw
    rw [heq]
    exact ⟨h.order, h.fresh, h.nodup, h.calls, h.bound, nofun, h.given, h.kept⟩
  · obtain rfl := nextWaiter_none hnextw
    rw [heq]
    refine ⟨?_, hfresh, hnodup, h.calls, ?_, nofun, h.given, h.kept⟩
    · change s.admitted ++ [c] = s.assigned.map Prod.snd ++ (s.accepted ++ [c])
      rw [h.order, List.append_assoc]
    · rw [List.length_append, List.length_singleton]
      exact hroom

/-- A client connects. -/
theorem Inv.handleClient (h : Inv cfg s) (wellFormed : Bool) :
    Inv cfg (s.handleClient cfg wellFormed) := by
  have hnext : ∀ (t : Listener), t = { s.setStream s.nextConnection .opened with
      nextConnection := s.nextConnection + 1 } → Inv cfg t := by
    rintro t rfl
    exact ⟨h.order, fun c hc => Nat.lt_succ_of_lt (h.fresh c hc), h.nodup, h.calls, h.bound, h.idle,
      h.given, h.kept⟩
  unfold Listener.handleClient
  simp only
  split
  · have ht := hnext _ rfl
    exact ⟨ht.order, ht.fresh, ht.nodup, ht.calls, ht.bound, ht.idle, ht.given, ht.kept⟩
  · exact (hnext _ rfl).acceptClient h.fresh rfl

/-- A closed listener stays closed. -/
theorem closed_step (hclosed : s.closed = true) {l : Label}
    (hs : Listener.step cfg s l = some t) : t.closed = true := by
  cases l with
  | start => simp [Listener.step, hclosed] at hs
  | close => simp [Listener.step, hclosed] at hs
  | accept =>
      cases hs
      rcases s.accept_cases with heq | ⟨_, _, _, heq⟩ | ⟨_, heq⟩ <;> rw [heq] <;> exact hclosed
  | resume k =>
      simp only [Listener.step, Listener.resume] at hs
      split at hs
      · obtain ⟨call, -, rfl⟩ := Option.map_eq_some_iff.1 hs
        exact hclosed
      · cases hs
  | cancel k =>
      simp only [Listener.step, Listener.cancel] at hs
      split at hs <;> cases hs <;> exact hclosed
  | client wellFormed =>
      cases hs
      unfold Listener.handleClient
      simp only [hclosed, Bool.true_or, if_true]
      exact hclosed
  | stream c event =>
      simp only [Listener.step] at hs
      split at hs <;> cases hs
      exact hclosed
  | closeOne c =>
      simp only [Listener.step] at hs
      split at hs <;> cases hs
      exact hclosed
  | finish =>
      simp only [Listener.step] at hs
      split at hs <;> cases hs
      exact hclosed

/-- **One step keeps the invariant**, as long as the listener is open. -/
theorem Inv.step (h : s.closed = true ∨ Inv cfg s) {l : Label} (hG : NoCancelAssigned s l)
    (hs : Listener.step cfg s l = some t) : t.closed = true ∨ Inv cfg t := by
  rcases h with hclosed | h
  · exact .inl (closed_step hclosed hs)
  · by_cases hopen : t.closed = true
    · exact .inl hopen
    · refine .inr ?_
      cases l with
      | start =>
          simp only [Listener.step] at hs
          split at hs <;> cases hs
          exact ⟨h.order, h.fresh, h.nodup, h.calls, h.bound, h.idle, h.given, h.kept⟩
      | accept =>
          cases hs
          exact h.accept
      | resume k => exact h.resume hs
      | cancel k =>
          by_cases hclosed : s.closed = true
          · simp only [Listener.step, Listener.cancel] at hs
            split at hs <;> cases hs <;> exact absurd hclosed hopen
          · exact h.cancel (hG (Bool.eq_false_of_not_eq_true hclosed)) hs
      | client wellFormed =>
          cases hs
          exact h.handleClient wellFormed
      | stream c event =>
          simp only [Listener.step] at hs
          split at hs <;> cases hs
          exact ⟨h.order, h.fresh, h.nodup, h.calls, h.bound, h.idle, h.given, h.kept⟩
      | close =>
          simp only [Listener.step] at hs
          split at hs <;> cases hs
          exact absurd rfl hopen
      | closeOne c =>
          simp only [Listener.step] at hs
          split at hs <;> cases hs
          exact ⟨h.order, h.fresh, h.nodup, h.calls, h.bound, h.idle, h.given, h.kept⟩
      | finish =>
          simp only [Listener.step] at hs
          split at hs <;> cases hs
          exact ⟨h.order, h.fresh, h.nodup, h.calls, h.bound, h.idle, h.given, h.kept⟩

/-! ## Runs -/

/-- An admitted connection is in exactly one place. -/
theorem Inv.placed (h : Inv cfg s) {c : ℕ} (hc : c ∈ s.admitted) : ∃! p, s.At c p := by
  have hnodup := h.nodup
  rw [h.order] at hnodup hc
  have hdisjoint : ∀ k, (k, c) ∈ s.assigned → c ∉ s.accepted := fun k hk hacc =>
    (List.nodup_append.1 hnodup).2.2 c (List.mem_map.2 ⟨_, hk, rfl⟩) c hacc rfl
  have hone : ∀ j k, (j, c) ∈ s.assigned → (k, c) ∈ s.assigned → j = k := fun j k hj hk =>
    congrArg Prod.fst (List.inj_on_of_nodup_map (List.nodup_append.1 hnodup).1 hj hk rfl)
  rcases List.mem_append.1 hc with hmem | hacc
  · obtain ⟨⟨k, b⟩, hk, rfl⟩ := List.mem_map.1 hmem
    have hholds : ∀ p, s.At b p → p = .assigned k ∨ p = .returned k := by
      intro p hp
      cases p with
      | accepted => exact absurd hp (hdisjoint k hk)
      | assigned j =>
          rw [hone j k ((h.given j b).2 (heldBy_eq_some.2 (.inl hp))) hk]
          exact .inl rfl
      | returned j =>
          rw [hone j k ((h.given j b).2 (heldBy_eq_some.2 (.inr hp))) hk]
          exact .inr rfl
    rcases heldBy_eq_some.1 ((h.given k b).1 hk) with ⟨m, hm⟩ | hret
    · refine ⟨.assigned k, ⟨m, hm⟩, fun p hp => (hholds p hp).resolve_right ?_⟩
      rintro rfl
      cases Option.some.inj (hm.symm.trans hp)
    · refine ⟨.returned k, hret, fun p hp => (hholds p hp).resolve_left ?_⟩
      rintro rfl
      obtain ⟨m, hm⟩ := hp
      cases Option.some.inj (hm.symm.trans hret)
  · refine ⟨.accepted, hacc, fun p hp => ?_⟩
    cases p with
    | accepted => rfl
    | assigned j =>
        exact absurd hacc (hdisjoint j ((h.given j c).2 (heldBy_eq_some.2 (.inl hp))))
    | returned j =>
        exact absurd hacc (hdisjoint j ((h.given j c).2 (heldBy_eq_some.2 (.inr hp))))

/-- **The listener loses no accepted connection** in a run in which no `accept()`
call is cancelled between the assignment of a connection and its resumption: as
long as the listener is open, every admitted connection was returned by exactly
one call, waits in `_accepted`, or is assigned to exactly one call that has not
resumed; connections are assigned in the order of admission; and at most
`max_pending_accepts` wait. -/
theorem listener_loses_none (h : ReachableWhen (system cfg) NoCancelAssigned s)
    (hopen : s.closed = false) : LosesNone cfg s := by
  have hinv : s.closed = true ∨ Inv cfg s := by
    refine h.invariant (fun s hs => ?_) (fun s l t hI hG hs => Inv.step hI hG hs)
    obtain rfl := hs
    exact .inr inv_initial
  have hI := hinv.resolve_left (by simp [hopen])
  exact ⟨fun c hc => hI.placed hc, hI.order, fun k c => (hI.given k c).trans heldBy_eq_some, hI.bound⟩

/-- Room for one connection. -/
def sampleConfig : Config := ⟨1, Nat.one_pos⟩

/-- A call waits, and gets the first of two connections. -/
def sampleRun : List Label := [.start, .accept, .client true, .client true, .resume 0]

/-- A run with two clients. -/
theorem listener_loses_none_sample : ∃ s, exec (step sampleConfig) initial sampleRun = some s ∧
    s.admitted = [0, 1] ∧ LosesNone sampleConfig s :=
  ⟨_, rfl, rfl, listener_loses_none (reachableWhen_of_exec rfl sampleRun
    (by simp [sampleRun, NoCancelAssigned]) rfl) rfl⟩

/-- A call is cancelled after a connection was assigned to it. -/
def cancelRun : List Label := [.start, .accept, .client true, .cancel 0, .resume 0]

/-- The connection of the cancelled call is nowhere. -/
theorem not_listener_loses_none :
    ¬ ∀ s, Reachable (system sampleConfig) s → s.closed = false → LosesNone sampleConfig s := by
  intro hall
  obtain ⟨s, hs⟩ : ∃ s, exec (step sampleConfig) initial cancelRun = some s := ⟨_, rfl⟩
  have hlost := hall s (reachable_of_exec rfl cancelRun hs)
  cases hs
  obtain ⟨p, hp, -⟩ := (hlost rfl).placed 0 List.mem_cons_self
  cases p with
  | accepted => cases hp
  | assigned k =>
      obtain ⟨m, hm⟩ := hp
      by_cases hk : k = 0
      · subst hk
        cases hm
      · cases ((Function.update_of_ne hk ..).trans ((Function.update_of_ne hk ..).trans
          ((Function.update_of_ne hk ..).trans (Function.update_of_ne hk ..)))).symm.trans hm
  | returned k =>
      by_cases hk : k = 0
      · subst hk
        cases hp
      · cases ((Function.update_of_ne hk ..).trans ((Function.update_of_ne hk ..).trans
          ((Function.update_of_ne hk ..).trans (Function.update_of_ne hk ..)))).symm.trans hp

end Listener
end Lan
end Paqto
