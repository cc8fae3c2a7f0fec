/-
# Explicit disconnect suppresses reconnect

`disconnect` puts the peer in `_reconnect_suppressed` and cancels its reconnect
loop in one step, and both places that start a loop or an attempt look into
that set.  So the set and the cancelled loops keep the law of `disconnect` as
long as nothing but a call of the application empties the set (`Inv`).

`_stop_locked` empties it.  `network_changed()` runs `_stop_locked`, and a
`stop()` that is still closing may run it after a later `disconnect()`: then the
end of any session of the peer starts a reconnect loop
(`not_disconnect_suppresses`).  `KeepsSuppression` is the condition on single
steps that this does not happen, or that the policy is disabled (`NoLoops`).
Under it the law holds, and after a step that breaks it the run can go on to a
reconnect that the law forbids (`disconnect_suppresses`).
-/

import Paqto.Core.Reconnect

namespace Paqto
namespace Core

open Transition

namespace Reconnect

variable {P : Type} [DecidableEq P]

/-! ## The log -/

/-- The last event decides. -/
@[simp] theorem quiet_append (p : P) (log : List (Event P)) (e : Event P) :
    quiet p (log ++ [e]) = e.quiet p (quiet p log) := by
  simp [quiet, List.foldl_append]

/-- The law extends by an event that is no reconnect while `disconnect` is the last call. -/
theorem Suppresses.append {p : P} {log : List (Event P)} (h : Suppresses p log) {e : Event P}
    (he : e.reconnects p → quiet p log = false) : Suppresses p (log ++ [e]) := by
  intro before f after hlog hf
  rcases List.eq_nil_or_concat after with rfl | ⟨rest, last, rfl⟩
  · obtain ⟨rfl, hef⟩ := List.append_inj' hlog rfl
    cases hef
    exact he hf
  · rw [List.concat_eq_append, ← List.cons_append, ← List.append_assoc] at hlog
    obtain ⟨hold, -⟩ := List.append_inj' hlog rfl
    exact h before f rest hold hf

/-! ## The invariant -/

/-- No loop of the peer that the suppression should hold back is alive. -/
structure Inv (p : P) (s : Node P) : Prop where
  suppresses : Suppresses p s.log
  suppressed : quiet p s.log → s.suppressed p
  fresh : ∀ t loop, s.loops t = some loop → t < s.nextLoop
  owner : ∀ q t, s.reconnectTasks q = some t → ∃ loop, s.loops t = some loop ∧ loop.peer = q
  live : ∀ t loop, s.loops t = some loop → loop.pc ≠ .ended →
    s.reconnectTasks loop.peer = some t ∨ loop.cancelled
  cancelled : ∀ t loop, s.loops t = some loop → loop.pc ≠ .ended → loop.peer = p →
    quiet p s.log → loop.cancelled
  stopping : ∀ r, s.lifecycle = .stopping r →
    s.running = false ∧ ∀ t loop, s.loops t = some loop → loop.pc ≠ .ended → loop.cancelled

/-- No loop was started. -/
theorem inv_initial (p : P) : Inv p initial where
  suppresses before e after hlog := by simp [initial] at hlog
  suppressed h := by cases h
  fresh t loop h := by cases h
  owner q t h := by cases h
  live t loop h := by cases h
  cancelled t loop h := by cases h
  stopping r h := by cases h

variable {p : P} {s t : Node P} {policy : Policy}

/-- What the invariant does not speak about. -/
theorem Inv.congr (h : Inv p s) (hlog : t.log = s.log) (hsup : t.suppressed = s.suppressed)
    (htasks : t.reconnectTasks = s.reconnectTasks) (hloops : t.loops = s.loops)
    (hnext : t.nextLoop = s.nextLoop) (hlife : t.lifecycle = s.lifecycle)
    (hrun : t.running = s.running) : Inv p t where
  suppresses := hlog ▸ h.suppresses
  suppressed := by rw [hlog, hsup]; exact h.suppressed
  fresh := by rw [hloops, hnext]; exact h.fresh
  owner := by rw [hloops, htasks]; exact h.owner
  live := by rw [hloops, htasks]; exact h.live
  cancelled := by rw [hloops, hlog]; exact h.cancelled
  stopping := by rw [hloops, hlife, hrun]; exact h.stopping

/-- A loop moves. -/
theorem Inv.setLoop (h : Inv p s) {i : ℕ} {loop loop' : Loop P} (hl : s.loops i = some loop)
    (hlive : loop'.pc ≠ .ended → loop.pc ≠ .ended) (hpeer : loop'.peer = loop.peer)
    (hcancelled : loop.cancelled → loop'.cancelled) : Inv p (s.setLoop i loop') := by
  have hold : ∀ j other, (s.setLoop i loop').loops j = some other →
      (j = i ∧ other = loop') ∨ (j ≠ i ∧ s.loops j = some other) := by
    intro j other hj
    by_cases hji : j = i
    · subst hji
      simp only [Node.setLoop, Function.update_self] at hj
      exact .inl ⟨rfl, (Option.some.inj hj).symm⟩
    · simp only [Node.setLoop, Function.update_of_ne hji] at hj
      exact .inr ⟨hji, hj⟩
  refine ⟨h.suppresses, h.suppressed, fun j other hj => ?_, fun q j hq => ?_,
    fun j other hj he => ?_, fun j other hj he hp hquiet => ?_, fun r hr => ?_⟩
  · obtain ⟨rfl, -⟩ | ⟨-, hj⟩ := hold j other hj
    · exact h.fresh _ loop hl
    · exact h.fresh j other hj
  · obtain ⟨other, hj, hq'⟩ := h.owner q j hq
    by_cases hji : j = i
    · subst hji
      cases hl.symm.trans hj
      exact ⟨loop', Function.update_self .., hpeer.trans hq'⟩
    · exact ⟨other, (Function.update_of_ne hji _ _).trans hj, hq'⟩
  · obtain ⟨rfl, rfl⟩ | ⟨-, hj⟩ := hold j other hj
    · rw [hpeer]
      exact (h.live _ loop hl (hlive he)).imp_right hcancelled
    · exact h.live j other hj he
  · obtain ⟨rfl, rfl⟩ | ⟨-, hj⟩ := hold j other hj
    · exact hcancelled (h.cancelled _ loop hl (hlive he) (hpeer ▸ hp) hquiet)
    · exact h.cancelled j other hj he hp hquiet
  · refine ⟨(h.stopping r hr).1, fun j other hj he => ?_⟩
    obtain ⟨rfl, rfl⟩ | ⟨-, hj⟩ := hold j other hj
    · exact hcancelled ((h.stopping r hr).2 _ loop hl (hlive he))
    · exact (h.stopping r hr).2 j other hj he

/-- The loop of a peer is cancelled. -/
theorem Inv.cancelLoop (h : Inv p s) (q : P) : Inv p (s.cancelLoop q) := by
  unfold Node.cancelLoop
  split
  · split
    · next hl => exact h.setLoop hl id rfl fun _ => rfl
    · exact h
  · exact h

/-- A call of the application, or an event of a loop. -/
theorem Inv.record (h : Inv p s) {e : Event P} (hrec : e.reconnects p → quiet p s.log = false)
    (hsup : e.quiet p (quiet p s.log) → s.suppressed p)
    (hcancelled : ∀ i loop, s.loops i = some loop → loop.pc ≠ .ended → loop.peer = p →
      e.quiet p (quiet p s.log) → loop.cancelled) : Inv p (s.record e) where
  suppresses := h.suppresses.append hrec
  suppressed hquiet := hsup (quiet_append p s.log e ▸ hquiet)
  fresh := h.fresh
  owner := h.owner
  live := h.live
  cancelled i loop hi he hp hquiet := hcancelled i loop hi he hp (quiet_append p s.log e ▸ hquiet)
  stopping := h.stopping

/-- A loop attempts. -/
theorem Inv.attempted (h : Inv p s) {i : ℕ} {loop : Loop P} (hl : s.loops i = some loop)
    (hlive : loop.pc ≠ .ended) (hc : loop.cancelled = false) :
    Inv p (s.record (.attempted loop.peer)) := by
  refine h.record (fun hrec => ?_) h.suppressed h.cancelled
  have hp : loop.peer = p := by simpa [Event.reconnects] using hrec
  by_contra hquiet
  have hcancelled := h.cancelled i loop hl hlive hp (by simpa using hquiet)
  rw [hc] at hcancelled
  cases hcancelled

omit [DecidableEq P] in
/-- The loop of the peer is cancelled. -/
theorem cancelLoop_spec (s : Node P) (q : P) {i : ℕ} {loop : Loop P}
    (hl : (s.cancelLoop q).loops i = some loop) :
    ∃ old, s.loops i = some old ∧ old.pc = loop.pc ∧ old.peer = loop.peer ∧
      (old.cancelled → loop.cancelled) ∧ (s.reconnectTasks q = some i → loop.cancelled) := by
  unfold Node.cancelLoop at hl
  split at hl
  · next j hj =>
      split at hl
      · next old hold =>
          by_cases hij : i = j
          · subst hij
            simp only [Node.setLoop, Function.update_self] at hl
            cases hl
            exact ⟨old, hold, rfl, rfl, fun _ => rfl, fun _ => rfl⟩
          · simp only [Node.setLoop, Function.update_of_ne hij] at hl
            refine ⟨loop, hl, rfl, rfl, id, fun hi => ?_⟩
            exact absurd (Option.some.inj (hi.symm.trans hj)) hij
      · next hnone =>
          refine ⟨loop, hl, rfl, rfl, id, fun hi => ?_⟩
          cases hi.symm.trans hj
          rw [hnone] at hl
          cases hl
  · next hnone =>
      exact ⟨loop, hl, rfl, rfl, id, fun hi => by rw [hnone] at hi; cases hi⟩

omit [DecidableEq P] in
/-- That tells the log nothing, and suppresses nobody. -/
theorem cancelLoop_keeps (s : Node P) (q : P) : (s.cancelLoop q).log = s.log ∧
    (s.cancelLoop q).suppressed = s.suppressed := by
  unfold Node.cancelLoop
  split
  · split <;> exact ⟨rfl, rfl⟩
  · exact ⟨rfl, rfl⟩

/-- `disconnect` cancels the loop that `_reconnect_tasks` knows, and no other
loop of the peer is alive. -/
theorem Inv.disconnect (h : Inv p s) (q : P) : Inv p (s.disconnect q) := by
  have hcancel := h.cancelLoop q
  obtain ⟨hlog, hsup⟩ := cancelLoop_keeps s q
  have hcongr : Inv p { s.cancelLoop q with
      suppressed := Function.update (s.cancelLoop q).suppressed q true } := by
    refine ⟨hcancel.suppresses, fun hquiet => ?_, hcancel.fresh, hcancel.owner, hcancel.live,
      hcancel.cancelled, hcancel.stopping⟩
    by_cases hqp : p = q
    · rw [hqp]
      exact Function.update_self ..
    · exact (Function.update_of_ne hqp ..).trans (hcancel.suppressed hquiet)
  have hrecord := hcongr.record (e := .disconnected q) (fun hrec => by cases hrec) ?_ ?_
  · have heq : { s.cancelLoop q with
        suppressed := Function.update (s.cancelLoop q).suppressed q true }.record
          (.disconnected q) = s.disconnect q := by
      unfold Node.disconnect Node.cancelLoop Node.record
      cases s.reconnectTasks q with
      | none => rfl
      | some i => cases hi : s.loops i <;> simp [hi, Node.setLoop]
    exact heq ▸ hrecord
  · intro hquiet
    by_cases hqp : p = q
    · rw [hqp]
      exact Function.update_self ..
    · refine (Function.update_of_ne hqp ..).trans (hcancel.suppressed ?_)
      simpa [Event.quiet, Ne.symm hqp] using hquiet
  · intro i loop hi he hp hquiet
    by_cases hqp : q = p
    · obtain ⟨old, hold, hpc, hpeer, hkeep, htask⟩ := cancelLoop_spec s q hi
      rcases h.live i old hold (hpc ▸ he) with hdict | hc
      · rw [hpeer, hp, ← hqp] at hdict
        exact htask hdict
      · exact hkeep hc
    · refine hcancel.cancelled i loop hi he hp ?_
      simpa [Event.quiet, hqp] using hquiet

/-- A new loop is that of a peer that is not suppressed. -/
theorem Inv.scheduleReconnect (h : Inv p s) (q : P) (fresh : Bool) :
    Inv p (s.scheduleReconnect policy q fresh) := by
  unfold Node.scheduleReconnect
  split
  · exact h
  next hrun =>
  split
  · exact h
  split
  · exact h
  next hidle =>
  simp only [Bool.or_eq_true, Bool.not_eq_true', not_or, Bool.not_eq_false,
    Bool.not_eq_true] at hrun
  obtain ⟨⟨hrunning, -⟩, hsup⟩ := hrun
  have hquiet : q = p → quiet p s.log = false := by
    rintro rfl
    by_contra hq
    have := h.suppressed (by simpa using hq)
    rw [hsup] at this
    cases this
  have hold : ∀ j loop, Function.update s.loops s.nextLoop (some ⟨q, .created, 0, false⟩) j =
      some loop → (j = s.nextLoop ∧ loop = ⟨q, .created, 0, false⟩) ∨
        (j < s.nextLoop ∧ s.loops j = some loop) := by
    intro j loop hj
    by_cases hji : j = s.nextLoop
    · rw [hji, Function.update_self] at hj
      exact .inl ⟨hji, (Option.some.inj hj).symm⟩
    · rw [Function.update_of_ne hji] at hj
      exact .inr ⟨h.fresh j loop hj, hj⟩
  have hnew : Inv p { s with
      reconnectTasks := Function.update s.reconnectTasks q (some s.nextLoop)
      loops := Function.update s.loops s.nextLoop (some ⟨q, .created, 0, false⟩)
      nextLoop := s.nextLoop + 1 } := by
    refine ⟨h.suppresses, h.suppressed, fun j loop hj => ?_, fun q' j hq' => ?_,
      fun j loop hj he => ?_, fun j loop hj he hp hq => ?_, fun r hr => ?_⟩
    · obtain ⟨rfl, -⟩ | ⟨hlt, -⟩ := hold j loop hj
      · exact Nat.lt_succ_self _
      · exact hlt.trans (Nat.lt_succ_self _)
    · by_cases hqq : q' = q
      · subst hqq
        simp only [Function.update_self] at hq'
        cases hq'
        exact ⟨_, Function.update_self .., rfl⟩
      · simp only [Function.update_of_ne hqq] at hq'
        obtain ⟨loop, hl, hpeer⟩ := h.owner q' j hq'
        exact ⟨loop, (Function.update_of_ne (h.fresh j loop hl).ne _ _).trans hl, hpeer⟩
    · obtain ⟨rfl, rfl⟩ | ⟨hlt, hj⟩ := hold j loop hj
      · exact .inl (Function.update_self ..)
      · rcases h.live j loop hj he with hdict | hc
        · by_cases hqq : loop.peer = q
          · rw [hqq] at hdict
            simp [Node.isReconnecting, hdict, Node.isDone, hj, he] at hidle
          · exact .inl ((Function.update_of_ne hqq _ _).trans hdict)
        · exact .inr hc
    · obtain ⟨rfl, rfl⟩ | ⟨-, hj⟩ := hold j loop hj
      · rw [hquiet hp] at hq
        cases hq
      · exact h.cancelled j loop hj he hp hq
    · have hstopped := (h.stopping r hr).1
      rw [hrunning] at hstopped
      cases hstopped
  refine hnew.record (fun hrec => ?_) hnew.suppressed hnew.cancelled
  exact hquiet (by simpa [Event.reconnects] using hrec)

/-- Reconnects are scheduled for the peers that were found again. -/
theorem Inv.scheduleAll (refresh : P → Bool) (peers : List (P × Bool)) {s : Node P}
    (h : Inv p s) : Inv p (s.scheduleAll policy refresh peers) := by
  induction peers generalizing s with
  | nil => exact h
  | cons found peers ih =>
      obtain ⟨q, fresh⟩ := found
      unfold Node.scheduleAll
      split
      · exact ih (h.scheduleReconnect q fresh)
      · exact ih h

/-- A peer is remembered. -/
theorem Inv.remember (h : Inv p s) (q : P) : Inv p (s.remember q) :=
  h.congr rfl rfl rfl rfl rfl rfl rfl

/-- Peers are remembered. -/
theorem Inv.rememberAll (peers : List P) {s : Node P} (h : Inv p s) :
    Inv p (peers.foldl Node.remember s) := by
  induction peers generalizing s with
  | nil => exact h
  | cons q peers ih => exact ih (h.remember q)

/-! ## The steps of a loop -/

/-- A loop begins its next round, or ends. -/
theorem Inv.loopHead (h : Inv p s) {i : ℕ} {loop loop' : Loop P} (hl : s.loops i = some loop)
    (hlive : loop.pc ≠ .ended) (hpeer : loop'.peer = loop.peer)
    (hcancelled : loop.cancelled → loop'.cancelled) (fresh : Bool) :
    Inv p (s.loopHead policy i loop' fresh) := by
  have hmove : ∀ pc, Inv p (s.setLoop i { loop' with pc }) := fun _ =>
    h.setLoop hl (fun _ => hlive) hpeer hcancelled
  unfold Node.loopHead
  split
  · split
    · exact hmove _
    · split
      · exact hmove _
      · exact hmove _
  · exact hmove _

/-- An attempt has failed. -/
theorem Inv.attemptFailed (h : Inv p s) {i : ℕ} {loop : Loop P} (hl : s.loops i = some loop)
    (hlive : loop.pc ≠ .ended) (fresh : Bool) :
    Inv p (s.attemptFailed policy i loop fresh) := by
  unfold Node.attemptFailed
  refine h.loopHead hl hlive ?_ ?_ fresh
  · rfl
  · exact id

/-- `_connect_discovered` returns to a loop, or raises in it. -/
theorem Inv.loopConnected (h : Inv p s) {i : ℕ} {loop : Loop P} (hl : s.loops i = some loop)
    (hlive : loop.pc ≠ .ended) {fresh : Bool} {answer : Answer}
    (hs : s.loopConnected policy i loop fresh answer = some t) : Inv p t := by
  have hmove : ∀ pc, Inv p ((s.remember loop.peer).setLoop i { loop with pc }) := fun _ =>
    (h.remember loop.peer).setLoop hl (fun _ => hlive) rfl id
  cases answer with
  | connection =>
      cases hs
      exact hmove _
  | sessionGone =>
      cases hs
      exact hmove _
  | raised =>
      cases hs
      exact h.attemptFailed hl hlive fresh
  | «continue» => cases hs

/-- **A loop goes on**: one that is not cancelled may begin an attempt. -/
theorem Inv.resumeLoop (h : Inv p s) {i : ℕ} {loop : Loop P} (hl : s.loops i = some loop)
    (hlive : loop.pc ≠ .ended) (hc : loop.cancelled = false) {fresh : Bool} {answer : Answer}
    (hs : s.resumeLoop policy i loop fresh answer = some t) : Inv p t := by
  have hmove : ∀ pc, Inv p (s.setLoop i { loop with pc }) := fun _ =>
    h.setLoop hl (fun _ => hlive) rfl id
  have hattempt := h.attempted hl hlive hc
  have hattempted : ∀ pc,
      Inv p ((s.record (.attempted loop.peer)).setLoop i { loop with pc }) := fun _ =>
    hattempt.setLoop hl (fun _ => hlive) rfl id
  unfold Node.resumeLoop at hs
  cases hpc : loop.pc with
  | created =>
      rw [hpc] at hs
      cases hs
      exact h.loopHead hl hlive rfl id fresh
  | marking =>
      rw [hpc] at hs
      cases hs
      exact hmove _
  | sleeping =>
      simp only [hpc] at hs
      split at hs
      · cases hs
        exact hmove _
      · cases answer with
        | connection =>
            cases hs
            exact hattempted _
        | raised =>
            cases hs
            exact hattempt.attemptFailed hl hlive fresh
        | «continue» =>
            cases hs
            exact hattempted _
        | sessionGone => cases hs
  | locking =>
      simp only [hpc] at hs
      split at hs
      · cases hs
        exact hattempted _
      · exact h.loopConnected hl hlive hs
  | opening =>
      rw [hpc] at hs
      exact h.loopConnected hl hlive hs
  | closing =>
      rw [hpc] at hs
      cases hs
      exact h.attemptFailed hl hlive fresh
  | leaving =>
      rw [hpc] at hs
      cases hs
      exact hmove _
  | ended => exact absurd hpc hlive

/-! ## The steps of the lifecycle -/

/-- `_stop_locked` cancels every loop that is alive. -/
theorem Inv.beginStop (h : Inv p s) (refresh : Option (P → Bool)) : Inv p (s.beginStop refresh) := by
  have hold : ∀ j loop, (s.beginStop refresh).loops j = some loop →
      ∃ old, s.loops j = some old ∧ old.pc = loop.pc ∧ old.peer = loop.peer ∧
        (old.cancelled ∨ s.reconnectTasks old.peer = some j → loop.cancelled) := by
    intro j loop hj
    obtain ⟨old, hold, rfl⟩ := Option.map_eq_some_iff.1 hj
    refine ⟨old, hold, ?_⟩
    split
    · exact ⟨rfl, rfl, fun _ => rfl⟩
    · next hne => exact ⟨rfl, rfl, fun hc => hc.resolve_right hne⟩
  have hcancelled : ∀ j loop, (s.beginStop refresh).loops j = some loop → loop.pc ≠ .ended →
      loop.cancelled := by
    intro j loop hj he
    obtain ⟨old, ho, hpc, -, hc⟩ := hold j loop hj
    exact hc (h.live j old ho (hpc ▸ he)).symm
  refine ⟨h.suppresses, h.suppressed, fun j loop hj => ?_, fun q j hq => ?_,
    fun j loop hj he => .inr (hcancelled j loop hj he),
    fun j loop hj he _ _ => hcancelled j loop hj he, fun r hr => ⟨rfl, hcancelled⟩⟩
  · obtain ⟨old, ho, -⟩ := hold j loop hj
    exact h.fresh j old ho
  · obtain ⟨old, ho, hpeer⟩ := h.owner q j hq
    refine ⟨_, Option.map_eq_some_iff.2 ⟨old, ho, rfl⟩, ?_⟩
    split <;> exact hpeer

/-- `_stop_locked` empties the tables when no suppression stands. -/
theorem Inv.clear (h : Inv p s) {r : Option (P → Bool)} (hr : s.lifecycle = .stopping r)
    (hquiet : quiet p s.log = false) {lifecycle : Lifecycle P}
    (hnext : ∀ r, lifecycle ≠ .stopping r) : Inv p (s.clear lifecycle) where
  suppresses := h.suppresses
  suppressed hq := by
    change quiet p s.log = true at hq
    rw [hquiet] at hq
    cases hq
  fresh := h.fresh
  owner q j hq := by cases hq
  live j loop hj he := .inr ((h.stopping r hr).2 j loop hj he)
  cancelled := h.cancelled
  stopping r' hr' := absurd hr' (hnext r')

/-- Nobody is stopping the node. -/
theorem Inv.setLifecycle (h : Inv p s) {lifecycle : Lifecycle P}
    (hnext : ∀ r, lifecycle ≠ .stopping r) (running : Bool) :
    Inv p { s with running, lifecycle } :=
  ⟨h.suppresses, h.suppressed, h.fresh, h.owner, h.live, h.cancelled,
    fun r hr => absurd hr (hnext r)⟩

/-- `connect`, `send` or `request` ends the suppression. -/
theorem Inv.connect (h : Inv p s) (q : P) :
    Inv p ({ s with suppressed := Function.update s.suppressed q false }.record
      (.connected q)) := by
  refine ⟨h.suppresses.append (fun hrec => by cases hrec), fun hquiet => ?_, h.fresh, h.owner,
    h.live, fun j loop hj he hp hquiet => h.cancelled j loop hj he hp ?_, h.stopping⟩
  · have hq := quiet_append p s.log (.connected q) ▸ hquiet
    simp only [Event.quiet, Bool.and_eq_true, decide_eq_true_eq] at hq
    exact (Function.update_of_ne hq.1.symm ..).trans (h.suppressed hq.2)
  · have hq := quiet_append p s.log (.connected q) ▸ hquiet
    simp only [Event.quiet, Bool.and_eq_true, decide_eq_true_eq] at hq
    exact hq.2

/-! ## Runs -/

/-- `_stop_locked` does not empty `_reconnect_suppressed` while `disconnect` of
the peer is the last call about it, unless the policy is disabled. -/
def KeepsSuppression (policy : Policy) (p : P) (s : Node P) : Label P → Prop
  | .clear => policy.enabled = true → quiet p s.log = false
  | _ => True

/-- **Every step that keeps the suppression keeps the invariant.** -/
theorem Inv.step (h : Inv p s) {l : Label P} (henabled : policy.enabled = true)
    (hg : KeepsSuppression policy p s l) (hs : step policy s l = some t) : Inv p t := by
  cases l with
  | start =>
      simp only [Reconnect.step] at hs
      split at hs
      · next hidle =>
          split at hs
          · cases hs
          · cases hs
            have hrun : Inv p { s with running := true, lifecycle := .idle } :=
              h.setLifecycle (fun _ he => by cases he) true
            rwa [← hidle] at hrun
      · cases hs
  | callStop =>
      cases hs
      have hcongr : Inv p { s with waitingStops := s.waitingStops + 1 } :=
        h.congr rfl rfl rfl rfl rfl rfl rfl
      refine hcongr.record (fun hrec => by cases hrec) (fun hq => by cases hq)
        fun _ _ _ _ _ hq => by cases hq
  | beginStop =>
      simp only [Reconnect.step] at hs
      split at hs
      · split at hs
        · cases hs
          exact (h.beginStop none).congr rfl rfl rfl rfl rfl rfl rfl
        · cases hs
          exact h.congr rfl rfl rfl rfl rfl rfl rfl
      · cases hs
  | refresh =>
      simp only [Reconnect.step] at hs
      split at hs
      · split at hs
        · cases hs
          exact h.beginStop _
        · cases hs
      · cases hs
  | clear =>
      simp only [Reconnect.step] at hs
      split at hs
      · next hr =>
          split at hs
          · cases hs
            exact h.clear hr (hg henabled) fun _ he => by cases he
          · cases hs
      · next hr =>
          split at hs
          · cases hs
            exact h.clear hr (hg henabled) fun _ he => by cases he
          · cases hs
      · cases hs
  | restarted failed =>
      simp only [Reconnect.step] at hs
      split at hs
      · split at hs
        · cases hs
          exact h.setLifecycle (fun _ he => by cases he) _
        · cases hs
          exact h.setLifecycle (fun _ he => by cases he) _
      · cases hs
  | rediscovered found =>
      simp only [Reconnect.step] at hs
      split at hs
      · next peers _ =>
          cases hs
          exact ((h.rememberAll _).scheduleAll peers found).setLifecycle
            (fun _ he => by cases he) _
      · cases hs
  | discovered found =>
      cases hs
      exact h.rememberAll found
  | connect q =>
      simp only [Reconnect.step] at hs
      split at hs
      · cases hs
        exact h.connect q
      · cases hs
  | connectDone q =>
      cases hs
      exact (h.remember q).cancelLoop q
  | disconnect q =>
      cases hs
      exact h.disconnect q
  | dropSession q =>
      cases hs
      exact h.congr rfl rfl rfl rfl rfl rfl rfl
  | publish c q =>
      cases hs
      exact h.congr rfl rfl rfl rfl rfl rfl rfl
  | endReader c =>
      obtain ⟨q, -, rfl⟩ := Option.map_eq_some_iff.1 hs
      exact h.congr rfl rfl rfl rfl rfl rfl rfl
  | connectionEnded c removed fresh =>
      obtain ⟨⟨q, wasCanonical⟩, -, rfl⟩ := Option.map_eq_some_iff.1 hs
      have hcongr : Inv p { s with endings := Function.update s.endings c none } :=
        h.congr rfl rfl rfl rfl rfl rfl rfl
      dsimp only
      split
      · exact hcongr.scheduleReconnect q fresh
      · exact hcongr
  | resumeLoop i fresh answer =>
      obtain ⟨loop, hl, hs⟩ := Option.bind_eq_some_iff.1 hs
      split at hs
      · cases hs
      · next hlive =>
          split at hs
          · cases hs
            exact h.setLoop hl (fun _ => hlive) rfl id
          · next hc => exact h.resumeLoop hl hlive (by simpa using hc) hs
  | loopFinished i =>
      obtain ⟨loop, hl, hs⟩ := Option.bind_eq_some_iff.1 hs
      split at hs
      · next hdone =>
          cases hs
          refine ⟨h.suppresses, h.suppressed, h.fresh, fun q j hq => ?_, fun j other hj he => ?_,
            h.cancelled, h.stopping⟩
          · by_cases hql : q = loop.peer
            · subst hql
              simp only [Function.update_self] at hq
              cases hq
            · simp only [Function.update_of_ne hql] at hq
              exact h.owner q j hq
          · rcases h.live j other hj he with hdict | hc
            · by_cases hql : other.peer = loop.peer
              · rw [hql, hdone.2] at hdict
                cases hdict
                cases hl.symm.trans hj
                exact absurd hdone.1 he
              · exact .inl ((Function.update_of_ne hql ..).trans hdict)
            · exact .inr hc
      · cases hs

/-- The invariant holds in the runs that keep the suppression. -/
theorem inv_of_reachable (henabled : policy.enabled = true)
    (h : ReachableWhen (system policy) (KeepsSuppression policy p) s) : Inv p s :=
  ReachableWhen.invariant (fun _ hs => hs ▸ inv_initial p)
    (fun _ _ _ hI hg hs => hI.step henabled hg hs) h

/-! ## A disabled policy -/

/-- No loop was ever started. -/
structure NoLoops (s : Node P) : Prop where
  loops : ∀ i, s.loops i = none
  log : ∀ e ∈ s.log, ∀ q, e.reconnects q = false

/-- A disabled policy starts no loop. -/
theorem scheduleReconnect_disabled (hpolicy : policy.enabled = false) (s : Node P) (q : P)
    (fresh : Bool) : s.scheduleReconnect policy q fresh = s := by
  simp [Node.scheduleReconnect, hpolicy]

/-- Nor for all the peers that were found again. -/
theorem scheduleAll_disabled (hpolicy : policy.enabled = false) (refresh : P → Bool) (s : Node P)
    (found : List (P × Bool)) : s.scheduleAll policy refresh found = s := by
  induction found with
  | nil => rfl
  | cons pair found ih =>
      rw [Node.scheduleAll, scheduleReconnect_disabled hpolicy, ite_self, ih]

/-- What the loops and the log do not speak about. -/
theorem NoLoops.congr (h : NoLoops s) (hloops : t.loops = s.loops) (hlog : t.log = s.log) :
    NoLoops t := ⟨fun i => hloops ▸ h.loops i, hlog ▸ h.log⟩

/-- A call of the application. -/
theorem NoLoops.record (h : NoLoops s) (hloops : t.loops = s.loops) {e : Event P}
    (hlog : t.log = s.log ++ [e]) (he : ∀ q, e.reconnects q = false) : NoLoops t := by
  refine ⟨fun i => hloops ▸ h.loops i, fun other hother => ?_⟩
  rw [hlog] at hother
  obtain hother | hother := List.mem_append.1 hother
  · exact h.log other hother
  · exact List.mem_singleton.1 hother ▸ he

/-- There is no loop to cancel. -/
theorem NoLoops.cancelLoop (h : NoLoops s) (q : P) : NoLoops (s.cancelLoop q) := by
  unfold Node.cancelLoop
  split
  · split
    · next i _ _ _ hloop =>
        rw [h.loops i] at hloop
        cases hloop
    · exact h
  · exact h

/-- Remembering peers starts none. -/
theorem NoLoops.rememberAll (h : NoLoops s) (found : List P) :
    NoLoops (found.foldl Node.remember s) :=
  List.foldlRecOn found _ h fun _ hs _ _ => hs.congr rfl rfl

/-- Nor does a stop. -/
theorem NoLoops.beginStop (h : NoLoops s) (refresh : Option (P → Bool)) :
    NoLoops (s.beginStop refresh) := by
  refine ⟨fun i => ?_, h.log⟩
  change (s.loops i).map _ = none
  rw [h.loops i]
  rfl

/-- **No step starts a loop** under a disabled policy. -/
theorem NoLoops.step (h : NoLoops s) (hpolicy : policy.enabled = false) {l : Label P}
    (hs : step policy s l = some t) : NoLoops t := by
  cases l with
  | start | restarted =>
      simp only [Reconnect.step] at hs
      split at hs
      · split at hs
        all_goals cases hs
        all_goals exact h.congr rfl rfl
      · cases hs
  | callStop =>
      cases hs
      exact h.record rfl rfl fun _ => rfl
  | beginStop =>
      simp only [Reconnect.step] at hs
      split at hs
      · split at hs
        · cases hs
          exact (h.beginStop none).congr rfl rfl
        · cases hs
          exact h.congr rfl rfl
      · cases hs
  | refresh =>
      simp only [Reconnect.step] at hs
      split at hs
      · obtain ⟨-, heq⟩ := Option.ite_none_right_eq_some.1 hs
        cases heq
        exact h.beginStop _
      · cases hs
  | clear =>
      simp only [Reconnect.step] at hs
      split at hs
      · obtain ⟨-, heq⟩ := Option.ite_none_right_eq_some.1 hs
        cases heq
        exact h.congr rfl rfl
      · obtain ⟨-, heq⟩ := Option.ite_none_right_eq_some.1 hs
        cases heq
        exact h.congr rfl rfl
      · cases hs
  | rediscovered found =>
      simp only [Reconnect.step, scheduleAll_disabled hpolicy] at hs
      split at hs
      · cases hs
        exact (h.rememberAll _).congr rfl rfl
      · cases hs
  | discovered found =>
      cases hs
      exact h.rememberAll found
  | connect q =>
      obtain ⟨-, heq⟩ := Option.ite_none_right_eq_some.1 hs
      cases heq
      exact h.record rfl rfl fun _ => rfl
  | connectDone q =>
      cases hs
      have hknown : NoLoops (s.remember q) := h.congr rfl rfl
      exact hknown.cancelLoop q
  | disconnect q =>
      cases hs
      have hcalled : NoLoops ({ s with suppressed := Function.update s.suppressed q true }.record
          (.disconnected q)) := h.record rfl rfl fun _ => rfl
      exact hcalled.cancelLoop q
  | dropSession | publish =>
      cases hs
      exact h.congr rfl rfl
  | endReader c =>
      obtain ⟨q, -, rfl⟩ := Option.map_eq_some_iff.1 hs
      exact h.congr rfl rfl
  | connectionEnded c removed fresh =>
      obtain ⟨⟨q, wasCanonical⟩, -, rfl⟩ := Option.map_eq_some_iff.1 hs
      dsimp only
      rw [scheduleReconnect_disabled hpolicy, ite_self]
      exact h.congr rfl rfl
  | resumeLoop i fresh answer =>
      simp only [Reconnect.step, h.loops i] at hs
      cases hs
  | loopFinished i =>
      simp only [Reconnect.step, h.loops i] at hs
      cases hs

/-- No run under a disabled policy has a loop. -/
theorem noLoops_of_reachable (hpolicy : policy.enabled = false)
    (h : Reachable (system (P := P) policy) s) : NoLoops s :=
  Reachable.invariant (fun _ hs => hs ▸ ⟨fun _ => rfl, fun _ he => by cases he⟩)
    (fun _ _ _ hI hs => hI.step hpolicy hs) h

/-- Without loops nobody is dialed. -/
theorem NoLoops.suppresses (h : NoLoops s) (p : P) : Suppresses p s.log := by
  intro before e after hlog hrec
  rw [h.log e (hlog ▸ List.mem_append_right _ List.mem_cons_self) p] at hrec
  cases hrec

/-! ## After the set was emptied -/

/-- The peer is found again, and opens a session and loses it. -/
def comesBack (p : P) : List (Label P) :=
  [.discovered [p], .publish 0 p, .endReader 0, .connectionEnded 0 false true]

/-- A loop of the peer starts, though `disconnect` was the last call about it. -/
theorem not_suppresses_comesBack (henabled : policy.enabled = true) (hrunning : s.running = true)
    (htask : s.reconnectTasks p = none) (hsuppressed : s.suppressed p = false)
    (hquiet : quiet p s.log = true) :
    ∃ u, exec (step policy) s (comesBack p) = some u ∧ ¬ Suppresses p u.log := by
  obtain ⟨u, hu, hlog⟩ : ∃ u, exec (step policy) s (comesBack p) = some u ∧
      u.log = s.log ++ [.loopStarted p] := by
    simp [comesBack, exec, Reconnect.step, Node.remember, Node.deactivate, Node.scheduleReconnect,
      Node.isReconnecting, Node.record, hrunning, henabled, hsuppressed, htask]
  refine ⟨u, hu, fun h => ?_⟩
  have hnot := h s.log (.loopStarted p) [] hlog (by simp [Event.reconnects])
  rw [hquiet] at hnot
  cases hnot

/-- A stop that has emptied its tables comes to its end, and the node runs again. -/
theorem runs_again (hs : step policy s .clear = some t) :
    ∃ u, Reachable ((system policy).startingAt t) u ∧ u.running = true ∧
      u.reconnectTasks = (fun _ => none) ∧ u.suppressed = (fun _ => false) ∧ u.log = s.log := by
  have hstart : Reachable ((system policy).startingAt t) t := .init rfl
  simp only [Reconnect.step] at hs
  split at hs
  · obtain ⟨-, heq⟩ := Option.ite_none_right_eq_some.1 hs
    cases heq
    cases hrunning : s.running with
    | true => exact ⟨_, hstart, hrunning, rfl, rfl, rfl⟩
    | false =>
        have hstep : step policy (s.clear .idle) .start = some { s.clear .idle with running := true } :=
          if_neg (by simp [Node.clear, hrunning])
        exact ⟨_, hstart.next .start hstep, rfl, rfl, rfl, rfl⟩
  · next peers _ =>
      obtain ⟨-, heq⟩ := Option.ite_none_right_eq_some.1 hs
      cases heq
      exact ⟨_, hstart.next (.restarted false) rfl, rfl, rfl, rfl, rfl⟩
  · cases hs

/-- **Explicit disconnect suppresses reconnect** for a peer in every run in
which `_stop_locked` does not forget it: the peer is in `_reconnect_suppressed`
and no loop of it goes on.  After a step of `_stop_locked` that forgets it, the
run can go on to a loop of the peer. -/
theorem disconnect_suppresses (policy : Policy) (p : P) :
    (∀ s, ReachableWhen (system policy) (KeepsSuppression policy p) s → Suppresses p s.log) ∧
      ∀ s t l, Reachable (system policy) s → ¬ KeepsSuppression policy p s l →
        step policy s l = some t →
        ∃ u, Reachable ((system policy).startingAt t) u ∧ ¬ Suppresses p u.log := by
  refine ⟨fun s h => ?_, fun s t l _ hl hs => ?_⟩
  · cases hpolicy : policy.enabled with
    | true => exact (inv_of_reachable hpolicy h).suppresses
    | false => exact (noLoops_of_reachable hpolicy h.reachable).suppresses p
  · cases l with
    | clear =>
        obtain ⟨henabled, hquiet⟩ := Classical.not_imp.1 hl
        obtain ⟨v, hv, hrunning, htasks, hsuppressed, hlog⟩ := runs_again hs
        obtain ⟨u, hu, hnot⟩ := not_suppresses_comesBack (p := p) henabled hrunning
          (by rw [htasks]) (by rw [hsuppressed]) (by rw [hlog]; simpa using hquiet)
        exact ⟨u, hv.exec hu, hnot⟩
    | _ => exact absurd trivial hl

/-! ## Where the suppression is forgotten -/

/-- An unbounded number of attempts. -/
def samplePolicy : Policy where
  enabled := true
  maxAttempts := none

/-- Peer 0 is disconnected, the network changes, and peer 0 opens a session and
loses it. -/
def forgottenRun : List (Label ℕ) :=
  [.start, .disconnect 0, .refresh, .clear, .restarted false, .rediscovered [(0, true)],
    .publish 1 0, .endReader 1, .connectionEnded 1 false true]

/-- `network_changed()` forgets an explicit disconnect. -/
theorem not_disconnect_suppresses :
    ¬ ∀ (policy : Policy) (p : ℕ) (s : Node ℕ), Reachable (system policy) s →
      Suppresses p s.log := by
  intro h
  have hrun := h samplePolicy 0 _ (reachable_of_exec (S := system samplePolicy) rfl
    forgottenRun rfl)
  have := hrun [.disconnected 0] (.loopStarted 0) [] rfl rfl
  cases this

/-- **Two runs.**  A session is lost after the disconnect, and no loop starts; and
`network_changed()` forgets the disconnect, and the run goes on to a loop. -/
theorem disconnect_suppresses_sample :
    (∃ s : Node ℕ, ReachableWhen (system samplePolicy) (KeepsSuppression samplePolicy 0) s ∧
      s.log = [.disconnected 0] ∧ s.known 0 ∧ Suppresses 0 s.log) ∧
    ∃ s t : Node ℕ, Reachable (system samplePolicy) s ∧ step samplePolicy s .clear = some t ∧
      ∃ u, Reachable ((system samplePolicy).startingAt t) u ∧ ¬ Suppresses 0 u.log := by
  have hkeeps : ReachableWhen (system samplePolicy) (KeepsSuppression samplePolicy (0 : ℕ)) _ :=
    reachableWhen_of_exec (S := system samplePolicy) rfl
      [.start, .discovered [0], .disconnect 0, .publish 1 0, .endReader 1,
        .connectionEnded 1 false true]
      (by
        intro l hl s
        simp only [List.mem_cons, List.not_mem_nil, or_false] at hl
        rcases hl with rfl | rfl | rfl | rfl | rfl | rfl <;> trivial) rfl
  have hforgets : Reachable (system samplePolicy) _ :=
    reachable_of_exec rfl [.start, .disconnect (0 : ℕ), .refresh] rfl
  refine ⟨⟨_, hkeeps, rfl, rfl, (disconnect_suppresses samplePolicy 0).1 _ hkeeps⟩, _, _, hforgets,
    rfl, (disconnect_suppresses samplePolicy 0).2 _ _ .clear hforgets (fun hkept => ?_) rfl⟩
  cases hkept rfl

end Reconnect
end Core
end Paqto
