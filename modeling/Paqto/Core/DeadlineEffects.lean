/-
# From which runtime on deadlines take effect

On a runtime where `asyncio.TimeoutError` is the built-in class, every deadline that expires in
a call takes effect, whatever the waits of the call end with and whatever other tasks do
meanwhile; on one where it is not, none does (`deadlines_take_effect`).

`Settled` is what holds between two steps of a call, and `Exc.Documented` of the exceptions that
leave it: one proof for both kinds of runtime, which `spec_withDeadline` tells apart.
-/

import Paqto.Core.DeadlineCallers

namespace Paqto
namespace Core
namespace Deadlines

open Python Python.Computation

variable {r : Runtime} {α β : Type}

/-! ## What is kept -/

/-- Every deadline that has expired was handled; or, before 3.11, none was. -/
def Balanced (r : Runtime) (s : World) : Prop :=
  if r.minor < 11 then s.handled = [] else s.handled = s.expired

/-- What was to be closed is closed, but for one deadline whose branch is being run. -/
def SettledBut (r : Runtime) (v : Deadline) (s : World) : Prop :=
  Balanced r s ∧
    (11 ≤ r.minor → ∀ w ∈ s.expired, w ≠ v → w.closes = true → s.shared.closed = true)

/-- What was to be closed is closed. -/
def Settled (r : Runtime) (s : World) : Prop :=
  Balanced r s ∧ (11 ≤ r.minor → ∀ w ∈ s.expired, w.closes = true → s.shared.closed = true)

/-- An error that goes back to a deadline is of a documented class of it; or, before 3.11, it is
`asyncio.TimeoutError` still. -/
def Exc.Documented (r : Runtime) : Exc → Prop
  | .error c (some w) => if r.minor < 11 then c = .asyncioTimeoutError else c ∈ w.documented
  | _ => True

/-- The computation keeps what is settled. -/
def Keeps (r : Runtime) (f : Call α) : Prop :=
  Spec (Settled r) f (fun _ => Settled r) fun e s => Settled r s ∧ e.Documented r

/-- The computation may leave it to its caller to close the connection when it raises. -/
def Leaves (r : Runtime) (f : Call α) : Prop :=
  Spec (Settled r) f (fun _ => Settled r) fun e s => Balanced r s ∧ e.Documented r

/-- What is settled is so but for any deadline. -/
theorem Settled.but {s : World} (h : Settled r s) (v : Deadline) : SettledBut r v s :=
  ⟨h.1, fun hr w hw _ => h.2 hr w hw⟩

/-- A deadline that closes nothing is no exception. -/
theorem SettledBut.settled {s : World} {v : Deadline} (h : SettledBut r v s)
    (hv : v.closes = false) : Settled r s := by
  refine ⟨h.1, fun hr w hw hcloses => h.2 hr w hw ?_ hcloses⟩
  rintro rfl
  rw [hv] at hcloses
  cases hcloses

/-- A closed connection settles everything. -/
theorem settled_of_closed {s : World} (h : Balanced r s) (hclosed : s.shared.closed = true) :
    Settled r s :=
  ⟨h, fun _ _ _ _ => hclosed⟩

/-- A change of the shared state that keeps a closed connection closed. -/
theorem Settled.update {s : World} {f : Shared → Shared} (h : Settled r s)
    (hf : s.shared.closed = true → (f s.shared).closed = true) :
    Settled r { s with shared := f s.shared } :=
  ⟨h.1, fun hr w hw hcloses => hf (h.2 hr w hw hcloses)⟩

/-- What keeps everything settled leaves nothing to its caller. -/
theorem Keeps.leaves {f : Call α} (h : Keeps r f) : Leaves r f :=
  h.mono (fun _ => id) (fun _ _ => id) fun _ _ he => ⟨he.1.1, he.2⟩

/-- `return` -/
theorem keeps_pure (a : α) : Keeps r (pure a : Call α) := spec_pure fun _ => id

/-- An error that is documented, or goes back to no deadline. -/
theorem keeps_raise {e : Exc} (h : e.Documented r) : Keeps r (raise e : Call α) :=
  spec_raise fun _ hs => ⟨hs, h⟩

/-- An error of its own goes back to no deadline. -/
theorem keeps_fail (c : ErrorClass) : Keeps r (fail c : Call α) := keeps_raise trivial

/-- A change of the shared state that opens nothing. -/
theorem keeps_update {f : Shared → Shared} (hf : ∀ s, s.closed = true → (f s).closed = true) :
    Keeps r (update f) :=
  spec_modify fun _ hs => hs.update (hf _)

/-- A change that only the call sees. -/
theorem keeps_local {f : World → World} (hf : ∀ s, (f s).shared = s.shared ∧
    (f s).expired = s.expired ∧ (f s).handled = s.handled) : Keeps r (modify f) := by
  refine spec_modify fun s hs => ?_
  obtain ⟨hshared, hexpired, hhandled⟩ := hf s
  unfold Settled Balanced at hs ⊢
  rw [hshared, hexpired, hhandled]
  exact hs

/-- One after the other. -/
theorem Keeps.bind {f : Call α} {g : α → Call β} (hf : Keeps r f) (hg : ∀ a, Keeps r (g a)) :
    Keeps r (f >>= g) :=
  spec_bind hf hg

/-- One after the other. -/
theorem Leaves.bind {f : Call α} {g : α → Call β} (hf : Leaves r f) (hg : ∀ a, Leaves r (g a)) :
    Leaves r (f >>= g) :=
  spec_bind hf hg

/-- The state is read. -/
theorem Keeps.read {g : World → Call α} (hg : ∀ s, Keeps r (g s)) : Keeps r (read >>= g) :=
  spec_read fun s hs => hg s s hs

/-- The state is read. -/
theorem Leaves.read {g : World → Call α} (hg : ∀ s, Leaves r (g s)) : Leaves r (read >>= g) :=
  spec_read fun s hs => hg s s hs

/-- `try`/`except`: the handlers see documented errors only. -/
theorem Keeps.handle {f : Call α} {handlers : Exc → Option (Call α)} (hf : Keeps r f)
    (hhandled : ∀ e h, handlers e = some h → e.Documented r → Keeps r h) :
    Keeps r (handle f handlers) :=
  spec_handle hf (fun e h heq s hs => hhandled e h heq hs.2 s hs.1) fun _ _ _ he => he

/-- `try`/`finally` -/
theorem Keeps.ensure {f : Call α} {cleanup : Call Unit} (hf : Keeps r f)
    (hcleanup : Keeps r cleanup) : Keeps r (ensure f cleanup) := by
  refine spec_ensure hf (fun _ => hcleanup) fun e s hs => ?_
  exact (hcleanup s hs.1).mono (fun _ _ ht => ⟨ht, hs.2⟩) fun _ _ => id

/-- A check that may fail. -/
theorem keeps_check (c : Option ErrorClass) : Keeps r (check c) := by
  cases c with
  | none => exact keeps_pure ()
  | some c => exact keeps_fail c

/-- An error that goes back to no deadline need not be documented. -/
theorem documented_of_cause {e : Exc} (h : e.cause = none) : e.Documented r := by
  cases e with
  | error c w =>
      obtain rfl : w = none := h
      trivial
  | cancelled w => trivial

/-- A wait keeps what other tasks keep, and raises nothing that goes back to a deadline. -/
theorem spec_perform {P : World → Prop} (a : Await)
    (hP : ∀ s, P s → P { s with shared := a.others.run s.shared }) :
    Spec P (perform a) (fun _ => P) fun e s => P s ∧ e.cause = none := by
  refine spec_bind (Q := fun _ => P) (spec_modify hP) fun _ => ?_
  cases a.outcome with
  | returns => exact spec_pure fun _ => id
  | raises c => exact spec_raise fun _ hs => ⟨hs, rfl⟩
  | cancelled w => exact spec_raise fun _ hs => ⟨hs, rfl⟩

/-- A wait. -/
theorem keeps_perform (a : Await) : Keeps r (perform a) :=
  (spec_perform a fun _ hs => hs.update (a.others.closed _)).mono (fun _ => id) (fun _ _ => id)
    fun _ _ he => ⟨he.1, documented_of_cause he.2⟩

/-- `if` -/
theorem keeps_runIf {b : Bool} {f : Call Unit} (h : Keeps r f) : Keeps r (runIf b f) := by
  cases b with
  | false => exact keeps_pure ()
  | true => exact h

/-- A wait that raises nothing but a cancellation. -/
theorem keeps_pause (p : Pause) : Keeps r (pause p) := keeps_perform p.1

/-- An error is reported. -/
theorem keeps_report (e : Exc) : Keeps r (report e) := keeps_update fun _ => id

/-! ## Classes of errors -/

/-- The classes of the errors that go back to a deadline. -/
def deadlineClasses : List ErrorClass :=
  [.asyncioTimeoutError, .paqtoTimeoutError, .requestTimeoutError, .acknowledgementTimeoutError,
    .connectionIdleTimeoutError, .protocolHandshakeTimeoutError, .transportError,
    .protocolHandshakeError]

/-- Before 3.11 nothing but `asyncio.TimeoutError` goes back to a deadline. -/
theorem documented_of_lt {c : ErrorClass} {w : Deadline} (hr : r.minor < 11) :
    (Exc.error c (some w)).Documented r ↔ c = .asyncioTimeoutError :=
  iff_of_eq (if_pos hr)

/-- From 3.11 on the class is one that is documented. -/
theorem documented_of_not_lt {c : ErrorClass} {w : Deadline} (hr : ¬ r.minor < 11) :
    (Exc.error c (some w)).Documented r ↔ c ∈ w.documented :=
  iff_of_eq (if_neg hr)

/-- An error that goes back to a deadline is of one of a few classes. -/
theorem Exc.Documented.mem {c : ErrorClass} {w : Deadline}
    (h : (Exc.error c (some w)).Documented r) : c ∈ deadlineClasses := by
  by_cases hr : r.minor < 11
  · rw [(documented_of_lt hr).1 h]
    decide
  · have hall : ∀ c ∈ w.documented, c ∈ deadlineClasses := by cases w <;> decide
    exact hall c ((documented_of_not_lt hr).1 h)

/-- An error that a clause for other classes takes does not go back to a deadline. -/
theorem Exc.Documented.cause_eq_none {e : Exc} {classes : List ErrorClass} (h : e.Documented r)
    (hisA : e.isA classes = true)
    (hclasses : ∀ c ∈ deadlineClasses, classes.any c.isSubclass = false) : e.cause = none := by
  cases e with
  | cancelled w => rfl
  | error c w =>
      cases w with
      | none => rfl
      | some w =>
          have hother := hclasses c h.mem
          have hisA : classes.any c.isSubclass = true := hisA
          rw [hother] at hisA
          cases hisA

/-- An error that is raised from one that goes back to no deadline. -/
theorem keeps_failFrom {c : ErrorClass} {e : Exc} (h : e.cause = none) :
    Keeps r (failFrom c e : Call α) := by
  rw [failFrom, h]
  exact keeps_fail c

/-! ## Deadlines -/

/-- An expired deadline on its way to its branch. -/
def Raw (r : Runtime) (v : Deadline) (e : Exc) (s : World) : Prop :=
  11 ≤ r.minor ∧ e = .error .timeoutError (some v) ∧ s.expired = s.handled ++ [v] ∧
    ∀ w ∈ s.handled, w.closes = true → s.shared.closed = true

/-- What a body under a deadline raises: the expiry of a deadline inside it, or what it may raise
anyway. -/
def Escapes (r : Runtime) (raws : List Deadline) (e : Exc) (s : World) : Prop :=
  (Settled r s ∧ e.Documented r) ∨ ∃ v ∈ raws, Raw r v e s

/-- A deadline expires: what escapes goes back to it. -/
theorem spec_expire {w : Deadline} {raws : List Deadline} (hw : w ∈ raws) :
    Spec (Settled r) (expire r w : Call α) (fun _ => Settled r) (Escapes r raws) := by
  intro s hs
  change Escapes r raws (.error r.timeoutError (some w)) { s with expired := s.expired ++ [w] }
  obtain ⟨hbalanced, hclosed⟩ := hs
  unfold Balanced at hbalanced
  unfold Runtime.timeoutError
  by_cases hr : r.minor < 11
  · rw [if_pos hr] at hbalanced ⊢
    refine Or.inl ⟨⟨?_, fun hle => ?_⟩, ?_⟩
    · unfold Balanced
      rw [if_pos hr]
      exact hbalanced
    · omega
    · exact (documented_of_lt hr).2 rfl
  · rw [if_neg hr] at hbalanced ⊢
    refine Or.inr ⟨w, hw, by omega, rfl, ?_, fun v hv => ?_⟩
    · change s.expired ++ [w] = s.handled ++ [w]
      rw [hbalanced]
    · exact hclosed (by omega) v (hbalanced ▸ hv)

/-- **`asyncio.wait_for`** adds its own deadline to those that may escape. -/
theorem spec_waitFor {w : Deadline} {timer : Timer} {raws : List Deadline} {body : Call α}
    (hbody : Spec (Settled r) body (fun _ => Settled r) (Escapes r raws)) :
    Spec (Settled r) (waitFor r w timer body) (fun _ => Settled r) (Escapes r (w :: raws)) := by
  have hmore : ∀ e s, Escapes r raws e s → Escapes r (w :: raws) e s := by
    rintro e s (hs | ⟨v, hv, hraw⟩)
    · exact Or.inl hs
    · exact Or.inr ⟨v, List.mem_cons_of_mem _ hv, hraw⟩
  cases timer with
  | unlimited => exact hbody.mono (fun _ => id) (fun _ _ => id) hmore
  | past => exact spec_expire (List.mem_cons_self ..)
  | running =>
      refine spec_handle hbody ?_ fun e s _ he => hmore e s he
      intro e h heq
      obtain ⟨rfl, ⟨⟩⟩ := Option.ite_none_right_eq_some.1 heq
      refine (spec_expire (List.mem_cons_self ..)).mono ?_ (fun _ _ => id) fun _ _ => id
      rintro s (hs | ⟨v, -, -, ⟨⟩, -⟩)
      exact hs.1

/-- **The rule of a wait under a deadline**: its branch is run for the deadline itself, and for
those that may expire inside the body. -/
theorem spec_withDeadline {w : Deadline} {timer : Timer} {raws : List Deadline} {body : Call α}
    {onExpiry : Exc → Call α} {otherwise : Exc → Option (Call α)} {E : Exc → World → Prop}
    (hbody : Spec (Settled r) body (fun _ => Settled r) (Escapes r raws))
    (honExpiry : ∀ v ∈ w :: raws, ∀ e, (e.cause = none ∨ 11 ≤ r.minor ∧ e.cause = some v) →
      Spec (SettledBut r v) (onExpiry e) (fun _ => Settled r) E)
    (hotherwise : ∀ e h, otherwise e = some h → e.Documented r →
      Spec (Settled r) h (fun _ => Settled r) E)
    (hpass : ∀ e s, Settled r s → e.Documented r → E e s) :
    Spec (Settled r) (withDeadline r w timer body onExpiry otherwise) (fun _ => Settled r) E := by
  refine spec_handle (spec_waitFor hbody) ?_ ?_
  · intro e h heq
    split at heq
    · next hisA =>
        cases heq
        rintro s (⟨hs, hdocumented⟩ | ⟨v, hv, hr, rfl, hexpired, hclosed⟩)
        · have hcause : e.cause = none := hdocumented.cause_eq_none hisA (by decide)
          have hentered : ({ s with handled := s.handled ++ e.cause.toList } : World) = s := by
            rw [hcause, Option.toList_none, List.append_nil]
          change Outcome _ _ (onExpiry e { s with handled := s.handled ++ e.cause.toList })
          rw [hentered]
          exact honExpiry w (List.mem_cons_self ..) e (Or.inl hcause) s (hs.but w)
        · refine honExpiry v hv _ (Or.inr ⟨hr, rfl⟩) _ ⟨?_, fun _ u hu hne hcloses => ?_⟩
          · unfold Balanced
            rw [if_neg (by omega)]
            exact hexpired.symm
          · have hu : u ∈ s.handled ++ [v] := hexpired ▸ hu
            obtain hu | hu := List.mem_append.1 hu
            · exact hclosed u hu hcloses
            · exact absurd (List.mem_singleton.1 hu) hne
    · next hisA =>
        rintro s (⟨hs, hdocumented⟩ | ⟨v, hv, hr, rfl, -⟩)
        · exact hotherwise e h heq hdocumented s hs
        · exact absurd rfl hisA
  · rintro e s hnone (⟨hs, hdocumented⟩ | ⟨v, hv, hr, rfl, -⟩)
    · exact hpass e s hs hdocumented
    · cases hnone

/-- Where everything is handled nothing escapes. -/
theorem Keeps.escapes {f : Call α} {raws : List Deadline} (h : Keeps r f) :
    Spec (Settled r) f (fun _ => Settled r) (Escapes r raws) :=
  h.mono (fun _ => id) (fun _ _ => id) fun _ _ he => Or.inl he

/-- A body that keeps has no deadline inside it to let out. -/
theorem Keeps.escapes_nil {f : Call α} (h : Keeps r f) :
    Spec (Settled r) f (fun _ => Settled r) (Escapes r []) :=
  h.escapes

/-- An error that is raised from an expired deadline, of a documented class. -/
theorem documented_failFrom {c : ErrorClass} {v : Deadline} {e : Exc}
    (he : e.cause = none ∨ 11 ≤ r.minor ∧ e.cause = some v) (hc : c ∈ v.documented) :
    (Exc.error c e.cause).Documented r := by
  obtain he | ⟨hr, he⟩ := he
  · rw [he]
    trivial
  · rw [he]
    exact (documented_of_not_lt (by omega)).2 hc

/-- A wait whose branch raises a documented error, and closes nothing. -/
theorem keeps_withDeadline {w : Deadline} {timer : Timer} {raws : List Deadline} {body : Call α}
    {c : ErrorClass} (hbody : Spec (Settled r) body (fun _ => Settled r) (Escapes r raws))
    (hc : ∀ v ∈ w :: raws, v.closes = false ∧ c ∈ v.documented) :
    Keeps r (withDeadline r w timer body (failFrom c) fun _ => none) := by
  refine spec_withDeadline hbody (fun v hv e he => spec_raise fun s hs => ?_) ?_ ?_
  · obtain ⟨hcloses, hdocumented⟩ := hc v hv
    exact ⟨hs.settled hcloses, documented_failFrom he hdocumented⟩
  · rintro e h ⟨⟩
  · exact fun e s hs he => ⟨hs, he⟩

/-! ## The connection -/

/-- The connection is closed. -/
def Shut (r : Runtime) (s : World) : Prop := Balanced r s ∧ s.shared.closed = true

/-- A connection that was shut settles everything. -/
theorem Shut.settled {s : World} (h : Shut r s) : Settled r s := settled_of_closed h.1 h.2

/-- It stays shut. -/
theorem Shut.update {s : World} {f : Shared → Shared} (h : Shut r s)
    (hf : ∀ u, u.closed = true → (f u).closed = true) : Shut r { s with shared := f s.shared } :=
  ⟨h.1, hf _ h.2⟩

/-- **`close` closes**, also when it raises. -/
theorem spec_closeConnection (a : Await) : Spec (Balanced r) (closeConnection a)
    (fun _ => Shut r) fun e s => Shut r s ∧ e.cause = none := by
  refine spec_read fun s hs => ?_
  have hshut : Shut r { s with shared := { s.shared with closed := true, writerClosing := true } } :=
    ⟨hs, rfl⟩
  have hrest : Spec (Shut r) (if s.shared.closed && s.shared.writerClosing then pure () else
      handle (perform a) fun e =>
        if e.isA [.connectionError, .osError, .runtimeError] then some (pure ()) else none)
      (fun _ => Shut r) fun e s => Shut r s ∧ e.cause = none := by
    split
    · exact spec_pure fun _ => id
    · refine spec_handle (spec_perform a fun _ hs => hs.update a.others.closed) ?_
        fun _ _ _ he => he
      intro e h heq
      obtain ⟨-, ⟨⟩⟩ := Option.ite_none_right_eq_some.1 heq
      exact spec_pure fun _ hs => hs.1
  exact hrest _ hshut

/-- `close` -/
theorem keeps_closeConnection (a : Await) : Keeps r (closeConnection a) :=
  (spec_closeConnection a).mono (fun _ hs => hs.1) (fun _ _ hs => hs.settled)
    fun _ _ he => ⟨he.1.settled, documented_of_cause he.2⟩

/-- A connection is closed before an error is raised. -/
theorem spec_closed_failFrom {v : Deadline} {c : ErrorClass} {e : Exc} (a : Await)
    (he : e.cause = none ∨ 11 ≤ r.minor ∧ e.cause = some v) (hc : c ∈ v.documented) :
    Spec (SettledBut r v) (do closeConnection a; failFrom c e : Call α) (fun _ => Settled r)
      fun e s => Settled r s ∧ e.Documented r := by
  refine spec_bind (Q := fun _ => Shut r) ?_ fun _ => spec_raise fun s hs =>
    ⟨hs.settled, documented_failFrom he hc⟩
  exact (spec_closeConnection a).mono (fun _ hs => hs.1) (fun _ _ => id)
    fun _ _ he => ⟨he.1.settled, documented_of_cause he.2⟩

/-- `ConnectionClosedError` -/
theorem keeps_connectionClosed {e : Exc} (h : e.cause = none) : Keeps r (connectionClosed e) :=
  (keeps_update fun _ _ => rfl).bind fun _ => keeps_failFrom h

/-- `_read_exactly` -/
theorem keeps_readExactly (a : Await) : Keeps r (readExactly a) := by
  refine (keeps_perform a).handle fun e h heq hdocumented => ?_
  split at heq
  · next hisA =>
      cases heq
      exact keeps_connectionClosed (hdocumented.cause_eq_none hisA (by decide))
  · obtain ⟨hisA, ⟨⟩⟩ := Option.ite_none_right_eq_some.1 heq
    exact keeps_connectionClosed (hdocumented.cause_eq_none hisA (by decide))

/-- `receive_frame`: the deadline of the payload closes the connection in its branch. -/
theorem keeps_receiveFrame (i : Receive) : Keeps r (receiveFrame r i) := by
  refine (keeps_pause i.lock).bind fun _ => Keeps.read fun s => ?_
  split
  · exact keeps_fail _
  · refine (keeps_readExactly i.header).bind fun _ => ?_
    split
    · exact (keeps_closeConnection i.closing).bind fun _ => keeps_fail _
    · refine spec_withDeadline (keeps_readExactly i.payload).escapes_nil ?_ ?_ ?_
      · intro v hv e he
        obtain rfl := List.mem_singleton.1 hv
        exact spec_closed_failFrom i.closing he (by decide)
      · rintro e h ⟨⟩
      · exact fun e s hs he => ⟨hs, he⟩

/-- `send_frame` -/
theorem keeps_sendFrame (i : SendFrame) : Keeps r (sendFrame i) := by
  refine (keeps_pause i.lock).bind fun _ => Keeps.read fun s => ?_
  split
  · exact keeps_fail _
  · split
    · exact keeps_fail _
    · refine (keeps_perform i.drain).handle fun e h heq hdocumented => ?_
      obtain ⟨hisA, ⟨⟩⟩ := Option.ite_none_right_eq_some.1 heq
      exact keeps_connectionClosed (hdocumented.cause_eq_none hisA (by decide))

/-! ## The handshake -/

/-- The error of a payload that does not come is a failed handshake. -/
theorem documented_handshake {e : Exc} (h : e.Documented r)
    (hisA : e.isA [.transportError] = true) :
    (Exc.error .protocolHandshakeError e.cause).Documented r := by
  cases e with
  | cancelled w => trivial
  | error c w =>
      cases w with
      | none => trivial
      | some w =>
          by_cases hr : r.minor < 11
          · rw [(documented_of_lt hr).1 h] at hisA
            cases hisA
          · have hall : ∀ c ∈ w.documented, (Exc.error c (some w)).isA [.transportError] = true →
                ErrorClass.protocolHandshakeError ∈ w.documented := by
              cases w <;> decide
            exact (documented_of_not_lt hr).2 (hall c ((documented_of_not_lt hr).1 h) hisA)

/-- The exchange of the hellos leaves the close to its caller. -/
theorem leaves_exchangeHello (i : Handshake) : Leaves r (exchangeHello r i) := by
  have hbody : Keeps r (do sendFrame i.send; receiveFrame r i.receive) :=
    (keeps_sendFrame i.send).bind fun _ => keeps_receiveFrame i.receive
  refine spec_withDeadline hbody.escapes_nil ?_ ?_ fun e s hs he => ⟨hs.1, he⟩
  · intro v hv e he
    obtain rfl := List.mem_singleton.1 hv
    exact spec_raise fun s hs => ⟨hs.1, documented_failFrom he (by decide)⟩
  · intro e h heq hdocumented
    split at heq
    · next hisA =>
        cases heq
        have hcause : e.cause = none := hdocumented.cause_eq_none hisA (by decide)
        exact (keeps_failFrom hcause).leaves
    · obtain ⟨hisA, ⟨⟩⟩ := Option.ite_none_right_eq_some.1 heq
      exact (keeps_raise (documented_handshake hdocumented hisA)).leaves

/-- The clean-up after a failed handshake closes the connection. -/
theorem spec_closeAfterFailedHandshake (i : Handshake) : Spec (Balanced r)
    (closeAfterFailedHandshake i) (fun _ => Shut r) fun e s => Shut r s ∧ e.cause = none := by
  refine spec_bind (Q := fun _ => Shut r) ?_ fun _ =>
    spec_perform i.shield.1 fun _ hs => hs.update i.shield.1.others.closed
  refine spec_handle (spec_closeConnection i.closing) ?_ fun _ _ _ he => he
  intro e h heq
  obtain ⟨-, ⟨⟩⟩ := Option.ite_none_right_eq_some.1 heq
  exact spec_pure fun _ hs => hs.1

/-- A handshake that fails closes its connection. -/
theorem keeps_negotiateProtocol (i : Handshake) : Keeps r (negotiateProtocol r i) := by
  have hbody : Leaves r (do exchangeHello r i; check i.verdict) :=
    (leaves_exchangeHello i).bind fun _ => (keeps_check i.verdict).leaves
  refine spec_handle hbody ?_ fun e s hnone => by cases hnone
  intro e h heq s hs
  cases heq
  refine spec_bind (Q := fun _ => Shut r) ?_ (fun _ => ?_) s hs.1
  · exact (spec_closeAfterFailedHandshake i).mono (fun _ => id) (fun _ _ => id)
      fun _ _ he => ⟨he.1.settled, documented_of_cause he.2⟩
  · exact spec_raise fun t ht => ⟨ht.settled, hs.2⟩

/-! ## Outgoing connections -/

/-- `_prepare_outgoing_connection` -/
theorem keeps_prepareOutgoingConnection (i : Prepare) : Keeps r (prepareOutgoingConnection r i) := by
  unfold prepareOutgoingConnection
  split
  · exact keeps_fail _
  · refine Keeps.handle ((keeps_negotiateProtocol i.handshake).bind fun _ =>
      keeps_perform i.selection) fun e h heq hdocumented => ?_
    cases heq
    exact (keeps_runIf (keeps_report e)).bind fun _ => keeps_raise hdocumented

/-- The deadline inside `connect` of the transport is left to the caller. -/
theorem spec_transportConnect (i : TransportConnect) : Spec (Settled r) (transportConnect r i)
    (fun _ => Settled r) (Escapes r [.transport]) := by
  have hwriter : ∀ a : Await, Keeps r (handle (perform a) fun e =>
      if e.isA [.connectionError, .osError, .runtimeError] then some (pure ()) else none) := by
    intro a
    refine (keeps_perform a).handle fun e h heq _ => ?_
    obtain ⟨-, ⟨⟩⟩ := Option.ite_none_right_eq_some.1 heq
    exact keeps_pure ()
  refine spec_bind (Q := fun _ => Settled r) (keeps_runIf (keeps_fail _)).escapes fun _ => ?_
  refine spec_bind (Q := fun _ => Settled r) ?_ fun _ => Keeps.escapes ?_
  · refine spec_handle (spec_waitFor (keeps_perform i.opening).escapes) ?_ fun _ _ _ he => he
    intro e h heq
    split at heq
    · cases heq
      exact spec_raise fun s hs => hs
    · next hother =>
        obtain ⟨hisA, ⟨⟩⟩ := Option.ite_none_right_eq_some.1 heq
        rintro s (⟨hs, hdocumented⟩ | ⟨v, -, -, rfl, -⟩)
        · exact (keeps_failFrom (hdocumented.cause_eq_none hisA (by decide))).escapes s hs
        · exact absurd rfl hother
  · split
    · exact (hwriter i.closing).bind fun _ => keeps_fail _
    · refine (keeps_check i.metadata).handle fun e h heq hdocumented => ?_
      obtain ⟨-, ⟨⟩⟩ := Option.ite_none_right_eq_some.1 heq
      exact (hwriter i.closing).bind fun _ => keeps_raise hdocumented

/-- What is there only sometimes. -/
theorem keeps_elim {ι : Type} {f : ι → Call Unit} (hf : ∀ i, Keeps r (f i)) (i : Option ι) :
    Keeps r (i.elim (pure ()) f) := by
  cases i with
  | none => exact keeps_pure ()
  | some i => exact hf i

/-- `_open_connection` -/
theorem keeps_openConnection (i : Open) : Keeps r (openConnection r i) := by
  refine Keeps.ensure ?_ ?_
  · refine Keeps.bind (keeps_withDeadline (spec_transportConnect i.connect) (by decide)) fun _ => ?_
    refine Keeps.bind (keeps_local fun _ => ⟨rfl, rfl, rfl⟩) fun _ => ?_
    refine (keeps_elim keeps_prepareOutgoingConnection i.prepare).bind fun _ => ?_
    refine (keeps_elim keeps_closeConnection i.replaced).bind fun _ => ?_
    refine (keeps_pause i.lock).bind fun _ => ?_
    split
    · exact keeps_fail _
    · exact (keeps_elim keeps_perform i.previous).bind fun _ =>
        keeps_local fun _ => ⟨rfl, rfl, rfl⟩
  · refine Keeps.read fun s => Keeps.bind (keeps_runIf ?_) fun _ => keeps_pause i.cleanupLock
    refine (keeps_closeConnection i.closing).handle fun e h heq _ => ?_
    cases heq
    exact keeps_pure ()

/-- `connect` -/
theorem keeps_connect (i : Connecting) : Keeps r (connect r i) := by
  refine (keeps_check i.refused).bind fun _ => ?_
  split
  · exact keeps_pure ()
  · refine (keeps_pause i.lock).bind fun _ => (keeps_openConnection i.opening).bind fun _ => ?_
    refine (keeps_pause i.waiter).bind fun _ => keeps_elim (fun a => ?_) i.orphan
    exact (keeps_perform a).bind fun _ => keeps_fail _

/-! ## Messages -/

/-- `_queue_frame` -/
theorem keeps_queueFrame (i : Queue) : Keeps r (queueFrame i) := by
  unfold queueFrame
  split
  · exact keeps_fail _
  · split
    · exact keeps_fail _
    · exact (keeps_pause i.put).bind fun _ => keeps_perform i.sent

/-- `_send_message` -/
theorem keeps_sendMessage (i : Sending) : Keeps r (sendMessage r i) := by
  refine (keeps_check i.refused).bind fun _ => Keeps.bind (keeps_update fun _ => id) fun _ => ?_
  refine Keeps.ensure (Keeps.bind ?_ fun _ => keeps_runIf ?_) (keeps_update fun _ => id)
  · exact keeps_withDeadline (keeps_queueFrame i.queue).escapes_nil (by decide)
  · exact keeps_withDeadline (keeps_perform i.acknowledgement).escapes_nil (by decide)

/-- `request` -/
theorem keeps_request (i : Requesting) : Keeps r (request r i) := by
  refine (keeps_connect i.connecting).bind fun _ => (keeps_check i.refused).bind fun _ => ?_
  refine Keeps.bind (keeps_update fun _ => id) fun _ => Keeps.ensure ?_ (keeps_update fun _ => id)
  refine (keeps_sendMessage i.sending).bind fun _ => ?_
  exact keeps_withDeadline (keeps_perform i.reply).escapes_nil (by decide)

/-- `discover` -/
theorem keeps_discover (i : Discovering) : Keeps r (discover r i) := by
  refine (keeps_check i.refused).bind fun _ => Keeps.bind ?_ fun _ => keeps_runIf (keeps_fail _)
  exact keeps_withDeadline (keeps_perform i.discovery).escapes_nil (by decide)

/-! ## The reader -/

/-- The loop of a reader leaves the close to the end of the task. -/
theorem leaves_readLoop (turns : List Turn) : Leaves r (readLoop r turns) := by
  induction turns with
  | nil => exact (keeps_pure ()).leaves
  | cons i turns ih =>
      refine Leaves.read fun s => ?_
      split
      · exact (keeps_pure ()).leaves
      · refine Leaves.bind ?_ fun _ => (keeps_perform i.processing).leaves.bind fun _ => ih
        refine spec_withDeadline (keeps_receiveFrame i.receive).escapes_nil ?_ ?_
          fun e s hs he => ⟨hs.1, he⟩
        · intro v hv e he
          obtain rfl := List.mem_singleton.1 hv
          exact spec_raise fun s hs => ⟨hs.1, documented_failFrom he (by decide)⟩
        · rintro e h ⟨⟩

/-- A reader that raises was cancelled, or has closed its connection. -/
def Interrupted (r : Runtime) (e : Exc) (s : World) : Prop :=
  Balanced r s ∧ (Settled r s ∨ ∃ d, e = .cancelled d) ∧ e.Documented r

/-- What keeps everything settled does so when it is cancelled. -/
theorem Keeps.interrupted {f : Call α} (h : Keeps r f) :
    Spec (Settled r) f (fun _ => Settled r) (Interrupted r) :=
  h.mono (fun _ => id) (fun _ _ => id) fun _ _ he => ⟨he.1.1, Or.inl he.1, he.2⟩

/-- **The end of a session closes its connection**, unless it is cancelled. -/
theorem spec_connectionEnded (i : Ended) : Spec (Balanced r) (connectionEnded i) (fun _ => Shut r)
    (Interrupted r) := by
  have hpause : ∀ p : Pause, Spec (Balanced r) (pause p) (fun _ => Balanced r) (Interrupted r) := by
    intro p
    refine (spec_pause p fun _ hs => hs).mono (fun _ => id) (fun _ _ => id) ?_
    rintro e s ⟨hs, d, rfl⟩
    exact ⟨hs, Or.inr ⟨d, rfl⟩, trivial⟩
  refine spec_bind (Q := fun _ => Balanced r) (spec_modify fun _ hs => hs) fun _ => ?_
  refine spec_bind (hpause i.heartbeat) fun _ => spec_bind (hpause i.outbound) fun _ => ?_
  refine spec_bind (hpause i.lost) fun _ => ?_
  exact (spec_closeConnection i.closing).mono (fun _ => id) (fun _ _ => id)
    fun _ _ he => ⟨he.1.1, Or.inl he.1.settled, documented_of_cause he.2⟩

/-- `_read_connection` -/
theorem spec_readConnection (turns : List Turn) (ended : Ended) : Spec (Settled r)
    (readConnection r turns ended) (fun _ => Settled r) (Interrupted r) := by
  have hloop : Spec (Settled r) (handle (readLoop r turns) fun e =>
      if e.isA [.connectionClosedError] then some (pure ())
      else if e.isA [.resourceLimitError] then some (pure ())
      else if e.isA [.protocolError, .serializationError, .transportError] then some (report e)
      else if e.isA [.connectionIdleTimeoutError] then
        some (update fun s => { s with idleWarnings := s.idleWarnings + 1 })
      else if e.isA [.exception] then some (report e)
      else none) (fun _ => Balanced r) fun e s => Balanced r s ∧ e.Documented r := by
    refine spec_handle (F := fun e s => Balanced r s ∧ e.Documented r)
      ((leaves_readLoop turns).mono (fun _ => id) (fun _ _ hs => hs.1) fun _ _ => id) ?_
      fun _ _ _ he => he
    intro e h heq
    have hkept : ∀ f : Shared → Shared, Spec (fun s => Balanced r s ∧ e.Documented r) (update f)
        (fun _ => Balanced r) fun e s => Balanced r s ∧ e.Documented r :=
      fun f => spec_modify fun _ hs => hs.1
    split at heq
    · cases heq
      exact spec_pure fun _ hs => hs.1
    split at heq
    · cases heq
      exact spec_pure fun _ hs => hs.1
    split at heq
    · cases heq
      exact hkept _
    split at heq
    · cases heq
      exact hkept _
    · obtain ⟨-, ⟨⟩⟩ := Option.ite_none_right_eq_some.1 heq
      exact hkept _
  refine spec_ensure hloop (fun _ => ?_) fun e s hs => ?_
  · exact (spec_connectionEnded ended).mono (fun _ => id) (fun _ _ hs => hs.settled) fun _ _ => id
  · exact (spec_connectionEnded ended s hs.1).mono
      (fun _ _ ht => ⟨ht.1, Or.inl ht.settled, hs.2⟩) fun _ _ => id

/-- `_run_incoming_connection` -/
theorem spec_runIncomingConnection (i : Incoming) : Spec (Settled r) (runIncomingConnection r i)
    (fun _ => Settled r) (Interrupted r) := by
  refine spec_ensure (G := fun _ => Settled r) (F := Interrupted r) ?_ (fun _ => ?_) fun e => ?_
  · refine spec_bind (Q := fun _ => Settled r) (Keeps.interrupted ?_) fun _ => ?_
    · refine (keeps_negotiateProtocol i.handshake).handle fun e h heq hdocumented => ?_
      split at heq
      · cases heq
        exact keeps_raise hdocumented
      split at heq
      · cases heq
        exact (keeps_report e).bind fun _ => keeps_raise hdocumented
      · obtain ⟨-, ⟨⟩⟩ := Option.ite_none_right_eq_some.1 heq
        exact (keeps_report e).bind fun _ => keeps_raise hdocumented
    · refine spec_bind (Q := fun _ => Settled r) (keeps_perform i.selection).interrupted fun _ => ?_
      split
      · exact spec_bind (Q := fun _ => Settled r)
          (keeps_local fun _ => ⟨rfl, rfl, rfl⟩).interrupted fun _ =>
            spec_readConnection i.turns i.ended
      · exact (keeps_pure ()).interrupted
  · exact (Keeps.read fun s => keeps_runIf (keeps_closeConnection i.closing)).interrupted
  · refine spec_read fun s hs => ?_
    cases s.reading with
    | true => exact hs
    | false =>
      exact (spec_closeConnection i.closing s hs.1).mono
        (fun _ _ ht => ⟨ht.1, Or.inl ht.settled, hs.2.2⟩)
        fun _ _ he => ⟨he.1.1, Or.inl he.1.settled, documented_of_cause he.2⟩

/-! ## The heartbeat -/

/-- One PING of the heartbeat loop. -/
theorem keeps_ping (i : Beat) : Keeps r (ping r i) := by
  refine Keeps.bind (keeps_update fun _ => id) fun _ => Keeps.ensure ?_ (keeps_update fun _ => id)
  refine (keeps_queueFrame i.queue).bind fun _ => ?_
  have hpong : Keeps r (do perform i.pong; pure true) :=
    (keeps_perform i.pong).bind fun _ => keeps_pure true
  refine spec_withDeadline hpong.escapes_nil ?_ ?_ fun e s hs he => ⟨hs, he⟩
  · intro v hv e he
    refine spec_bind (Q := fun _ => Shut r) ?_ fun _ => spec_pure fun _ hs => hs.settled
    exact (spec_closeConnection i.closing).mono (fun _ hs => hs.1) (fun _ _ => id)
      fun _ _ he => ⟨he.1.settled, documented_of_cause he.2⟩
  · rintro e h ⟨⟩

/-- `_heartbeat_loop` -/
theorem keeps_heartbeatLoop (beats : List Beat) : Keeps r (heartbeatLoop r beats) := by
  induction beats with
  | nil => exact keeps_pure ()
  | cons i beats ih =>
      refine Keeps.read fun s => ?_
      split
      · exact keeps_pure ()
      · refine (keeps_pause i.sleep).bind fun _ => Keeps.read fun s => ?_
        split
        · exact keeps_pure ()
        · split
          · exact ih
          · refine (keeps_ping i).bind fun goesOn => ?_
            split
            · exact ih
            · exact keeps_pure ()

/-! ## The law -/

/-- **Every entry** keeps the deadlines settled, or was cancelled. -/
theorem spec_run (entry : Entry) : Spec (Settled r) (entry.run r) (fun _ => Settled r)
    (Interrupted r) := by
  cases entry with
  | receiveFrame i => exact (keeps_receiveFrame i).interrupted
  | negotiateProtocol i => exact (keeps_negotiateProtocol i).interrupted
  | connect i => exact (keeps_connect i).interrupted
  | send i j => exact ((keeps_connect i).bind fun _ => keeps_sendMessage j).interrupted
  | sendMessage i => exact (keeps_sendMessage i).interrupted
  | request i => exact (keeps_request i).interrupted
  | discover i => exact (keeps_discover i).interrupted
  | readConnection turns ended => exact spec_readConnection turns ended
  | runIncomingConnection i => exact spec_runIncomingConnection i
  | heartbeatLoop beats => exact (keeps_heartbeatLoop beats).interrupted

/-- No deadline has expired yet. -/
theorem settled_start (shared : Shared) : Settled r (World.start shared) := by
  refine ⟨?_, fun _ w hw => by cases hw⟩
  unfold Balanced
  split <;> rfl

/-- **Deadlines take effect exactly from Python 3.11 on.**  In every call in which a deadline
expires, whatever its waits end with and whatever other tasks do meanwhile, the branch of every
deadline that expired is entered, callers see its documented error and the connection is closed
where that is due, if and only if `asyncio.TimeoutError` is the built-in class. -/
theorem deadlines_take_effect (r : Runtime) (entry : Entry) (shared : Shared)
    (hexpired : (entry.run r (World.start shared)).2.expired ≠ []) :
    TakesEffect (entry.run r (World.start shared)) ↔ 11 ≤ r.minor := by
  have hrun := spec_run entry _ (settled_start (r := r) shared)
  have htold : ∀ w ∈ (entry.run r (World.start shared)).2.expired, w.raises = true →
      ∃ e, (entry.run r (World.start shared)).1 = .error e ∧ e.Tells w :=
    fun _ hw hraises => exists_tells hw hraises
  generalize entry.run r (World.start shared) = o at hrun hexpired htold
  obtain ⟨result, t⟩ := o
  have hbalanced : Balanced r t := by
    cases result with
    | ok a => exact hrun.1
    | error e => exact hrun.1
  constructor
  · intro heffect
    by_contra hr
    unfold Balanced at hbalanced
    rw [if_pos (by omega)] at hbalanced
    exact hexpired (heffect.branches.symm.trans hbalanced)
  · intro hr
    unfold Balanced at hbalanced
    rw [if_neg (by omega)] at hbalanced
    refine ⟨hbalanced, htold, ?_, ?_⟩
    · rintro c w ⟨⟩
      exact (documented_of_not_lt (by omega)).1 hrun.2.2
    · intro w hw hcloses
      cases result with
      | ok a => exact Or.inl (hrun.2 hr w hw hcloses)
      | error e =>
          obtain ⟨-, hsettled | ⟨d, rfl⟩, -⟩ := hrun
          · exact Or.inl (hsettled.2 hr w hw hcloses)
          · exact Or.inr ⟨d, rfl⟩

/-! ## A PONG that does not come -/

/-- A wait that returns. -/
def quiet : Await := ⟨.returns, id, fun _ => id⟩

/-- A quiet wait raises nothing. -/
theorem quiet_outcome (c : ErrorClass) : quiet.outcome ≠ .raises c := by
  rintro ⟨⟩

/-- A turn in which the peer answers no PING. -/
def silentBeat : Beat where
  running := true
  atEof := false
  sleep := ⟨quiet, quiet_outcome⟩
  runningAfter := true
  atEofAfter := false
  recent := false
  queue := ⟨false, false, ⟨quiet, quiet_outcome⟩, quiet⟩
  timer := .running
  pong := ⟨.cancelled (some .pong), id, fun _ => id⟩
  closing := quiet

/-- An open connection with a READY session. -/
def openSession : Shared := ⟨false, false, true, false, false, false, [], 0⟩

/-- Python 3.10 -/
def python310 : Runtime := ⟨10, Nat.le_refl 10⟩

/-- Python 3.11 -/
def python311 : Runtime := ⟨11, Nat.le_succ 10⟩

/-- **A run.**  A PONG does not come in time. -/
theorem deadlines_take_effect_sample : TakesEffect
    ((Entry.heartbeatLoop [silentBeat]).run python311 (World.start openSession)) :=
  (deadlines_take_effect python311 (.heartbeatLoop [silentBeat]) openSession
    (List.cons_ne_nil _ _)).2 (Nat.le_refl 11)

/-- **On Python 3.10 the connection of a dead peer stays open**: the deadline of the PONG ends
the heartbeat instead of the connection. -/
theorem not_deadlines_take_effect : ∃ t : World,
    (Entry.heartbeatLoop [silentBeat]).run python310 (World.start openSession) =
      (.error (.error .asyncioTimeoutError (some .pong)), t) ∧
    t.expired = [.pong] ∧ t.handled = [] ∧ t.shared.closed = false ∧
    ¬ TakesEffect ((Entry.heartbeatLoop [silentBeat]).run python310 (World.start openSession)) := by
  refine ⟨_, rfl, rfl, rfl, rfl, fun heffect => ?_⟩
  cases heffect.branches

end Deadlines
end Core
end Paqto
