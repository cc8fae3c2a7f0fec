/-
# The accept loop

`_accept_loop` of `core/node.py` beside the node of `Core.Admission`: its task is created
by `start()`, cancelled by `stop()` and awaited before `stop()` comes to its end.  What
`accept()` comes back with and what `close()` of a refused connection does is in the labels.

An exception of `close()` ends the task, and nothing starts another one.
`accept_loop_survives` says that in every other run of a node that stays running the loop
is in `accept()`, or goes on to it.
-/

import Paqto.Core.AdmissionBound

namespace Paqto
namespace Core
namespace AcceptLoop

open Transition
open Admission (Config)

variable {F : Type}

/-- An exception that is not a cancellation. -/
inductive Raised
  /-- `ConnectionClosedError` -/
  | connectionClosed
  /-- Any other `Exception`. -/
  | exception
  /-- A `BaseException` that is no `Exception`. -/
  | fatal
  deriving DecidableEq, Repr

/-- Where `_accept_loop` is suspended. -/
inductive LoopPc
  /-- There is no task. -/
  | absent
  /-- Created, its first step not taken. -/
  | created
  /-- In `accept()`. -/
  | accepting
  /-- In `asyncio.sleep(0.1)`. -/
  | sleeping
  /-- In `close()` of a connection it has refused. -/
  | closing (c : ℕ)
  | ended
  deriving DecidableEq, Repr

/-- The node with its accept loop. -/
structure State (F : Type) where
  node : Admission.Node F
  /-- `_lifecycle_generation` -/
  lifecycleGeneration : ℕ
  pc : LoopPc
  /-- The local `generation`. -/
  generation : ℕ
  /-- `cancel()` was called on `_accept_task`. -/
  cancelled : Bool
  /-- How often `accept()` was called. -/
  calls : ℕ

/-- `__init__` -/
def initial : State F := ⟨Admission.initial, 0, .absent, 0, false, 0⟩

/-- The moves of the node and of the loop. -/
inductive Label (F : Type)
  /-- A step of the rest of the node. -/
  | node (l : Admission.Label F)
  /-- The first step of the loop. -/
  | begin
  | accepted (c : ℕ)
  | acceptRaises (e : Raised)
  | slept
  /-- `close()` returns. -/
  | closed
  | closeRaises (e : Raised)
  /-- The loop is told that it is cancelled. -/
  | cancelled

namespace State

/-- The head of the loop, up to its next suspension. -/
def head (s : State F) : State F :=
  if s.node.running ∧ s.generation = s.lifecycleGeneration then
    { s with pc := .accepting, calls := s.calls + 1 }
  else { s with pc := .ended }

/-- `accept()` has returned a connection. -/
def accept (cfg : Config) (s : State F) (c : ℕ) : State F :=
  if cfg.maxConnections ≤ s.node.activeConnectionCount then
    { s with node := s.node.accept cfg c, pc := .closing c }
  else { s with node := s.node.accept cfg c }.head

/-- `accept()` has raised. -/
def acceptRaises (s : State F) : Raised → State F
  | .exception => { s with pc := .sleeping }
  | _ => { s with pc := .ended }

end State

/-- One step. -/
def step (cfg : Config) (s : State F) : Label F → Option (State F)
  | .node l =>
      match l with
      | .accept _ => none
      | .start =>
          (Admission.step cfg s.node .start).map fun node =>
            { s with
              node
              lifecycleGeneration := s.lifecycleGeneration + 1
              pc := .created
              cancelled := false }
      | .beginStop =>
          (Admission.step cfg s.node .beginStop).map fun node => { s with node, cancelled := true }
      | .stopped =>
          if s.pc = .ended then
            (Admission.step cfg s.node .stopped).map fun node => { s with node }
          else none
      | l => (Admission.step cfg s.node l).map fun node => { s with node }
  | .begin =>
      match s.pc with
      | .created =>
          if s.cancelled then none else some { s with generation := s.lifecycleGeneration }.head
      | _ => none
  | .accepted c =>
      match s.pc, s.node.stages c with
      | .accepting, .absent => if s.cancelled then none else some (s.accept cfg c)
      | _, _ => none
  | .acceptRaises e =>
      match s.pc with
      | .accepting => if s.cancelled then none else some (s.acceptRaises e)
      | _ => none
  | .slept =>
      match s.pc with
      | .sleeping => if s.cancelled then none else some s.head
      | _ => none
  | .closed =>
      match s.pc with
      | .closing _ => if s.cancelled then none else some s.head
      | _ => none
  | .closeRaises _ =>
      match s.pc with
      | .closing _ => some { s with pc := .ended }
      | _ => none
  | .cancelled => if s.cancelled then some { s with pc := .ended } else none

/-- The runs of a node with its accept loop. -/
def system (F : Type) (cfg : Config) : System (State F) (Label F) where
  init s := s = initial
  step := step cfg

/-! ## The law -/

/-- The connection is in `_incoming_connections` and has its task. -/
def State.Given (s : State F) (c : ℕ) : Prop :=
  s.node.stages c = .negotiating .incoming ∧ c ∈ s.node.incoming

/-- What the loop awaits outside `accept()` returns. -/
inductive Returns : Label F → Prop
  | begin : Returns .begin
  | slept : Returns .slept
  | closed : Returns .closed

/-- **The loop is in `accept()`, or calls it next.** -/
def State.Accepts (cfg : Config) (s : State F) : Prop :=
  s.pc = .accepting ∨ ∃ l t, Returns l ∧ step cfg s l = some t ∧ t.pc = .accepting ∧
    t.calls = s.calls + 1

/-- The listener does not say that it is closed. -/
inductive ListenerOpen : Label F → Prop
  | node (l : Admission.Label F) : ListenerOpen (.node l)
  | begin : ListenerOpen .begin
  | accepted (c : ℕ) : ListenerOpen (.accepted c)
  | exception : ListenerOpen (.acceptRaises .exception)
  | fatal : ListenerOpen (.acceptRaises .fatal)
  | slept : ListenerOpen .slept
  | closed : ListenerOpen .closed
  | closeRaises (e : Raised) : ListenerOpen (.closeRaises e)
  | cancelled : ListenerOpen .cancelled

/-- No `close()` of a refused connection raises in a running node, and `accept()` raises
nothing but an `Exception`. -/
def Contained (s : State F) : Label F → Prop
  | .closeRaises _ => s.node.running = false
  | .acceptRaises .fatal => s.node.running = false
  | _ => True

/-- The node runs and nobody accepts its connections. -/
def State.Deaf (s : State F) : Prop := s.node.running = true ∧ s.pc = .ended

/-! ## What the loop keeps -/

variable {cfg : Config} {s t : State F}

/-- The loop of a running node is at work, in its generation. -/
structure State.AtWork (s : State F) : Prop where
  present : s.pc ≠ .absent
  alive : s.pc ≠ .ended
  uncancelled : s.cancelled = false
  generation : s.pc ≠ .created → s.generation = s.lifecycleGeneration

/-- A loop that goes on calls `accept` again. -/
theorem head_eq (hrunning : s.node.running = true) (hgen : s.generation = s.lifecycleGeneration) :
    s.head = { s with pc := .accepting, calls := s.calls + 1 } := if_pos ⟨hrunning, hgen⟩

/-- It is at work then. -/
theorem atWork_head (hrunning : s.node.running = true) (hcancelled : s.cancelled = false)
    (hgen : s.generation = s.lifecycleGeneration) : s.head.AtWork := by
  rw [head_eq hrunning hgen]
  exact ⟨by simp, by simp, hcancelled, fun _ => hgen⟩

/-- The node runs on. -/
theorem running_head : s.head.node.running = s.node.running := by
  unfold State.head
  split <;> rfl

/-- A loop at work calls `accept()` next. -/
theorem State.AtWork.accepts (h : s.AtWork) (hrunning : s.node.running = true) :
    s.Accepts cfg := by
  have hlive : ¬ s.cancelled = true := by simp [h.uncancelled]
  cases hpc : s.pc with
  | absent => exact absurd hpc h.present
  | created =>
      have hhead := head_eq (s := { s with generation := s.lifecycleGeneration }) hrunning rfl
      refine Or.inr ⟨.begin, ({ s with generation := s.lifecycleGeneration } : State F).head,
        .begin, ?_, ?_, ?_⟩
      · simp only [step, hpc]
        exact if_neg hlive
      · rw [hhead]
      · rw [hhead]
  | accepting => exact Or.inl hpc
  | sleeping =>
      have hgen := h.generation (by simp [hpc])
      refine Or.inr ⟨.slept, s.head, .slept, ?_, ?_, ?_⟩
      · simp only [step, hpc]
        exact if_neg hlive
      · rw [head_eq hrunning hgen]
      · rw [head_eq hrunning hgen]
  | closing c =>
      have hgen := h.generation (by simp [hpc])
      refine Or.inr ⟨.closed, s.head, .closed, ?_, ?_, ?_⟩
      · simp only [step, hpc]
        exact if_neg hlive
      · rw [head_eq hrunning hgen]
      · rw [head_eq hrunning hgen]
  | ended => exact absurd hpc h.alive

/-- What a step of the rest of the node leaves of the loop. -/
inductive NodeStep (cfg : Config) (s : State F) : Admission.Label F → State F → Prop
  | start {node : Admission.Node F} :
      NodeStep cfg s .start { s with
        node
        lifecycleGeneration := s.lifecycleGeneration + 1
        pc := .created
        cancelled := false }
  | beginStop {node : Admission.Node F} (hnode : node.running = false) :
      NodeStep cfg s .beginStop { s with node, cancelled := true }
  | other {l : Admission.Label F} {node : Admission.Node F} (hl : l ≠ .start)
      (hnode : Admission.step cfg s.node l = some node) : NodeStep cfg s l { s with node }

/-- **What a step of the node does to the loop.** -/
theorem nodeStep_of_step {l : Admission.Label F} (hs : step cfg s (.node l) = some t) :
    NodeStep cfg s l t := by
  have hother : ∀ {l : Admission.Label F}, l ≠ .start →
      ((Admission.step cfg s.node l).map fun node => { s with node }) = some t →
      NodeStep cfg s l t := by
    intro l hl hs
    obtain ⟨node, hnode, rfl⟩ := Option.map_eq_some_iff.1 hs
    exact .other hl hnode
  cases l with
  | accept c => cases hs
  | start =>
      obtain ⟨node, -, rfl⟩ := Option.map_eq_some_iff.1 hs
      exact .start
  | beginStop =>
      obtain ⟨node, hnode, rfl⟩ := Option.map_eq_some_iff.1 hs
      simp only [Admission.step] at hnode
      split at hnode <;> cases hnode
      exact .beginStop rfl
  | stopped =>
      simp only [step] at hs
      split at hs
      · exact hother (by rintro ⟨⟩) hs
      · cases hs
  | _ => exact hother (by rintro ⟨⟩) hs

/-- **The loop stays at work**, step by step. -/
theorem atWork_step {l : Label F} (h : s.node.running = true → s.AtWork) (hopen : ListenerOpen l)
    (hcontained : Contained s l) (hs : step cfg s l = some t) (hrunning : t.node.running = true) :
    t.AtWork := by
  cases l with
  | node l =>
      cases nodeStep_of_step hs with
      | start => exact ⟨by simp, by simp, rfl, fun hpc => absurd rfl hpc⟩
      | beginStop hnode =>
          rw [hnode] at hrunning
          cases hrunning
      | other hl hnode =>
          have hwork := h (Admission.running_of_step hl hnode hrunning)
          exact ⟨hwork.present, hwork.alive, hwork.uncancelled, hwork.generation⟩
  | begin =>
      simp only [step] at hs
      split at hs
      · split at hs <;> cases hs
        rw [running_head] at hrunning
        exact atWork_head hrunning (h hrunning).uncancelled rfl
      · cases hs
  | accepted c =>
      simp only [step] at hs
      split at hs
      · next hpc _ =>
          split at hs <;> cases hs
          unfold State.accept at hrunning ⊢
          split
          · next hlimit =>
              rw [if_pos hlimit] at hrunning
              have hwork := h (Admission.running_accept s.node c ▸ hrunning)
              exact ⟨by simp, by simp, hwork.uncancelled,
                fun _ => hwork.generation (by simp [hpc])⟩
          · next hlimit =>
              rw [if_neg hlimit, running_head] at hrunning
              have hwork := h (Admission.running_accept s.node c ▸ hrunning)
              exact atWork_head hrunning hwork.uncancelled (hwork.generation (by simp [hpc]))
      · cases hs
  | acceptRaises e =>
      simp only [step] at hs
      split at hs
      · next hpc =>
          split at hs <;> cases hs
          have hr : s.node.running = true := by
            cases e <;> exact hrunning
          cases hopen with
          | exception =>
              have hwork := h hr
              exact ⟨by simp [State.acceptRaises], by simp [State.acceptRaises],
                hwork.uncancelled, fun _ => hwork.generation (by simp [hpc])⟩
          | fatal =>
              rw [Contained, hr] at hcontained
              cases hcontained
      · cases hs
  | slept =>
      simp only [step] at hs
      split at hs
      · next hpc =>
          split at hs <;> cases hs
          rw [running_head] at hrunning
          have hwork := h hrunning
          exact atWork_head hrunning hwork.uncancelled (hwork.generation (by simp [hpc]))
      · cases hs
  | closed =>
      simp only [step] at hs
      split at hs
      · next hpc =>
          split at hs <;> cases hs
          rw [running_head] at hrunning
          have hwork := h hrunning
          exact atWork_head hrunning hwork.uncancelled (hwork.generation (by simp [hpc]))
      · cases hs
  | closeRaises e =>
      simp only [step] at hs
      split at hs <;> cases hs
      rw [Contained] at hcontained
      rw [hcontained] at hrunning
      cases hrunning
  | cancelled =>
      simp only [step] at hs
      split at hs
      · next hcancelled =>
          cases hs
          rw [(h hrunning).uncancelled] at hcancelled
          cases hcancelled
      · cases hs

/-- An accepted connection is given to a task or closed before the loop suspends. -/
theorem given_or_closed {c : ℕ} (hs : step cfg s (.accepted c) = some t) :
    t.Given c ∨ t.node.closeCalled c = true := by
  have hhead : ∀ u : State F, u.head.node = u.node := by
    intro u
    unfold State.head
    split <;> rfl
  simp only [step] at hs
  split at hs
  · split at hs <;> cases hs
    unfold State.accept
    by_cases hlimit : cfg.maxConnections ≤ s.node.activeConnectionCount
    · rw [if_pos hlimit]
      simp only [Admission.Node.accept, if_pos hlimit]
      exact Or.inr (Function.update_self ..)
    · rw [if_neg hlimit]
      unfold State.Given
      rw [hhead]
      simp only [Admission.Node.accept, if_neg hlimit]
      exact Or.inl ⟨Function.update_self .., Finset.mem_insert_self ..⟩
  · cases hs

/-- Nobody starts a loop that has ended again before `stop()`. -/
theorem deaf_step {l : Label F} (h : s.Deaf) (hs : step cfg s l = some t) :
    t.calls = s.calls ∧ (t.node.running = true → t.Deaf) := by
  obtain ⟨hr, hpc⟩ := h
  cases l with
  | node l =>
      cases l with
      | start =>
          obtain ⟨node, hnode, -⟩ := Option.map_eq_some_iff.1 hs
          simp only [Admission.step] at hnode
          split at hnode
          · rw [if_pos hr] at hnode
            cases hnode
          · cases hnode
      | _ =>
          cases nodeStep_of_step hs
          all_goals exact ⟨rfl, fun hrunning => ⟨hrunning, hpc⟩⟩
  | cancelled =>
      simp only [step] at hs
      split at hs <;> cases hs
      exact ⟨rfl, fun hrunning => ⟨hrunning, rfl⟩⟩
  | _ => simp [step, hpc] at hs

/-- A failure that is not contained leaves the node deaf. -/
theorem deaf_of_not_contained {l : Label F} (hcontained : ¬ Contained s l)
    (hs : step cfg s l = some t) : t.Deaf := by
  cases l with
  | closeRaises e =>
      have hr : s.node.running = true := by simpa [Contained] using hcontained
      simp only [step] at hs
      split at hs <;> cases hs
      exact ⟨hr, rfl⟩
  | acceptRaises e =>
      cases e with
      | fatal =>
          have hr : s.node.running = true := by simpa [Contained] using hcontained
          simp only [step] at hs
          split at hs
          · split at hs <;> cases hs
            exact ⟨hr, rfl⟩
          · cases hs
      | _ => exact absurd trivial hcontained
  | _ => exact absurd trivial hcontained

/-- **The accept loop of a running node goes on**, in every run in which no `close()` of a
refused connection raises.  Each accepted connection is given to a task or closed in every
run.  The first failure that is not contained leaves the node deaf: it runs, and `accept()`
is not called again before the next `start()`. -/
theorem accept_loop_survives (F : Type) (cfg : Config) :
    (∀ (s t : State F) (c : ℕ), step cfg s (.accepted c) = some t →
      t.Given c ∨ t.node.closeCalled c = true) ∧
    (∀ s, ReachableWhen (system F cfg) (fun s l => ListenerOpen l ∧ Contained s l) s →
      s.node.running = true → s.Accepts cfg) ∧
    (∀ s l t, ReachableWhen (system F cfg) (fun s l => ListenerOpen l ∧ Contained s l) s →
      step cfg s l = some t → ListenerOpen l → ¬ Contained s l → t.Deaf ∧ ¬ t.Accepts cfg) ∧
    ∀ (s t : State F) l, s.Deaf → step cfg s l = some t →
      t.calls = s.calls ∧ (t.node.running = true → t.Deaf) := by
  refine ⟨fun s t c => given_or_closed, fun s hs hrunning => ?_, fun s l t _ hstep _ hnot => ?_,
    fun s t l => deaf_step⟩
  · have hwork : s.node.running = true → s.AtWork := by
      refine hs.invariant (I := fun s => s.node.running = true → s.AtWork) ?_ ?_
      · intro s hs hr
        cases hs
        cases hr
      · intro s l t hinv hG hstep hr
        exact atWork_step hinv hG.1 hG.2 hstep hr
    exact (hwork hrunning).accepts hrunning
  · have hdeaf := deaf_of_not_contained hnot hstep
    refine ⟨hdeaf, ?_⟩
    rintro (hpc | ⟨l, u, -, hu, -, hcalls⟩)
    · rw [hdeaf.2] at hpc
      cases hpc
    · have hsame := (deaf_step hdeaf hu).1
      omega

/-! ## A node that is deaf -/

/-- A node for the sample. -/
def sampleConfig : Config where
  peerId := [1]
  maxConnections := 1
  closesAtOnce := fun _ => true

/-- The second connection is refused, and its `close()` raises. -/
def deafRun : List (Label Unit) :=
  [.node .start, .begin, .accepted 0, .accepted 1, .closeRaises .exception]

/-- A node may run and accept no connection any more. -/
theorem not_accept_loop_survives :
    ¬ ∀ (cfg : Config) (s : State Unit), ReachableWhen (system Unit cfg) (fun _ => ListenerOpen) s →
      s.node.running = true → s.Accepts cfg := by
  intro h
  have hopen : ∀ l ∈ deafRun, State Unit → ListenerOpen l := by
    intro l hl _
    simp only [deafRun, List.mem_cons, List.not_mem_nil, or_false] at hl
    rcases hl with rfl | rfl | rfl | rfl | rfl <;> constructor
  have hdeaf : ReachableWhen (system Unit sampleConfig) (fun _ => ListenerOpen) _ :=
    reachableWhen_of_exec rfl deafRun hopen rfl
  obtain hpc | ⟨l, t, -, hstep, -, hcalls⟩ := h sampleConfig _ hdeaf rfl
  · cases hpc
  · have hsame := (deaf_step ⟨rfl, rfl⟩ hstep).1
    omega

end AcceptLoop
end Core
end Paqto
