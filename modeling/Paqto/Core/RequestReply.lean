/-
# Request/reply correlation

A `request()` that returns has the reply to its own message, read from the
connection and the peer it was registered for; a reply completes one request at
most and reaches no handler; the table of pending requests is bounded; and a
call that ends takes its own entry with it and no other
(`request_reply_exact`).
-/

import Paqto.Core.MessagingSteps

namespace Paqto
namespace Core
namespace Messaging

open Transition Python Correlation

variable {F P : Type} [PyFloat F]
variable {cfg : Config F P} {s t : Node F P} {c k r : ℕ}

/-- What the correlation of requests and replies guarantees in a state. -/
structure Node.Correlated (cfg : Config F P) (s : Node F P) : Prop where
  replies : ∀ k call target reply, s.calls k = some call → call.args.kind = .request target →
    call.pc = .returned reply → ∃ r receipt, reply = some r ∧ s.receipts r = some receipt ∧
      receipt.message.replyTo = .str (cfg.messageId k) ∧
      call.connection = some receipt.connection ∧ receipt.session.peerId = target ∧
      receipt.message.sender = .str target
  once : ∀ k k' call call' target target' r, s.calls k = some call → s.calls k' = some call' →
    call.args.kind = .request target → call'.args.kind = .request target' →
    call.pc = .returned (some r) → call'.pc = .returned (some r) → k = k'
  handlers : ∀ r ∈ s.handled, ∃ receipt, s.receipts r = some receipt ∧
    receipt.message.replyTo = .none
  bounded : s.requests.entries.length ≤ cfg.maxPendingRequests
  cleared : ∀ k call, s.calls k = some call → call.pc.isEnded = true →
    ∀ e ∈ s.requests.entries, e.key ≠ cfg.messageId k

/-- A step that ends a call keeps the entries of the other calls. -/
def EndsKeepOthers (s t : Node F P) : Prop :=
  ∀ k call', t.calls k = some call' → call'.pc.isEnded = true →
    (∀ call, s.calls k = some call → call.pc.isEnded = false) →
    ∀ e ∈ s.requests.entries, e.owner ≠ k → e ∈ t.requests.entries

/-- What the invariant says of the correlations. -/
theorem correlated_of_inv {E : Evidence} (h : Inv cfg E none s) : s.Correlated cfg where
  replies k call target reply hk hkind hpc := by
    obtain ⟨r, rfl, receipt, hr, _, hreply, hconn, hkind'⟩ :=
      (h.calls k call hk).returned target reply hkind hpc
    obtain rfl : target = receipt.session.peerId := by
      rw [hkind] at hkind'
      cases hkind'
      rfl
    exact ⟨r, receipt, rfl, hr, hreply, hconn, rfl, (h.receipts r receipt hr).sender⟩
  once k k' call call' target target' r hk hk' hkind hkind' hpc hpc' := by
    obtain ⟨i, hi, receipt, hr, hout, _⟩ := (h.calls k call hk).returned target _ hkind hpc
    obtain ⟨i', hi', receipt', hr', hout', _⟩ :=
      (h.calls k' call' hk').returned target' _ hkind' hpc'
    cases hi
    cases hi'
    rw [hr] at hr'
    cases hr'
    rw [hout] at hout'
    cases hout'
    rfl
  handlers r hr := by
    obtain ⟨receipt, hfound, _, hreply⟩ := h.handled r hr
    exact ⟨receipt, hfound, hreply⟩
  bounded := h.requests.bound
  cleared k call hk hend e he hkey := by
    obtain ⟨hentry, _⟩ := h.requests.entry e he
    obtain ⟨found, hfound, hlive, _⟩ := hentry.2
    rw [(Inv.owner_iff hentry).2 hkey, hk] at hfound
    cases hfound
    rw [hend] at hlive
    cases hlive

/-- **The end of a call keeps the others.** -/
theorem ends_keep_others {E : Evidence} (h : Inv cfg E none s) {l : Label P}
    (hs : step cfg s l = some t) : EndsKeepOthers s t := by
  intro k call' hk' hend hlive e he howner
  have hold : s.calls k = some call' → e ∈ t.requests.entries := by
    intro hk
    have := hlive call' hk
    rw [hend] at this
    cases this
  rcases step_effect hs with hreader | ⟨c, session, r, frame, receipt, _, _, rfl⟩ | ⟨i, hcall⟩ |
    ⟨args, rfl⟩
  · exact hold (hreader.calls ▸ hk')
  · exact hold hk'
  · by_cases hki : k = i
    · subst hki
      refine hcall.entries e he fun hkey => howner ?_
      exact (Inv.owner_iff (h.requests.entry e he).1).2 hkey
    · exact hold (hcall.calls k hki ▸ hk')
  · exact he

/-- **Request/reply correlation is exact** in every run of a node, whatever the
remote ends send, whichever connections are lost and whenever calls are
cancelled or time out. -/
theorem request_reply_exact (cfg : Config F P) :
    (∀ s, Reachable (system cfg) s → s.Correlated cfg) ∧
      ∀ s l t, Reachable (system cfg) s → step cfg s l = some t → EndsKeepOthers s t :=
  ⟨fun _ h => correlated_of_inv (inv_of_reachable h),
    fun _ _ _ h hs => ends_keep_others (inv_of_reachable h) hs⟩

end Messaging
end Core
end Paqto
