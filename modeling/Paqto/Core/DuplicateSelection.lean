/-
# Duplicate selection as a fold

`_select_ready_connection` run over any sequence of connections, on the tables of a node.
The canonical connection of a peer is the first one of the preferred direction, or the
first one (`FirstPreferred` for any type), and every other one has been returned as the
loser once (`duplicate_selection`).
-/

import Mathlib.Data.List.Induction
import Mathlib.Data.List.Lex
import Paqto.Core.NodeTablesConsistent

namespace Paqto
namespace Core

open Python

/-! ## The first preferred element -/

section FirstPreferred

variable {α : Type} (preferred : α → Bool)

/-- The first preferred element of a list, or its first one. -/
def firstPreferred (l : List α) : Option α := (l.find? preferred).or l.head?

variable {preferred} {l l' : List α} {a w : α}

/-- Only of nothing there is none. -/
theorem firstPreferred_eq_none : firstPreferred preferred l = none ↔ l = [] := by
  cases l <;> simp [firstPreferred]

/-- It is one of them. -/
theorem mem_of_firstPreferred (h : firstPreferred preferred l = some w) : w ∈ l := by
  rcases Option.or_eq_some_iff.1 h with hfind | ⟨-, hhead⟩
  · exact List.mem_of_find?_eq_some hfind
  · exact List.mem_of_mem_head? hhead

/-- The winner is preferred if any element is. -/
theorem firstPreferred_of_find (h : firstPreferred preferred l = some w) :
    if preferred w then l.find? preferred = some w else l.find? preferred = none := by
  rcases Option.or_eq_some_iff.1 h with hfind | ⟨hnone, hhead⟩
  · rw [if_pos (List.find?_some hfind)]
    exact hfind
  · have hw : ¬ preferred w = true := List.find?_eq_none.1 hnone w (List.mem_of_mem_head? hhead)
    rw [if_neg hw]
    exact hnone

/-- **One more element**: it wins as the first one, or when it is preferred and the winner is
not. -/
theorem firstPreferred_concat (h : firstPreferred preferred l = some w) :
    firstPreferred preferred (l ++ [a]) =
      if preferred a ∧ ¬ preferred w then some a else some w := by
  have hfind := firstPreferred_of_find h
  have hl : l ≠ [] := fun hl => by
    rw [firstPreferred_eq_none.2 hl] at h
    cases h
  have hhead : (l ++ [a]).head? = l.head? := by
    rw [List.head?_append_of_ne_nil l hl]
  unfold firstPreferred at h ⊢
  rw [List.find?_append, hhead]
  split at hfind <;> rename_i hw
  · rw [hfind, if_neg (fun hn => hn.2 hw)]
    rfl
  · rw [hfind] at h ⊢
    by_cases ha : preferred a = true
    · simp [ha, hw]
    · simpa [ha] using h

/-- The only one is chosen. -/
theorem firstPreferred_singleton (a : α) : firstPreferred preferred [a] = some a := by
  by_cases ha : preferred a = true
  · simp [firstPreferred, ha]
  · simp [firstPreferred, ha]

/-- **Exactly one preferred element wins in any order.** -/
theorem firstPreferred_perm (h : l.Perm l') (hone : (l.filter preferred).length = 1) :
    firstPreferred preferred l = firstPreferred preferred l' := by
  obtain ⟨w, hw⟩ := List.length_eq_one_iff.1 hone
  have hw' : l'.filter preferred = [w] :=
    List.perm_singleton.1 ((h.filter preferred).symm.trans (by rw [hw]))
  have hfind : ∀ m : List α, m.filter preferred = [w] → firstPreferred preferred m = some w := by
    intro m hm
    rw [firstPreferred, ← List.head?_filter, hm]
    rfl
  rw [hfind l hw, hfind l' hw']

end FirstPreferred

namespace NodeTables

variable {F : Type} {peerId : Str}

/-! ## The calls -/

/-- The arguments of a call of `_select_ready_connection`; `key` is `id(connection)`. -/
structure Call (F : Type) where
  connection : ℕ
  key : ℕ
  session : ProtocolSession F
  direction : Direction

/-- The calls one after the other, with what they return. -/
def selectAll (peerId : Str) (isClosed : ℕ → Bool) (s : NodeTables F) :
    List (Call F) → Except SelectError (NodeTables F × List SessionTables.Selection)
  | [] => .ok (s, [])
  | call :: calls => do
      let (t, selection) ← s.selectReadyConnection peerId isClosed call.key call.connection
        call.session call.direction
      let (u, selections) ← selectAll peerId isClosed t calls
      return (u, selection :: selections)

/-- Distinct connections that stay open, of remote peers; they are alive, so that their
addresses differ too. -/
structure Fresh (peerId : Str) (ids : Dict ℕ ℕ) (isClosed : ℕ → Bool) (calls : List (Call F)) :
    Prop where
  connections : (calls.map (·.connection)).Nodup
  keys : (calls.map (·.key)).Nodup
  ids : ∀ call ∈ calls, ids.get? call.connection = some call.key
  isOpen : ∀ call ∈ calls, isClosed call.connection = false
  remote : ∀ call ∈ calls, call.session.peerId ≠ peerId

/-- The call has the direction that the node prefers with the peer. -/
def Call.isPreferred (peerId p : Str) (call : Call F) : Bool :=
  call.direction = SessionTables.preferredDirection peerId p

/-- The calls for the peer `p`. -/
def ofPeer (p : Str) (calls : List (Call F)) : List (Call F) :=
  calls.filter fun call => call.session.peerId = p

/-- The first call of the preferred direction for `p`, or the first one. -/
def winner (peerId p : Str) (calls : List (Call F)) : Option (Call F) :=
  firstPreferred (Call.isPreferred peerId p) (ofPeer p calls)

variable {calls done : List (Call F)} {call w : Call F} {p q : Str}

/-- The winner is a call of the peer. -/
theorem mem_of_winner (h : winner peerId p calls = some w) : w ∈ calls ∧ w.session.peerId = p := by
  have hmem := mem_of_firstPreferred h
  simp only [ofPeer, List.mem_filter, decide_eq_true_eq] at hmem
  exact hmem

/-- The calls of a peer, with one more call. -/
theorem ofPeer_concat (p : Str) (done : List (Call F)) (call : Call F) :
    ofPeer p (done ++ [call]) =
      if call.session.peerId = p then ofPeer p done ++ [call] else ofPeer p done := by
  rw [ofPeer, List.filter_append]
  split
  · rename_i hp
    simp [ofPeer, hp]
  · rename_i hp
    simp [ofPeer, hp]

/-- The calls of other peers do not matter. -/
theorem winner_concat_ne (h : call.session.peerId ≠ p) :
    winner peerId p (done ++ [call]) = winner peerId p done := by
  rw [winner, ofPeer_concat, if_neg h, winner]

/-- The first call of a peer wins. -/
theorem winner_concat_none (h : winner peerId call.session.peerId done = none) :
    winner peerId call.session.peerId (done ++ [call]) = some call := by
  have hnil := firstPreferred_eq_none.1 h
  rw [winner, ofPeer_concat, if_pos rfl, hnil]
  exact firstPreferred_singleton call

/-- A later one wins when only it is preferred. -/
theorem winner_concat_some (h : winner peerId call.session.peerId done = some w) :
    winner peerId call.session.peerId (done ++ [call]) =
      if call.isPreferred peerId call.session.peerId ∧ ¬ w.isPreferred peerId call.session.peerId
      then some call else some w := by
  rw [winner, ofPeer_concat, if_pos rfl]
  exact firstPreferred_concat h

/-! ## The tables after a sequence of calls -/

/-- What the three tables have under a key. -/
structure Entry (s : NodeTables F) (key : ℕ) (call : Option (Call F)) : Prop where
  sessions : s.sessions.get? key = call.map (·.session)
  sessionConnections : s.sessionConnections.get? key = call.map (·.connection)
  sessionDirections : s.sessionDirections.get? key = call.map (·.direction)

/-- `_register_session` with the arguments of the call. -/
def register (s : NodeTables F) (call : Call F) : NodeTables F :=
  s.registerSession call.key call.connection call.session call.direction

variable {s t : NodeTables F} {key : ℕ} {o : Option (Call F)} {isClosed : ℕ → Bool}
  {ids : Dict ℕ ℕ}

/-- What is registered is there. -/
theorem entry_register_self (s : NodeTables F) (call : Call F) :
    (s.register call).Entry call.key (some call) := by
  constructor
  · exact (Dict.get?_set ..).trans (if_pos rfl)
  · exact (Dict.get?_set ..).trans (if_pos rfl)
  · exact (Dict.get?_set ..).trans (if_pos rfl)

/-- Other entries stay. -/
theorem Entry.register (h : s.Entry key o) (hkey : key ≠ call.key) :
    (s.register call).Entry key o := by
  constructor
  · exact ((Dict.get?_set ..).trans (if_neg hkey)).trans h.sessions
  · exact ((Dict.get?_set ..).trans (if_neg hkey)).trans h.sessionConnections
  · exact ((Dict.get?_set ..).trans (if_neg hkey)).trans h.sessionDirections

/-- What is deactivated is gone. -/
theorem entry_deactivateSession_self (s : NodeTables F) (key c : ℕ) :
    (s.deactivateSession key c).Entry key none := by
  constructor
  · rw [deactivateSession_sessions, Dict.get?_erase, if_pos rfl]
    rfl
  · rw [deactivateSession_sessionConnections, Dict.get?_erase, if_pos rfl]
    rfl
  · rw [deactivateSession_sessionDirections, Dict.get?_erase, if_pos rfl]
    rfl

/-- Other entries stay. -/
theorem Entry.deactivateSession (h : s.Entry key o) {key' c : ℕ} (hkey : key ≠ key') :
    (s.deactivateSession key' c).Entry key o := by
  constructor
  · rw [deactivateSession_sessions, Dict.get?_erase, if_neg hkey]
    exact h.sessions
  · rw [deactivateSession_sessionConnections, Dict.get?_erase, if_neg hkey]
    exact h.sessionConnections
  · rw [deactivateSession_sessionDirections, Dict.get?_erase, if_neg hkey]
    exact h.sessionDirections

/-- The canonical connection of each peer. -/
theorem get?_peerConnections_register (s : NodeTables F) (call : Call F) (q : Str) :
    (s.register call).peerConnections.get? q =
      if q = call.session.peerId then some call.connection else s.peerConnections.get? q :=
  Dict.get?_set ..

/-- The canonical connection goes with its session. -/
theorem get?_peerConnections_deactivateSession (h : s.Entry w.key (some w))
    (hpeer : s.peerConnections.get? w.session.peerId = some w.connection) (q : Str) :
    (s.deactivateSession w.key w.connection).peerConnections.get? q =
      if q = w.session.peerId then none else s.peerConnections.get? q := by
  have hs : s.sessions.get? w.key = some w.session := h.sessions
  simp only [deactivateSession, hs, hpeer, if_true]
  exact Dict.get?_erase ..

/-- The tables after the calls `done`: the winner of each peer, and nothing else. -/
structure Folded (peerId : Str) (ids : Dict ℕ ℕ) (done : List (Call F)) (s : NodeTables F) :
    Prop where
  ids : s.ids = ids
  canonical : ∀ p, s.peerConnections.get? p = (winner peerId p done).map (·.connection)
  held : ∀ p w, winner peerId p done = some w → s.Entry w.key (some w)
  rest : ∀ key, (∀ p w, winner peerId p done = some w → w.key ≠ key) → s.Entry key none

/-- No call yet. -/
theorem folded_nil : Folded peerId ids [] { (initial : NodeTables F) with ids } where
  ids := rfl
  canonical _ := rfl
  held _ _ h := by cases h
  rest _ _ := ⟨rfl, rfl, rfl⟩

/-- The call wins its peer, and the winners of the others stay. -/
theorem Folded.won (h : Folded peerId ids done s) (hkeys : ((done ++ [call]).map (·.key)).Nodup)
    (hcall : winner peerId call.session.peerId (done ++ [call]) = some call)
    (hids : t.ids = ids)
    (hpeers : ∀ q, q ≠ call.session.peerId →
      t.peerConnections.get? q = s.peerConnections.get? q)
    (hentries : ∀ q w, q ≠ call.session.peerId → winner peerId q done = some w →
      t.Entry w.key (some w))
    (hrest : ∀ key, (∀ q w, q ≠ call.session.peerId → winner peerId q done = some w →
      w.key ≠ key) → t.Entry key none) : Folded peerId ids (done ++ [call]) (t.register call) := by
  have hsame : ∀ q, q ≠ call.session.peerId →
      winner peerId q (done ++ [call]) = winner peerId q done :=
    fun q hq => winner_concat_ne hq.symm
  have hnew : ∀ w ∈ done, w.key ≠ call.key := by
    intro w hw heq
    rw [List.map_append, List.nodup_append] at hkeys
    exact hkeys.2.2 w.key (List.mem_map_of_mem hw) call.key (by simp) heq
  refine ⟨hids, fun q => ?_, fun q w hw => ?_, fun key hkey => ?_⟩
  · rw [get?_peerConnections_register]
    by_cases hq : q = call.session.peerId
    · rw [if_pos hq, hq, hcall]
      rfl
    · rw [if_neg hq, hpeers q hq, h.canonical, hsame q hq]
  · by_cases hq : q = call.session.peerId
    · rw [hq, hcall] at hw
      obtain rfl := Option.some.inj hw
      exact t.entry_register_self call
    · rw [hsame q hq] at hw
      exact (hentries q w hq hw).register (hnew w (mem_of_winner hw).1)
  · have hcallkey : key ≠ call.key := (hkey _ _ hcall).symm
    refine Entry.register (hrest key fun q w hq hw => ?_) hcallkey
    exact hkey q w ((hsame q hq).trans hw)

/-- The connection of the winner, if there is one. -/
def winning (peerId p : Str) (calls : List (Call F)) : List ℕ :=
  ((winner peerId p calls).map (·.connection)).toList

/-- **What one more call does**: it returns the one of winner and newcomer that does not win. -/
theorem Folded.step (h : Folded peerId ids done s)
    (hfresh : Fresh peerId ids isClosed (done ++ [call])) :
    ∃ t selection, s.selectReadyConnection peerId isClosed call.key call.connection call.session
        call.direction = .ok (t, selection) ∧ Folded peerId ids (done ++ [call]) t ∧
      (winning peerId call.session.peerId (done ++ [call]) ++ selection.loser.toList).Perm
        (winning peerId call.session.peerId done ++ [call.connection]) := by
  have hremote := hfresh.remote call (by simp)
  have hcanonical := h.canonical call.session.peerId
  unfold selectReadyConnection
  rw [if_neg hremote]
  cases hw : winner peerId call.session.peerId done with
  | none =>
      rw [hw, Option.map_none] at hcanonical
      have hcall := winner_concat_none hw
      simp only [openExisting, hcanonical]
      refine ⟨_, _, rfl, ?_, ?_⟩
      · refine h.won hfresh.keys hcall h.ids (fun _ _ => rfl) (fun q w _ => h.held q w)
          fun key hkey => h.rest key fun q w hqw => ?_
        refine hkey q w ?_ hqw
        rintro rfl
        rw [hw] at hqw
        cases hqw
      · simp [winning, hcall, hw]
  | some w =>
      rw [hw, Option.map_some] at hcanonical
      obtain ⟨hmem, hpeer⟩ := mem_of_winner hw
      have hmem' : w ∈ done ++ [call] := List.mem_append_left _ hmem
      have hopen := hfresh.isOpen w hmem'
      have hentry := h.held _ w hw
      have hdirection : s.sessionDirections.get? w.key = some w.direction :=
        hentry.sessionDirections
      have hkey : s.ids.get? w.connection = some w.key := h.ids ▸ hfresh.ids w hmem'
      have hne : w.connection ≠ call.connection := by
        have hnodup := hfresh.connections
        rw [List.map_append, List.nodup_append] at hnodup
        exact hnodup.2.2 _ (List.mem_map_of_mem hmem) _ (by simp)
      have hcall := winner_concat_some hw
      simp only [openExisting, hcanonical, hopen, Bool.false_eq_true, if_false, if_neg hne, hkey,
        Option.bind_some, hdirection, Option.map_some]
      by_cases hreplaced : call.direction =
          SessionTables.preferredDirection peerId call.session.peerId ∧
            w.direction ≠ SessionTables.preferredDirection peerId call.session.peerId
      · rw [if_pos (by simpa [Call.isPreferred] using hreplaced)] at hcall
        rw [if_pos hreplaced]
        have hcanonical' : s.peerConnections.get? w.session.peerId = some w.connection := by
          rw [hpeer]
          exact hcanonical
        refine ⟨_, _, rfl, ?_, ?_⟩
        · refine h.won hfresh.keys hcall (by rw [deactivateSession_ids, h.ids])
            (fun q hq => ?_) (fun q v hq hv => ?_) fun key hkeys => ?_
          · rw [get?_peerConnections_deactivateSession hentry hcanonical', hpeer, if_neg hq]
          · refine (h.held q v hv).deactivateSession fun heq => hq ?_
            -- two calls with one key are one call
            have hnodup := hfresh.keys
            have hvw : v = w := List.inj_on_of_nodup_map hnodup
              (List.mem_append_left _ (mem_of_winner hv).1) hmem' heq
            rw [← (mem_of_winner hv).2, hvw, hpeer]
          · by_cases hkw : key = w.key
            · rw [hkw]
              exact s.entry_deactivateSession_self w.key w.connection
            · refine Entry.deactivateSession (h.rest key fun q v hv => ?_) hkw
              by_cases hq : q = call.session.peerId
              · rw [hq, hw] at hv
                obtain rfl := Option.some.inj hv
                exact fun heq => hkw heq.symm
              · exact hkeys q v hq hv
        · simp only [winning, hcall, hw, Option.map_some, Option.toList_some]
          exact List.Perm.swap _ _ _
      · rw [if_neg (by simpa [Call.isPreferred] using hreplaced)] at hcall
        rw [if_neg hreplaced]
        refine ⟨_, _, rfl, ?_, ?_⟩
        · have hsame : ∀ q, winner peerId q (done ++ [call]) = winner peerId q done := by
            intro q
            by_cases hq : call.session.peerId = q
            · rw [← hq, hcall, hw]
            · exact winner_concat_ne hq
          refine ⟨h.ids, fun q => ?_, fun q v hv => ?_, fun key hkeys => ?_⟩
          · rw [hsame q]
            exact h.canonical q
          · exact h.held q v (hsame q ▸ hv)
          · exact h.rest key fun q v hv => hkeys q v ((hsame q).trans hv)
        · simp [winning, hcall, hw]

/-- An initial part of the calls. -/
theorem Fresh.concat (h : Fresh peerId ids isClosed (done ++ [call])) :
    Fresh peerId ids isClosed done where
  connections := by
    have hnodup := h.connections
    rw [List.map_append, List.nodup_append] at hnodup
    exact hnodup.1
  keys := by
    have hnodup := h.keys
    rw [List.map_append, List.nodup_append] at hnodup
    exact hnodup.1
  ids w hw := h.ids w (List.mem_append_left _ hw)
  isOpen w hw := h.isOpen w (List.mem_append_left _ hw)
  remote w hw := h.remote w (List.mem_append_left _ hw)

/-- One more call. -/
theorem selectAll_concat {u : NodeTables F} {selections : List SessionTables.Selection}
    {selection : SessionTables.Selection}
    (h : selectAll peerId isClosed s done = .ok (t, selections))
    (hcall : t.selectReadyConnection peerId isClosed call.key call.connection call.session
      call.direction = .ok (u, selection)) :
    selectAll peerId isClosed s (done ++ [call]) = .ok (u, selections ++ [selection]) := by
  induction done generalizing s selections with
  | nil =>
      cases h
      simp only [List.nil_append, selectAll, hcall]
      rfl
  | cons first done ih =>
      simp only [selectAll, List.cons_append] at h ⊢
      cases hfirst : s.selectReadyConnection peerId isClosed first.key first.connection
          first.session first.direction with
      | error e =>
          rw [hfirst] at h
          cases h
      | ok r =>
          rw [hfirst] at h
          change (selectAll peerId isClosed r.1 done).bind _ = _ at h
          cases hrest : selectAll peerId isClosed r.1 done with
          | error e =>
              rw [hrest] at h
              cases h
          | ok v =>
              rw [hrest] at h
              cases h
              change (selectAll peerId isClosed r.1 (done ++ [call])).bind _ = _
              rw [ih hrest]
              rfl

/-- The losers among the calls for `p`. -/
def losers (p : Str) (calls : List (Call F)) (selections : List SessionTables.Selection) : List ℕ :=
  ((calls.zip selections).filter fun r => r.1.session.peerId = p).filterMap (·.2.loser)

/-- Its loser, if it has one. -/
theorem losers_concat {selections : List SessionTables.Selection}
    {selection : SessionTables.Selection} (hlength : selections.length = done.length) :
    losers p (done ++ [call]) (selections ++ [selection]) =
      losers p done selections ++
        if call.session.peerId = p then selection.loser.toList else [] := by
  rw [losers, List.zip_append hlength.symm, List.filter_append, List.filterMap_append]
  split
  · rename_i hp
    cases hloser : selection.loser <;> simp [losers, hp, hloser]
  · rename_i hp
    simp [losers, hp]

/-- **The fold.**  The tables have the winner of each peer, and the winner with the losers of
a peer is all of its connections. -/
theorem folded_selectAll (h : Fresh peerId ids isClosed calls) :
    ∃ t selections,
      selectAll peerId isClosed { (initial : NodeTables F) with ids } calls = .ok (t, selections) ∧
      selections.length = calls.length ∧ Folded peerId ids calls t ∧
      ∀ p, (winning peerId p calls ++ losers p calls selections).Perm
        ((ofPeer p calls).map (·.connection)) := by
  induction calls using List.reverseRecOn with
  | nil => exact ⟨_, [], rfl, rfl, folded_nil, fun p => List.Perm.refl _⟩
  | append_singleton done call ih =>
      obtain ⟨s, selections, hs, hlength, hfolded, hperm⟩ := ih h.concat
      obtain ⟨t, selection, ht, hfolded', hstep⟩ := hfolded.step h
      refine ⟨t, selections ++ [selection], selectAll_concat hs ht, by simp [hlength], hfolded',
        fun p => ?_⟩
      rw [losers_concat hlength, ofPeer_concat]
      by_cases hp : call.session.peerId = p
      · rw [if_pos hp, if_pos hp, List.map_append]
        subst hp
        have hmoved : (winning peerId call.session.peerId (done ++ [call]) ++
            (losers call.session.peerId done selections ++ selection.loser.toList)).Perm
              ((winning peerId call.session.peerId (done ++ [call]) ++ selection.loser.toList) ++
                losers call.session.peerId done selections) := by
          rw [List.append_assoc]
          exact List.perm_append_comm.append_left _
        refine hmoved.trans ((hstep.append_right _).trans ?_)
        rw [List.append_assoc]
        refine (List.perm_append_comm.append_left _).trans ?_
        rw [← List.append_assoc]
        exact (hperm call.session.peerId).append_right _
      · rw [if_neg hp, if_neg hp, List.append_nil]
        have hsame : winning peerId p (done ++ [call]) = winning peerId p done := by
          rw [winning, winner_concat_ne hp, winning]
        rw [hsame]
        exact hperm p

/-! ## What the calls decide -/

/-- What stands in the tables after the calls, and what they have returned. -/
structure Decided (peerId : Str) (calls : List (Call F)) (t : NodeTables F)
    (selections : List SessionTables.Selection) : Prop where
  canonical : ∀ p, t.peerConnections.get? p = (winner peerId p calls).map (·.connection)
  /-- The winner and the losers are the connections of the peer, each of them once. -/
  returned : ∀ p, (winning peerId p calls ++ losers p calls selections).Perm
    ((ofPeer p calls).map (·.connection))
  /-- Each key is that of a winner, with what it was called with, or has nothing. -/
  entries : ∀ key, (∃ p w, winner peerId p calls = some w ∧ w.key = key ∧ t.Entry key (some w)) ∨
    t.Entry key none
  /-- One session a peer. -/
  registered : ∀ call ∈ calls, ∃! key, ∃ session, t.sessions.get? key = some session ∧
    session.peerId = call.session.peerId

/-- Each entry is that of a winner, or empty. -/
theorem Folded.entries (h : Folded peerId ids calls t) (key : ℕ) :
    (∃ p w, winner peerId p calls = some w ∧ w.key = key ∧ t.Entry key (some w)) ∨
      t.Entry key none := by
  by_cases hkey : ∃ p w, winner peerId p calls = some w ∧ w.key = key
  · obtain ⟨p, w, hw, rfl⟩ := hkey
    exact Or.inl ⟨p, w, hw, rfl, h.held p w hw⟩
  · refine Or.inr (h.rest key fun p w hw heq => hkey ⟨p, w, hw, heq⟩)

/-- A peer with a call has a winner. -/
theorem exists_winner (hcall : call ∈ calls) : ∃ w, winner peerId call.session.peerId calls = some w := by
  rw [← Option.ne_none_iff_exists', winner, ne_eq, firstPreferred_eq_none]
  refine List.ne_nil_of_mem (a := call) ?_
  simp [ofPeer, hcall]

/-- **Each peer has one session.** -/
theorem Folded.registered (h : Folded peerId ids calls t) (hcall : call ∈ calls) :
    ∃! key, ∃ session, t.sessions.get? key = some session ∧
      session.peerId = call.session.peerId := by
  have hwinner : ∃ w, winner peerId call.session.peerId calls = some w := exists_winner hcall
  obtain ⟨w, hw⟩ := hwinner
  refine ⟨w.key, ⟨w.session, (h.held _ w hw).sessions, (mem_of_winner hw).2⟩, ?_⟩
  rintro key ⟨session, hs, hpeer⟩
  rcases h.entries key with ⟨p, v, hv, rfl, hentry⟩ | hentry
  · obtain rfl := Option.some.inj (hs.symm.trans hentry.sessions)
    rw [(mem_of_winner hv).2] at hpeer
    rw [hpeer, hw] at hv
    rw [Option.some.inj hv]
  · cases hs.symm.trans hentry.sessions

/-- What the tables say when all calls have returned. -/
theorem Folded.decided (h : Folded peerId ids calls t) {selections : List SessionTables.Selection}
    (hreturned : ∀ p, (winning peerId p calls ++ losers p calls selections).Perm
      ((ofPeer p calls).map (·.connection))) : Decided peerId calls t selections :=
  ⟨h.canonical, hreturned, h.entries, fun _ hcall => h.registered hcall⟩

/-- The calls of the preferred direction. -/
def preferredCalls (peerId p : Str) (calls : List (Call F)) : List (Call F) :=
  (ofPeer p calls).filter (Call.isPreferred peerId p)

end NodeTables

/-- The direction at the other end of a connection. -/
def Direction.opposite : Direction → Direction
  | inbound => outbound
  | outbound => inbound

/-- **Two nodes prefer the same physical direction.** -/
theorem SessionTables.preferredDirection_opposite {p q : Str} (h : p ≠ q) :
    preferredDirection q p = (preferredDirection p q).opposite := by
  have horder : p < q ∨ q < p := lt_or_gt_of_ne h
  unfold preferredDirection
  rcases horder with hlt | hlt
  · rw [if_neg (List.lt_asymm hlt), if_pos hlt]
    rfl
  · rw [if_pos hlt, if_neg (List.lt_asymm hlt)]
    rfl

namespace NodeTables

variable {F : Type} {peerId p : Str} {calls calls' : List (Call F)}

/-- What a node knows of the connections to a peer, and what the peer knows of them. -/
def ends (p : Str) (calls : List (Call F)) : List (ℕ × Direction) :=
  (ofPeer p calls).map fun call => (call.connection, call.direction)

/-- The connections of a peer with their directions at the other end. -/
def oppositeEnds (p : Str) (calls : List (Call F)) : List (ℕ × Direction) :=
  (ofPeer p calls).map fun call => (call.connection, call.direction.opposite)

/-- The canonical connection depends on the ends only. -/
theorem winner_connection (peerId p : Str) (calls : List (Call F)) :
    (winner peerId p calls).map (·.connection) =
      (firstPreferred (fun e : ℕ × Direction => decide (e.2 = SessionTables.preferredDirection peerId p))
        (ends p calls)).map Prod.fst := by
  unfold winner firstPreferred ends
  rw [List.find?_map, List.head?_map, ← Option.map_or, Option.map_map]
  rfl

/-- **Both ends choose the same connection.** -/
theorem winner_oppositeEnds (h : p ≠ peerId) (calls : List (Call F)) :
    (winner p peerId calls).map (·.connection) =
      (firstPreferred (fun e : ℕ × Direction => decide (e.2 = SessionTables.preferredDirection peerId p))
        (oppositeEnds peerId calls)).map Prod.fst := by
  have hpreferred : (fun e : ℕ × Direction =>
      decide (e.2 = SessionTables.preferredDirection peerId p)) ∘
        (fun call : Call F => (call.connection, call.direction.opposite)) =
          Call.isPreferred p peerId := by
    funext call
    rw [Call.isPreferred, SessionTables.preferredDirection_opposite h.symm]
    cases hd : call.direction <;>
      cases SessionTables.preferredDirection peerId p <;> simp [hd, Direction.opposite]
  unfold winner firstPreferred oppositeEnds
  rw [List.find?_map, List.head?_map, ← Option.map_or, Option.map_map, hpreferred]
  rfl

/-- The preferred calls are those of preferred ends. -/
theorem length_preferredCalls (peerId p : Str) (calls : List (Call F)) :
    ((ends p calls).filter fun e =>
      decide (e.2 = SessionTables.preferredDirection peerId p)).length =
        (preferredCalls peerId p calls).length := by
  rw [ends, List.filter_map, List.length_map]
  rfl

/-- **Duplicate selection is a deterministic fold.**  Any calls for distinct open connections
leave the first connection of the preferred direction of each peer, or else the first one, as
the canonical one, and return each other one once as the loser.  Calls for other peers do not
matter; nor does the order, if one connection alone has the preferred direction; and then the
two nodes select the same connection, in whatever order they see their ends of them. -/
theorem duplicate_selection {ids : Dict ℕ ℕ} {isClosed : ℕ → Bool}
    (h : Fresh peerId ids isClosed calls) :
    ∃ t selections,
      selectAll peerId isClosed { (initial : NodeTables F) with ids } calls = .ok (t, selections) ∧
      Decided peerId calls t selections ∧
      (∀ p ids' isClosed' calls' t' selections', Fresh peerId ids' isClosed' calls' →
        selectAll peerId isClosed' { (initial : NodeTables F) with ids := ids' } calls' =
          .ok (t', selections') →
        ofPeer p calls' = ofPeer p calls ∨
          calls'.Perm calls ∧ (preferredCalls peerId p calls).length = 1 →
        t'.peerConnections.get? p = t.peerConnections.get? p) ∧
      ∀ p ids' isClosed' calls' t' selections', p ≠ peerId → Fresh p ids' isClosed' calls' →
        selectAll p isClosed' { (initial : NodeTables F) with ids := ids' } calls' =
          .ok (t', selections') →
        (oppositeEnds peerId calls').Perm (ends p calls) →
        (preferredCalls peerId p calls).length = 1 →
        t'.peerConnections.get? peerId = t.peerConnections.get? p := by
  obtain ⟨t, selections, ht, -, hfolded, hreturned⟩ := folded_selectAll h
  refine ⟨t, selections, ht, hfolded.decided hreturned, ?_, ?_⟩
  · intro p ids' isClosed' calls' t' selections' h' ht' hsame
    obtain ⟨_, _, hu, -, hfolded', -⟩ := folded_selectAll h'
    cases hu.symm.trans ht'
    rw [hfolded'.canonical, hfolded.canonical]
    rcases hsame with hsame | ⟨hperm, hone⟩
    · rw [winner, hsame, winner]
    · have horder : (ofPeer p calls).Perm (ofPeer p calls') := (hperm.filter _).symm
      rw [winner, winner, firstPreferred_perm horder hone]
  · intro p ids' isClosed' calls' t' selections' hp h' ht' hperm hone
    obtain ⟨_, _, hu, -, hfolded', -⟩ := folded_selectAll h'
    cases hu.symm.trans ht'
    rw [hfolded'.canonical, hfolded.canonical, winner_oppositeEnds hp, winner_connection]
    rw [← firstPreferred_perm hperm.symm ((length_preferredCalls peerId p calls).trans hone)]

/-- An inbound connection of `b`, and an outbound one, which `a` prefers. -/
def sampleCalls : List (Call Unit) :=
  [⟨0, 7, sampleSession, .inbound⟩, ⟨1, 9, sampleSession, .outbound⟩]

/-- The `id`s of the two. -/
def sampleIds : Dict ℕ ℕ := ⟨[(0, 7), (1, 9)], by decide⟩

/-- The sample has fresh connections. -/
theorem fresh_sampleCalls : Fresh (ofChars ['a']) sampleIds (fun _ => false) sampleCalls where
  connections := by decide
  keys := by decide
  ids := by
    intro call hcall
    simp only [sampleCalls, List.mem_cons, List.not_mem_nil, or_false] at hcall
    rcases hcall with rfl | rfl
    · rfl
    · rfl
  isOpen _ _ := rfl
  remote := by
    intro call hcall
    simp only [sampleCalls, List.mem_cons, List.not_mem_nil, or_false] at hcall
    rcases hcall with rfl | rfl
    · decide
    · decide

/-- Two connections of one peer. -/
theorem duplicate_selection_sample : ∃ (t : NodeTables Unit) (selections : List SessionTables.Selection),
    Decided (ofChars ['a']) sampleCalls t selections ∧
      t.peerConnections.get? (ofChars ['b']) = some 1 := by
  obtain ⟨t, selections, -, hdecided, -⟩ := duplicate_selection fresh_sampleCalls
  exact ⟨t, selections, hdecided, (hdecided.canonical (ofChars ['b'])).trans rfl⟩

end NodeTables

end Core
end Paqto
