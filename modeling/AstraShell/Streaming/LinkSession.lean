import AstraShell.Streaming.LinkContent

/-!
# The link as a numbered exchange

Inside one epoch a link is an instance of the exchange of `Lib.Cumulative`: forgetting the contents
of the states and keeping their generations, `Link.session` is a `Cumulative.Session`, and each move
of the link is a step of it or leaves it alone. When the sender changes the epoch a new session
starts; a client that has not yet received its first keyframe goes on with the session of the epoch
it left, which the sender no longer advances (`Link.Phase.old`).

`Link.Phase` is the invariant that joins the two; `Link.Phase.moves` is its preservation.
-/

set_option autoImplicit false

namespace AstraShell.Streaming

open Lib Lib.Cumulative TerminalState TerminalSync StreamingStateWindow StreamingReplica
  StreamingUpdate

/-- The newest generation of the base's epoch that the window has. -/
def StreamingStateWindow.top (w : StreamingStateWindow) : Nat :=
  match w.latestTarget with
  | none => w.base.generation
  | some t =>
    if t.epoch = w.base.epoch then max w.base.generation t.generation else w.base.generation

/-- The replica's generations, if it is in the epoch. -/
def StreamingReplica.receiverIn (r : StreamingReplica) (epoch : Bytes) :
    Option Cumulative.Receiver :=
  (r.current.filter fun c => c.epoch = epoch).map fun c =>
    ⟨c.generation, r.pinnedBaseGeneration.getD 0, r.retained.support⟩

namespace Link

/-- The generations of the deltas of an epoch. -/
def spans (deltas : List TerminalViewportDatagram) (epoch : Bytes) : Set (ℕ × ℕ) :=
  { p | ∃ d ∈ deltas, ∃ diff, d.diff = some diff ∧ diff.epoch = epoch ∧
    p = (diff.baseGeneration, diff.targetGeneration) }

/-- The generations of the link in the base's epoch. -/
def session (l : Link) : Session where
  base := l.window.base.generation
  top := l.window.top
  acked := l.window.baseAcknowledged
  sent := l.window.sent.support
  deltas := spans l.deltas l.window.base.epoch
  keyframes := (l.keyframes.filter fun k => k.epoch = l.window.base.epoch).map State.generation
  acks := (l.acks.filter fun a => a.epoch = l.window.base.epoch).map TerminalStateAck.generation
  receiver := l.replica.receiverIn l.window.base.epoch

/-- Nothing of the epoch has been sent. -/
structure Unused (l : Link) (epoch : Bytes) : Prop where
  deltas : ∀ d ∈ l.deltas, ∀ diff, d.diff = some diff → diff.epoch ≠ epoch
  shown : ∀ s ∈ l.shown, s.epoch ≠ epoch
  keyframes : ∀ k ∈ l.keyframes, k.epoch ≠ epoch
  retired : epoch ∉ l.window.retiredEpochs

/-- Acknowledgements of the epoch just left come first and are all received before the base is
acknowledged. -/
def InOrder (l : Link) (acks : List TerminalStateAck) : Prop :=
  ∃ olds news, acks = olds ++ news ∧
    (∀ a ∈ olds, a.epoch ≠ l.window.base.epoch ∧
      l.window.retiredEpochs.getLast? = some a.epoch) ∧
    (∀ a ∈ news, a.epoch = l.window.base.epoch) ∧
    (l.window.baseAcknowledged = true → olds = [])

/-- The epochs and the generations on a link. -/
structure Phase (l : Link) : Prop where
  base_not_retired : l.window.base.epoch ∉ l.window.retiredEpochs
  retired_given : ∀ e ∈ l.window.retiredEpochs, ∃ s ∈ l.given, s.epoch = e
  /-- A latest target of another epoch is the first thing of its epoch. -/
  pending : ∀ t, l.window.latestTarget = some t → t.epoch ≠ l.window.base.epoch →
    l.Unused t.epoch
  increasing : l.shown.Pairwise fun newer older =>
    older.epoch = newer.epoch → older.generation < newer.generation
  synced : ∀ c, l.replica.current = some c → c.epoch = l.window.base.epoch →
    ∀ k ∈ l.keyframes, k.epoch = l.window.base.epoch
  /-- A client outside the base's epoch has its keyframe last in the queue, after stale ones. -/
  behind : (∀ c, l.replica.current = some c → c.epoch ≠ l.window.base.epoch) →
    (∀ s ∈ l.shown, s.epoch ≠ l.window.base.epoch) ∧
    ∃ olds, l.keyframes = olds ++ [l.window.base] ∧
      ∀ k ∈ olds, ∃ c, l.replica.current = some c ∧ c.epoch = k.epoch ∧
        k.generation ≤ c.generation
  left : ∀ c, l.replica.current = some c → c.epoch ≠ l.window.base.epoch →
    l.window.retiredEpochs.getLast? = some c.epoch
  acks : l.InOrder l.acks
  started : l.replica.current = none → l.deltas = []
  session : l.session.Inv defaultRetainedGenerations
  /-- The session of the epoch that the client has not yet left. -/
  old : ∀ c, l.replica.current = some c → c.epoch ≠ l.window.base.epoch →
    ∃ s : Session, s.Inv defaultRetainedGenerations ∧ s.deltas = spans l.deltas c.epoch ∧
      s.receiver = l.replica.receiverIn c.epoch

variable {lib : External} {l l' : Link}

/-! ## Reading the session -/

variable {c : State} {r : StreamingReplica}

theorem receiverIn_eq_some (hc : r.current = some c) :
    r.receiverIn c.epoch =
      some ⟨c.generation, r.pinnedBaseGeneration.getD 0, r.retained.support⟩ := by
  simp [receiverIn, hc]

/-- The session's receiver is a client in the base's epoch. -/
theorem session_receiver (hc : l.replica.current = some c) (he : c.epoch = l.window.base.epoch) :
    l.session.receiver = some
      ⟨c.generation, l.replica.pinnedBaseGeneration.getD 0, l.replica.retained.support⟩ := by
  show l.replica.receiverIn l.window.base.epoch = _
  rw [← he]
  exact receiverIn_eq_some hc

/-- What holds of the client's state holds of whatever state it has. -/
theorem forall_current {P : State → Prop} (hc : l.replica.current = some c) (h : P c) :
    ∀ c', l.replica.current = some c' → P c' := by
  intro c' hc'
  cases hc.symm.trans hc'
  exact h

theorem receiverIn_eq_none {epoch : Bytes}
    (h : ∀ c, r.current = some c → c.epoch ≠ epoch) : r.receiverIn epoch = none := by
  cases hc : r.current with
  | none => simp [receiverIn, hc]
  | some c => simp [receiverIn, hc, h c hc]

theorem current_of_receiverIn {epoch : Bytes} {x : Cumulative.Receiver}
    (h : r.receiverIn epoch = some x) : ∃ c, r.current = some c ∧ c.epoch = epoch := by
  by_contra hnone
  rw [receiverIn_eq_none fun c hc he => hnone ⟨c, hc, he⟩] at h
  cases h

variable {d : TerminalViewportDatagram} {tid aid : String} {b t : State}

/-- A delta of the base's epoch is a delta of the session. -/
theorem span_mem (hd : d ∈ l.deltas) (h : compactViewportDatagram tid aid b t = .ok d) :
    (b.generation, t.generation) ∈ spans l.deltas t.epoch := by
  obtain ⟨-, -, -, -, -, diff, hdiff, hepoch, hbase, htarget⟩ := span_of_compact h
  exact ⟨d, hd, diff, hdiff, hepoch, by rw [hbase, htarget]⟩

namespace Phase

/-- A client whose base is acknowledged is in the base's epoch. -/
theorem synced_of_acked (h : Phase l) (hacked : l.window.baseAcknowledged = true) :
    ∃ c, l.replica.current = some c ∧ c.epoch = l.window.base.epoch := by
  obtain ⟨r, hr⟩ := Option.ne_none_iff_exists'.1 (h.session.receiver_ne_none hacked)
  exact current_of_receiverIn hr

/-- When the base is acknowledged, all acknowledgements are of its epoch. -/
theorem acks_of_acked (h : Phase l) (hacked : l.window.baseAcknowledged = true) :
    ∀ a ∈ l.acks, a.epoch = l.window.base.epoch := by
  obtain ⟨olds, news, hacks, -, hnews, holds⟩ := h.acks
  rw [hacks, holds hacked]
  exact hnews

section

variable (h : Phase l) (hc : l.replica.current = some c)

include h hc

/-- What the session says of a client in the base's epoch. -/
theorem receiver_inv (he : c.epoch = l.window.base.epoch) :
    Cumulative.Receiver.Inv defaultRetainedGenerations l.session
      ⟨c.generation, l.replica.pinnedBaseGeneration.getD 0, l.replica.retained.support⟩ :=
  h.session.receiver _ (session_receiver hc he)

/-- The session of the client's epoch. -/
theorem client_session :
    ∃ s : Session, s.Inv defaultRetainedGenerations ∧ s.deltas = spans l.deltas c.epoch ∧
      s.receiver = some
        ⟨c.generation, l.replica.pinnedBaseGeneration.getD 0, l.replica.retained.support⟩ := by
  by_cases he : c.epoch = l.window.base.epoch
  · refine ⟨l.session, h.session, ?_, ?_⟩
    · rw [he]
      rfl
    · exact session_receiver hc he
  · obtain ⟨s, hs, hdeltas, hreceiver⟩ := h.old c hc he
    exact ⟨s, hs, hdeltas, hreceiver.trans (receiverIn_eq_some hc)⟩

/-- A delta that would advance the client finds its base. -/
theorem base_retained (hd : d ∈ l.deltas)
    (hcompact : compactViewportDatagram tid aid b t = .ok d) (hepoch : c.epoch = t.epoch)
    (hlt : c.generation < t.generation) : ∃ s, l.replica.retained.get? b.generation = some s := by
  obtain ⟨s, hs, hdeltas, hreceiver⟩ := h.client_session hc
  have hmem : (b.generation, t.generation) ∈ s.deltas := by
    rw [hdeltas, hepoch]
    exact span_mem hd hcompact
  have hbase := hs.base_mem_retained hreceiver hmem hlt
  exact (OrdMap.mem_support_iff_get? _ _).1 hbase

/-- Outside the base's epoch no acknowledgement is of the base's epoch. -/
theorem acks_of_behind (he : c.epoch ≠ l.window.base.epoch) :
    ∀ a ∈ l.acks, a.epoch ≠ l.window.base.epoch ∧
      l.window.retiredEpochs.getLast? = some a.epoch := by
  have hnone : l.session.receiver = none := receiverIn_eq_none (forall_current hc he)
  have hempty : (l.acks.filter fun a => a.epoch = l.window.base.epoch) = [] :=
    List.map_eq_nil_iff.1 (h.session.fresh hnone).2.2.2
  obtain ⟨olds, news, hacks, holds, hnews, -⟩ := h.acks
  intro a ha
  rw [hacks] at ha
  rcases List.mem_append.1 ha with ha | ha
  · exact holds a ha
  · have hin : a ∈ l.acks.filter fun a => a.epoch = l.window.base.epoch := by
      rw [hacks]
      simp [ha, hnews a ha]
    rw [hempty] at hin
    cases hin

end

end Phase

/-! ## Moves of the client -/

theorem cap_ge_two : 2 ≤ defaultRetainedGenerations := by decide

theorem Content.caps_pos (h : Content lib l) :
    0 < l.window.retainedGenerations ∧ 0 < l.replica.retainedGenerations := by
  rw [h.caps.1, h.caps.2]
  decide

variable {a : TerminalStateAck}

theorem Phase.inOrder_base (h : Phase l) (ha : a.epoch = l.window.base.epoch) :
    InOrder l (l.acks ++ [a]) := by
  obtain ⟨olds, news, hacks, holds, hnews, hacked⟩ := h.acks
  refine ⟨olds, news ++ [a], by rw [hacks, List.append_assoc], holds, ?_, hacked⟩
  intro a' ha'
  rcases List.mem_append.1 ha' with ha' | ha'
  · exact hnews a' ha'
  · rw [List.mem_singleton.1 ha', ha]

/-- An acknowledgement of the client's current state keeps the acknowledgements in order. -/
theorem Phase.acks_append (h : Phase l) (hc : l.replica.current = some c) (ha : a.epoch = c.epoch) :
    InOrder l (l.acks ++ [a]) := by
  by_cases he : c.epoch = l.window.base.epoch
  · exact h.inOrder_base (ha.trans he)
  · refine ⟨l.acks ++ [a], [], (List.append_nil _).symm, ?_,
      nofun, ?_⟩
    · intro a' ha'
      rcases List.mem_append.1 ha' with ha' | ha'
      · exact h.acks_of_behind hc he a' ha'
      · rw [List.mem_singleton.1 ha', ha]
        exact ⟨he, h.left c hc he⟩
    · intro hacked
      obtain ⟨c', hc', he'⟩ := h.synced_of_acked hacked
      rw [hc] at hc'
      cases hc'
      exact absurd he' he

/-- The states shown before the current one of the same epoch are older than it. -/
theorem Phase.shown_le (h : Phase l) (hcontent : Content lib l) (hc : l.replica.current = some c) :
    ∀ s ∈ l.shown, s.epoch = c.epoch → s.generation ≤ c.generation := by
  rw [hcontent.current] at hc
  obtain ⟨rest, hrest⟩ : ∃ rest, l.shown = c :: rest := List.head?_eq_some_iff.1 hc
  have hpair := h.increasing
  rw [hrest] at hpair ⊢
  intro s hs hepoch
  rcases List.mem_cons.1 hs with rfl | hs
  · exact le_rfl
  · exact ((List.pairwise_cons.1 hpair).1 s hs hepoch).le

variable {k : State} {keyframes : List State}

theorem Phase.staleKeyframe (h : Phase l) (hkeyframes : l.keyframes = k :: keyframes)
    (hc : l.replica.current = some c) (hcovers : c.epoch = k.epoch ∧ k.generation ≤ c.generation) :
    Phase { l with keyframes := keyframes, acks := l.acks ++ [⟨c.epoch, c.generation⟩] } := by
  have hsub : ∀ j ∈ keyframes, j ∈ l.keyframes := fun j hj =>
    hkeyframes ▸ List.mem_cons_of_mem _ hj
  exact { h with
    pending := fun t ht hne =>
      { h.pending t ht hne with
        keyframes := fun j hj => (h.pending t ht hne).keyframes j (hsub j hj) }
    synced := fun c' hc' he' j hj => h.synced c' hc' he' j (hsub j hj)
    behind := by
      intro hbehind
      obtain ⟨hshown, olds, holds, hold⟩ := h.behind hbehind
      refine ⟨hshown, ?_⟩
      rw [hkeyframes] at holds
      cases olds with
      | nil =>
        -- The keyframe of the base is not stale for a client outside its epoch.
        obtain ⟨rfl, -⟩ : k = l.window.base ∧ keyframes = [] := by simpa using holds
        exact absurd hcovers.1 (hbehind c hc)
      | cons o olds =>
        obtain ⟨-, hrest⟩ : k = o ∧ keyframes = olds ++ [l.window.base] := by simpa using holds
        exact ⟨olds, hrest, fun j hj => hold j (List.mem_cons_of_mem _ hj)⟩
    acks := h.acks_append hc rfl
    session := by
      by_cases he : c.epoch = l.window.base.epoch
      · have hreceiver := session_receiver hc he
        have hk : k.epoch = l.window.base.epoch := hcovers.1.symm.trans he
        have hqueue : l.session.keyframes = k.generation ::
            (keyframes.filter fun k => k.epoch = l.window.base.epoch).map State.generation := by
          simp [Link.session, hkeyframes, hk]
        have hsession := Session.inv_staleKeyframe h.session hreceiver hqueue
        simpa [Link.session, he] using hsession
      · -- Neither the keyframe nor the acknowledgement is of the base's epoch.
        have hk : k.epoch ≠ l.window.base.epoch := fun hk => he (hcovers.1.trans hk)
        have hsame : Link.session { l with
            keyframes := keyframes, acks := l.acks ++ [⟨c.epoch, c.generation⟩] } = l.session := by
          simp [Link.session, hkeyframes, hk, he]
        rw [hsame]
        exact h.session }

/-- A keyframe that is not stale is of the base's epoch: it is newer than the state of a client in
that epoch, or it is the last one in the queue. -/
theorem Phase.keyframe_cases (h : Phase l) (hkeyframes : l.keyframes = k :: keyframes)
    (hnew : ¬ l.replica.covers k.epoch k.generation) :
    k.epoch = l.window.base.epoch ∧
      ((∃ c, l.replica.current = some c ∧ c.epoch = l.window.base.epoch ∧
          c.generation < k.generation) ∨
        (∀ c, l.replica.current = some c → c.epoch ≠ l.window.base.epoch) ∧ keyframes = []) := by
  by_cases hsynced : ∃ c, l.replica.current = some c ∧ c.epoch = l.window.base.epoch
  · obtain ⟨c, hc, he⟩ := hsynced
    have hk := h.synced c hc he k (hkeyframes ▸ List.mem_cons_self)
    refine ⟨hk, .inl ⟨c, hc, he, ?_⟩⟩
    by_contra hge
    exact hnew ⟨c, hc, he.trans hk.symm, not_lt.1 hge⟩
  · have hbehind : ∀ c, l.replica.current = some c → c.epoch ≠ l.window.base.epoch :=
      fun c hc he => hsynced ⟨c, hc, he⟩
    obtain ⟨-, olds, holds, hold⟩ := h.behind hbehind
    rw [hkeyframes] at holds
    cases olds with
    | nil =>
      obtain ⟨rfl, rfl⟩ : k = l.window.base ∧ keyframes = [] := by simpa using holds
      exact ⟨rfl, .inr ⟨hbehind, rfl⟩⟩
    | cons o olds =>
      obtain ⟨rfl, -⟩ : k = o ∧ keyframes = olds ++ [l.window.base] := by simpa using holds
      obtain ⟨c, hc, hepoch, hle⟩ := hold k List.mem_cons_self
      exact absurd ⟨c, hc, hepoch, hle⟩ hnew

theorem Phase.keyframe (h : Phase l) (hcontent : Content lib l)
    (hkeyframes : l.keyframes = k :: keyframes) (hnew : ¬ l.replica.covers k.epoch k.generation) :
    Phase { l with
      keyframes := keyframes
      replica := l.replica.rebased k
      acks := l.acks ++ [⟨k.epoch, k.generation⟩]
      shown := k :: l.shown } := by
  have hcaps := hcontent.caps_pos.2
  have hsub : ∀ j ∈ keyframes, j ∈ l.keyframes := fun j hj =>
    hkeyframes ▸ List.mem_cons_of_mem _ hj
  obtain ⟨hk, hcases⟩ := h.keyframe_cases hkeyframes hnew
  have hnow : ∀ c, (l.replica.rebased k).current = some c → c.epoch = l.window.base.epoch := by
    intro c hc
    cases hc
    exact hk
  refine { h with
    pending := fun t ht hne =>
      { h.pending t ht hne with
        shown := by
          intro s hs
          rcases List.mem_cons.1 hs with rfl | hs
          · exact fun heq => hne (heq.symm.trans hk)
          · exact (h.pending t ht hne).shown s hs
        keyframes := fun j hj => (h.pending t ht hne).keyframes j (hsub j hj) }
    increasing := ?_
    synced := ?_
    behind := fun hbehind => absurd hk (hbehind k rfl)
    left := fun c hc hne => absurd (hnow c hc) hne
    acks := h.inOrder_base hk
    started := nofun
    session := ?_
    old := fun c hc hne => absurd (hnow c hc) hne }
  · refine List.pairwise_cons.2 ⟨fun s hs hepoch => ?_, h.increasing⟩
    rcases hcases with ⟨c, hc, he, hlt⟩ | ⟨hbehind, -⟩
    · have hle := h.shown_le hcontent hc s hs (hepoch.trans (hk.trans he.symm))
      omega
    · exact absurd (hepoch.trans hk) ((h.behind hbehind).1 s hs)
  · intro _ _ _ j hj
    rcases hcases with ⟨c, hc, he, -⟩ | ⟨-, rfl⟩
    · exact h.synced c hc he j (hsub j hj)
    · cases hj
  · have hacks : (List.filter (fun a => decide (a.epoch = l.window.base.epoch))
        (l.acks ++ [⟨k.epoch, k.generation⟩])).map TerminalStateAck.generation =
          l.session.acks ++ [k.generation] := by
      simp [Link.session, hk]
    have hkeys : l.session.keyframes = k.generation ::
        (keyframes.filter fun k => k.epoch = l.window.base.epoch).map State.generation := by
      simp [Link.session, hkeyframes, hk]
    rcases hcases with ⟨c, hc, he, hlt⟩ | ⟨hbehind, -⟩
    · have hreceiver := session_receiver hc he
      have hother : ¬ l.replica.otherEpoch k.epoch := by
        rintro ⟨c', hc', hne⟩
        rw [Option.mem_def, hc] at hc'
        cases hc'
        exact hne (he.trans hk.symm)
      have hevicts := advance_evicts l.replica k k.generation
        (by rw [hcontent.caps.2]; exact (h.receiver_inv hc he).card_le) hcaps
      rw [hcontent.caps.2, ← rebased_of_not_otherEpoch hother] at hevicts
      have hsession := Session.inv_keyframe h.session hreceiver hkeys hlt hevicts
      have hreceiver' : (l.replica.rebased k).receiverIn l.window.base.epoch = some
          ⟨k.generation, k.generation, (l.replica.rebased k).retained.support⟩ := by
        rw [← hk]
        exact receiverIn_eq_some rfl
      simpa only [Link.session, hacks, hreceiver'] using hsession
    · have hempty : l.replica.otherEpoch k.epoch ∨ l.replica.retained.support = ∅ := by
        cases hc : l.replica.current with
        | some c => exact .inl ⟨c, hc, fun heq => hbehind c hc (heq.trans hk)⟩
        | none =>
          refine .inr (Finset.eq_empty_of_forall_notMem fun j hj => ?_)
          obtain ⟨s, hs⟩ := (OrdMap.mem_support_iff_get? _ _).1 hj
          obtain ⟨-, -, c, hc', -⟩ := hcontent.retained j s hs
          rw [hc] at hc'
          cases hc'
      have hsession := Session.inv_first h.session cap_ge_two
        (receiverIn_eq_none hbehind) hkeys
      have hreceiver' : (l.replica.rebased k).receiverIn l.window.base.epoch = some
          ⟨k.generation, k.generation, {k.generation}⟩ := by
        rw [← hk, receiverIn_eq_some (rebased_current l.replica k), rebased_support hcaps hempty]
        rfl
      simpa only [Link.session, hacks, hreceiver'] using hsession

theorem Phase.delta (h : Phase l) (hcontent : Content lib l) (hd : d ∈ l.deltas)
    (hcompact : compactViewportDatagram tid aid b t = .ok d) (hc : l.replica.current = some c)
    (hepoch : c.epoch = t.epoch) (hlt : c.generation < t.generation)
    (hbase : l.replica.retained.get? b.generation = some b) :
    Phase { l with
      replica := l.replica.advance b.generation t
      acks := l.acks ++ [⟨t.epoch, t.generation⟩]
      shown := t :: l.shown } := by
  have hcaps := hcontent.caps_pos.2
  have hcshown : c ∈ l.shown := List.mem_of_mem_head? (hcontent.current ▸ hc)
  have hmem : b.generation ∈ l.replica.retained.support := OrdMap.mem_support_of_get? hbase
  -- The step of the client's session, whether that is the sender's or the one left behind.
  have hstep : ∀ s : Session, s.Inv defaultRetainedGenerations →
      s.deltas = spans l.deltas c.epoch → s.receiver = some
        ⟨c.generation, l.replica.pinnedBaseGeneration.getD 0, l.replica.retained.support⟩ →
      Session.Inv defaultRetainedGenerations { s with
        acks := s.acks ++ [t.generation]
        receiver := some ⟨t.generation, b.generation,
          (l.replica.advance b.generation t).retained.support⟩ } := by
    intro s hs hdeltas hreceiver
    have hevicts := advance_evicts l.replica t b.generation
      (by rw [hcontent.caps.2]; exact (hs.receiver _ hreceiver).card_le) hcaps
    rw [hcontent.caps.2] at hevicts
    refine Session.inv_delta hs cap_ge_two hreceiver ?_ hlt hmem hevicts
    rw [hdeltas, hepoch]
    exact span_mem hd hcompact
  refine { h with
    pending := fun t' ht' hne =>
      { h.pending t' ht' hne with
        shown := by
          intro s hs
          rcases List.mem_cons.1 hs with rfl | hs
          · exact hepoch ▸ (h.pending t' ht' hne).shown c hcshown
          · exact (h.pending t' ht' hne).shown s hs }
    increasing := ?_
    synced := ?_
    behind := ?_
    left := ?_
    acks := h.acks_append hc hepoch.symm
    started := nofun
    session := ?_
    old := ?_ }
  · refine List.pairwise_cons.2 ⟨fun s hs he => ?_, h.increasing⟩
    have hle := h.shown_le hcontent hc s hs (he.trans hepoch.symm)
    omega
  · intro c' hc' he'
    cases hc'
    exact h.synced c hc (hepoch.trans he')
  · intro hbehind
    have hne : c.epoch ≠ l.window.base.epoch := hepoch ▸ hbehind t rfl
    obtain ⟨hshown, olds, holds, hold⟩ := h.behind (forall_current hc hne)
    refine ⟨fun s hs => ?_, olds, holds, fun k hk => ?_⟩
    · rcases List.mem_cons.1 hs with rfl | hs
      · exact hbehind s rfl
      · exact hshown s hs
    · obtain ⟨c', hc', he', hle⟩ := hold k hk
      rw [hc] at hc'
      cases hc'
      exact ⟨t, rfl, hepoch.symm.trans he', hle.trans hlt.le⟩
  · intro c' hc' hne
    cases hc'
    rw [← hepoch] at hne ⊢
    exact h.left c hc hne
  · by_cases he : c.epoch = l.window.base.epoch
    · have hsession := hstep l.session h.session (by rw [he]; rfl) (session_receiver hc he)
      have hte : t.epoch = l.window.base.epoch := hepoch.symm.trans he
      have hreceiver' : (l.replica.advance b.generation t).receiverIn l.window.base.epoch = some
          ⟨t.generation, b.generation, (l.replica.advance b.generation t).retained.support⟩ := by
        rw [← hte]
        exact receiverIn_eq_some rfl
      simpa [Link.session, hte, hreceiver'] using hsession
    · have hte : t.epoch ≠ l.window.base.epoch := hepoch ▸ he
      have hnone : l.replica.receiverIn l.window.base.epoch = none :=
        receiverIn_eq_none (forall_current hc he)
      have hnone' : (l.replica.advance b.generation t).receiverIn l.window.base.epoch = none :=
        receiverIn_eq_none fun c' hc' => by
          cases hc'
          exact hte
      have hsession := h.session
      simpa [Link.session, hte, hnone, hnone'] using hsession
  · intro c' hc' hne
    cases hc'
    obtain ⟨s, hs, hdeltas, hreceiver⟩ := h.old c hc (hepoch ▸ hne)
    refine ⟨_, hstep s hs hdeltas (hreceiver.trans (receiverIn_eq_some hc)), ?_, ?_⟩
    · rw [← hepoch]
      exact hdeltas
    · exact (receiverIn_eq_some (r := l.replica.advance b.generation t) rfl).symm

/-! ## Acknowledgements -/

variable {w : StreamingStateWindow}

theorem top_of_latestTarget_none (h : w.latestTarget = none) : w.top = w.base.generation := by
  rw [top, h]

/-- What the session of an installed keyframe is made of. -/
theorem session_installed {state : State} (hcaps : 0 < w.retainedGenerations) :
    (w.installed state).base = state ∧ (w.installed state).baseAcknowledged = false ∧
      (w.installed state).top = state.generation ∧
      (w.installed state).sent.support = {state.generation} := by
  refine ⟨rfl, rfl, by simp [top, installed], ?_⟩
  rw [installed_sent hcaps]
  simp

/-- A latest target that the base has reached does not count. -/
theorem top_of_reached
    (h : ∀ t, w.latestTarget = some t → t.epoch = w.base.epoch ∧ t.generation ≤ w.base.generation) :
    w.top = w.base.generation := by
  cases ht : w.latestTarget with
  | none => exact top_of_latestTarget_none ht
  | some t =>
    obtain ⟨hepoch, hle⟩ := h t ht
    rw [top, ht]
    dsimp only
    rw [if_pos hepoch, max_eq_left hle]

/-- The latest target of the window after an acknowledgement of its epoch. -/
theorem top_latestAfterAck (w w' : StreamingStateWindow) (hepoch : a.epoch = w.base.epoch)
    (hbase : w'.base.epoch = w.base.epoch) (hle : w.base.generation ≤ w'.base.generation)
    (hgen : a.generation ≤ w'.base.generation) (hlatest : w'.latestTarget = w.latestAfterAck a) :
    w'.top = max w'.base.generation w.top := by
  cases ht : w.latestTarget with
  | none =>
    have hnone : w'.latestTarget = none := by
      rw [hlatest, latestAfterAck, ht]
      rfl
    rw [top_of_latestTarget_none hnone, top_of_latestTarget_none ht, max_eq_left hle]
  | some t =>
    rw [latestAfterAck, ht, Option.filter_some] at hlatest
    by_cases hte : t.epoch = w.base.epoch
    · have htop : w.top = max w.base.generation t.generation := by
        rw [top, ht]
        exact if_pos hte
      by_cases hreached : t.generation ≤ a.generation
      · rw [if_neg (by simp [hte, hepoch, hreached])] at hlatest
        rw [top_of_latestTarget_none hlatest, htop]
        omega
      · rw [if_pos (by simp [hreached])] at hlatest
        have htop' : w'.top = max w'.base.generation t.generation := by
          rw [top, hlatest]
          exact if_pos (hte.trans hbase.symm)
        rw [htop', htop]
        omega
    · have htop : w.top = w.base.generation := by
        rw [top, ht]
        exact if_neg hte
      rw [if_pos (by simp [hte, hepoch])] at hlatest
      have htop' : w'.top = w'.base.generation := by
        rw [top, hlatest]
        exact if_neg fun h => hte (h.trans hbase)
      rw [htop', htop, max_eq_left hle]

variable {acks : List TerminalStateAck}

/-- The first acknowledgement is of the base's epoch, so all are. -/
theorem Phase.acks_all (h : Phase l) (hacks : l.acks = a :: acks)
    (hepoch : a.epoch = l.window.base.epoch) : ∀ b ∈ acks, b.epoch = l.window.base.epoch := by
  obtain ⟨olds, news, heq, holds, hnews, -⟩ := h.acks
  cases olds with
  | nil =>
    intro b hb
    refine hnews b ?_
    rw [hacks] at heq
    rw [← List.nil_append news, ← heq]
    exact List.mem_cons_of_mem _ hb
  | cons o olds =>
    rw [hacks] at heq
    obtain ⟨rfl, -⟩ : a = o ∧ acks = olds ++ news := by simpa using heq
    exact absurd hepoch (holds a List.mem_cons_self).1

/-- The acknowledgement at the head is the head of the session's queue. -/
theorem session_acks (hacks : l.acks = a :: acks) (hepoch : a.epoch = l.window.base.epoch) :
    l.session.acks = a.generation ::
      (acks.filter fun b => b.epoch = l.window.base.epoch).map TerminalStateAck.generation := by
  simp [Link.session, hacks, hepoch]

variable {window : StreamingStateWindow}

theorem Phase.ack (h : Phase l) (hcontent : Content lib l) (hacks : l.acks = a :: acks)
    (hack : l.window.Acknowledges a window) : Phase { l with window := window, acks := acks } := by
  cases hack with
  | retired hretired =>
    have hne : a.epoch ≠ l.window.base.epoch := fun he =>
      h.base_not_retired (he ▸ hretired)
    refine { h with
      pending := fun t ht hne => { h.pending t ht hne with }
      acks := ?_
      session := ?_ }
    · obtain ⟨olds, news, heq, holds, hnews, hacked⟩ := h.acks
      rw [hacks] at heq
      cases olds with
      | nil =>
        obtain rfl : a :: acks = news := by simpa using heq
        exact absurd (hnews a List.mem_cons_self) hne
      | cons o olds =>
        obtain ⟨-, hrest⟩ : a = o ∧ acks = olds ++ news := by simpa using heq
        exact ⟨olds, news, hrest, fun b hb => holds b (List.mem_cons_of_mem _ hb), hnews,
          fun htrue => by cases hacked htrue⟩
    · have hsession := h.session
      simpa [Link.session, hacks, hne] using hsession
  | old hepoch hgen =>
    have hall := h.acks_all hacks hepoch
    refine { h with
      pending := ?_
      acks := ⟨[], acks, rfl, nofun, hall, fun _ => rfl⟩
      session := ?_ }
    · intro t ht hne
      exact { h.pending t (Option.filter_eq_some_iff.1 ht).1 hne with }
    · have hhead := session_acks hacks hepoch
      have hbase : l.window.base.generation ≤ l.window.top := h.session.base_le_top
      have htop : ∀ acked : Bool, top { l.window with
          baseAcknowledged := acked, latestTarget := l.window.latestAfterAck a } =
            l.window.top := by
        intro acked
        have hmax := top_latestAfterAck l.window { l.window with
          baseAcknowledged := acked, latestTarget := l.window.latestAfterAck a }
          hepoch rfl le_rfl hgen rfl
        exact hmax.trans (max_eq_right hbase)
      by_cases hbasegen : a.generation = l.window.base.generation
      · rw [hbasegen] at hhead
        have hsession := Session.inv_ackBase h.session hhead
        simpa [Link.session, hbasegen, htop] using hsession
      · have hsession := Session.inv_ackIgnored h.session hhead
        simpa [Link.session, hbasegen, htop] using hsession
  | evicted hepoch hsent =>
    have hall := h.acks_all hacks hepoch
    have hhead := session_acks hacks hepoch
    exact { h with
      pending := fun t ht hne => { h.pending t ht hne with }
      acks := ⟨[], acks, rfl, nofun, hall, fun _ => rfl⟩
      session := Session.inv_ackIgnored h.session hhead }
  | advance acknowledged hepoch hgen hsent =>
    obtain ⟨hgiven, hagen, haepoch⟩ := hcontent.sent _ _ hsent
    have hall := h.acks_all hacks hepoch
    have hhead := session_acks hacks hepoch
    obtain ⟨r, hr⟩ := Option.ne_none_iff_exists'.1 (h.session.receiver_ne_none_of_acks hhead)
    obtain ⟨c, hc, hce⟩ := current_of_receiverIn hr
    have hsynced : ∀ c', l.replica.current = some c' → c'.epoch = acknowledged.epoch :=
      forall_current hc (hce.trans haepoch.symm)
    refine { h with
      base_not_retired := haepoch.symm ▸ h.base_not_retired
      pending := ?_
      synced := fun c' hc' _ k hk => (h.synced c hc hce k hk).trans haepoch.symm
      behind := fun hbehind => absurd (hsynced c hc) (hbehind c hc)
      left := fun c' hc' hne => absurd (hsynced c' hc') hne
      acks := ⟨[], acks, rfl, nofun,
        fun b hb => (hall b hb).trans haepoch.symm, fun _ => rfl⟩
      session := ?_
      old := fun c' hc' hne => absurd (hsynced c' hc') hne }
    · intro t ht hne
      exact { h.pending t (Option.filter_eq_some_iff.1 ht).1
        (fun he => hne (he.trans haepoch.symm)) with }
    · have hmem : a.generation ∈ l.session.sent := OrdMap.mem_support_of_get? hsent
      have hsession := Session.inv_ackSent h.session hhead hgen hmem
      have htop := top_latestAfterAck l.window { l.window with
          base := acknowledged
          baseAcknowledged := true
          sent := l.window.sent.retain fun generation => a.generation ≤ generation
          latestTarget := l.window.latestAfterAck a }
        hepoch haepoch (by rw [hagen]; exact hgen.le) hagen.ge rfl
      simpa [Link.session, htop, hagen, haepoch] using hsession

/-! ## Moves of the sender -/

variable {latest : State} {given' : List State}

/-- A state of another epoch that can be sent is the first thing of its epoch. -/
theorem Phase.candidate_unused (h : Phase l) (hcontent : Content lib l) {candidate : Option State}
    (hoffered : Offered lib l window given' candidate)
    (hcandidate : candidate = some latest) (hne : latest.epoch ≠ l.window.base.epoch) :
    l.Unused latest.epoch := by
  cases hoffered with
  | waiting => exact h.pending latest hcandidate hne
  | passed latest' hadm _ _ =>
    cases hcandidate
    by_cases hseen : ∃ s ∈ l.given, s.epoch = latest.epoch
    · -- An epoch that was seen is the one of the newest state, which still waits.
      obtain ⟨n, hn, hlatest | ⟨-, hbase⟩⟩ := hcontent.newest
      · have hepoch := hadm.2 n hn.1 hseen
        rw [← hepoch] at hne ⊢
        exact h.pending n hlatest hne
      · have hepoch := hadm.2 n hn.1 hseen
        exact absurd (hepoch.symm.trans (congrArg _ hbase.symm)) hne
    · exact {
        deltas := by
          intro d hd diff hdiff heq
          obtain ⟨b, t, -, ht, -, hcompact⟩ := hcontent.deltas d hd
          obtain ⟨-, -, -, -, -, diff', hdiff', hepoch, -⟩ := span_of_compact hcompact
          rw [hdiff] at hdiff'
          cases hdiff'
          exact hseen ⟨t, ht, hepoch.symm.trans heq⟩
        shown := fun s hs heq => hseen ⟨s, hcontent.shown s hs, heq⟩
        keyframes := fun k hk heq => hseen ⟨k, hcontent.keyframes k hk, heq⟩
        retired := fun hmem => hseen (h.retired_given _ hmem) }

/-- The generation of a state that is news is not before the top. -/
theorem top_le_of_isNews {state : State} (hnews : w.IsNews state)
    (hepoch : state.epoch = w.base.epoch) :
    w.base.generation < state.generation ∧ w.top ≤ state.generation := by
  obtain ⟨hbase, hlatest⟩ := hnews hepoch
  refine ⟨hbase, ?_⟩
  cases ht : w.latestTarget with
  | none => exact (top_of_latestTarget_none ht).le.trans hbase.le
  | some t =>
    rw [latestGeneration, ht] at hlatest
    rw [top, ht]
    dsimp only
    split
    · exact max_le hbase.le hlatest
    · exact hbase.le

section

variable (h : Phase l)

include h

theorem Phase.withGiven (hmono : ∀ s ∈ l.given, s ∈ given') : Phase { l with given := given' } :=
  { h with
    retired_given := by
      intro e he
      obtain ⟨s, hs, hse⟩ := h.retired_given e he
      exact ⟨s, hmono s hs, hse⟩
    pending := fun t ht hne => { h.pending t ht hne with }
    session := h.session }

theorem Phase.pend (hnews : l.window.IsNews latest) (hacked : l.window.baseAcknowledged = false)
    (hunused : latest.epoch ≠ l.window.base.epoch → l.Unused latest.epoch) :
    Phase { l with window := { l.window with latestTarget := some latest } } := by
  refine { h with
    pending := fun t ht hne => ?_
    session := ?_ }
  · cases ht
    exact { hunused hne with }
  · by_cases he : latest.epoch = l.window.base.epoch
    · obtain ⟨hlt, -⟩ := top_le_of_isNews hnews he
      have hsession := Session.inv_pend h.session hacked hlt.le
      simpa [Link.session, top, he, max_eq_right hlt.le] using hsession
    · have hsession := Session.inv_pend (t := l.window.base.generation) h.session hacked
        le_rfl
      simpa [Link.session, top, he] using hsession

theorem Phase.clear (hreached : ∀ t, l.window.latestTarget = some t →
      t.epoch = l.window.base.epoch ∧ t.generation ≤ l.window.base.generation) :
    Phase { l with window := { l.window with latestTarget := none } } := by
  refine { h with
    pending := fun t ht => by cases ht
    session := ?_ }
  have hsession := h.session
  have htop := top_of_reached hreached
  simpa [Link.session, htop, top_of_latestTarget_none] using hsession

theorem Phase.sendDelta (hcontent : Content lib l) (hnews : l.window.IsNews latest)
    (hacked : l.window.baseAcknowledged = true) (hepoch : latest.epoch = l.window.base.epoch)
    (hcompact : compactViewportDatagram l.window.terminalId l.window.attachmentId l.window.base
      latest = .ok d) :
    Phase { l with window := l.window.remember latest, deltas := d :: l.deltas } := by
  obtain ⟨c, hc, hce⟩ := h.synced_of_acked hacked
  have hsynced : ∀ c', l.replica.current = some c' → c'.epoch = l.window.base.epoch :=
    forall_current hc hce
  obtain ⟨hlt, htop⟩ := top_le_of_isNews hnews hepoch
  obtain ⟨-, -, -, -, -, diff, hdiff, hde, hdb, hdt⟩ := span_of_compact hcompact
  have hspans : spans (d :: l.deltas) l.window.base.epoch = insert
      (l.window.base.generation, latest.generation) (spans l.deltas l.window.base.epoch) := by
    ext p
    constructor
    · rintro ⟨d', hd', diff', hdiff', he', rfl⟩
      rcases List.mem_cons.1 hd' with rfl | hd'
      · rw [hdiff] at hdiff'
        cases hdiff'
        exact .inl (by rw [hdb, hdt])
      · exact .inr ⟨d', hd', diff', hdiff', he', rfl⟩
    · rintro (rfl | ⟨d', hd', hrest⟩)
      · exact ⟨d, List.mem_cons_self, diff, hdiff, hde.trans hepoch, by rw [hdb, hdt]⟩
      · exact ⟨d', List.mem_cons_of_mem _ hd', hrest⟩
  refine { h with
    pending := fun t ht hne => ?_
    acks := h.acks
    started := fun hnone => by rw [hc] at hnone; cases hnone
    session := ?_
    old := fun c' hc' hne => absurd (hsynced c' hc') hne }
  · cases ht
    exact absurd hepoch hne
  · have hevicts := remember_evicts h.session.base_mem
      h.session.base_le_sent (by rw [hcontent.caps.1]; exact h.session.sent_card) hlt
    rw [hcontent.caps.1] at hevicts
    have hsession := Session.inv_emit h.session hacked hlt htop hevicts
    have htop' : (l.window.remember latest).top = latest.generation := by
      simp [top, hepoch, hlt.le]
    rw [Link.session]
    rw [remember_base, htop', hspans]
    exact hsession

theorem Phase.rekey (hcontent : Content lib l) (hnews : l.window.IsNews latest)
    (hacked : l.window.baseAcknowledged = true) (hepoch : latest.epoch = l.window.base.epoch) :
    Phase { l with
      window := l.window.installed latest, keyframes := l.keyframes ++ [latest] } := by
  obtain ⟨c, hc, hce⟩ := h.synced_of_acked hacked
  have hsynced : ∀ c', l.replica.current = some c' → c'.epoch = latest.epoch :=
    forall_current hc (hce.trans hepoch.symm)
  have hretired := installed_retiredEpochs_of_eq hepoch.symm
  obtain ⟨hlt, htop⟩ := top_le_of_isNews hnews hepoch
  have hcaps := hcontent.caps_pos.1
  refine { h with
    base_not_retired := ?_
    retired_given := ?_
    pending := fun t ht hne => ?_
    synced := fun c' hc' _ k hk => ?_
    behind := fun hbehind => absurd (hsynced c hc) (hbehind c hc)
    left := fun c' hc' hne => absurd (hsynced c' hc') hne
    acks := ⟨[], l.acks, rfl, nofun, fun a ha => (h.acks_of_acked hacked a ha).trans hepoch.symm,
      fun _ => rfl⟩
    session := ?_
    old := fun c' hc' hne => absurd (hsynced c' hc') hne }
  · show latest.epoch ∉ (l.window.installed latest).retiredEpochs
    rw [hretired, hepoch]
    exact h.base_not_retired
  · show ∀ e ∈ (l.window.installed latest).retiredEpochs, _
    rw [hretired]
    exact h.retired_given
  · cases ht
    exact absurd rfl hne
  · rcases List.mem_append.1 hk with hk | hk
    · exact (h.synced c hc hce k hk).trans hepoch.symm
    · rw [List.mem_singleton.1 hk]
      rfl
  · have hsession := Session.inv_rekey h.session cap_ge_two hacked hlt htop
    simpa [Link.session, session_installed hcaps, hepoch] using hsession

theorem Phase.newEpoch (hcontent : Content lib l) (hacked : l.window.baseAcknowledged = true)
    (hepoch : latest.epoch ≠ l.window.base.epoch) (hunused : l.Unused latest.epoch) :
    Phase { l with
      window := l.window.installed latest, keyframes := l.keyframes ++ [latest] } := by
  obtain ⟨c, hc, hce⟩ := h.synced_of_acked hacked
  have hcurrent : ∀ c', l.replica.current = some c' → c' = c := forall_current hc rfl
  have hleft : ∀ c', l.replica.current = some c' → c'.epoch ≠ latest.epoch := by
    intro c' hc' heq
    rw [hcurrent c' hc'] at heq
    exact hepoch (heq.symm.trans hce)
  have hcaps := hcontent.caps_pos.1
  have hlast : (l.window.installed latest).retiredEpochs.getLast? = some l.window.base.epoch :=
    getLast?_installed_retiredEpochs hepoch.symm
  have hinv := h.receiver_inv hc hce
  have hkeyframe_le : ∀ k ∈ l.keyframes, k.epoch = c.epoch ∧ k.generation ≤ c.generation := by
    intro k hk
    have hke := h.synced c hc hce k hk
    have hmem : k.generation ∈ l.session.keyframes :=
      List.mem_map.2 ⟨k, List.mem_filter.2 ⟨hk, by simp [hke]⟩, rfl⟩
    exact ⟨hke.trans hce.symm,
      (h.session.keyframe_le _ hmem).trans (hinv.base_le_current hacked)⟩
  have hacks := h.acks_of_acked hacked
  refine { h with
    base_not_retired := ?_
    retired_given := ?_
    pending := fun t ht hne => ?_
    synced := fun c' hc' he' => absurd he' (hleft c' hc')
    behind := fun _ => ⟨hunused.shown, l.keyframes, rfl, fun k hk => ?_⟩
    left := fun c' hc' _ => ?_
    acks := ⟨l.acks, [], (List.append_nil _).symm, fun a ha => ⟨?_, ?_⟩, nofun, nofun⟩
    session := ?_
    old := fun c' hc' _ => ⟨l.session, h.session, ?_, ?_⟩ }
  · intro hmem
    rcases installed_retiredEpochs_subset hmem with hmem | heq
    · exact hunused.retired hmem
    · exact hepoch heq
  · intro e he
    rcases installed_retiredEpochs_subset he with he | rfl
    · exact h.retired_given e he
    · exact ⟨_, hcontent.base, rfl⟩
  · cases ht
    exact absurd rfl hne
  · obtain ⟨hke, hle⟩ := hkeyframe_le k hk
    exact ⟨c, hc, hke.symm, hle⟩
  · show (l.window.installed latest).retiredEpochs.getLast? = _
    rw [hlast, hcurrent c' hc', hce]
  · exact fun heq => hepoch (heq.symm.trans (hacks a ha))
  · show (l.window.installed latest).retiredEpochs.getLast? = _
    rw [hlast, hacks a ha]
  · have hsession := Session.inv_start cap_ge_two latest.generation
    have hspans : spans l.deltas latest.epoch = ∅ := by
      refine Set.eq_empty_of_forall_notMem ?_
      rintro p ⟨d, hd, diff, hdiff, he, -⟩
      exact hunused.deltas d hd diff hdiff he
    have hkeys : (l.keyframes ++ [latest]).filter (fun k => decide (k.epoch = latest.epoch)) =
        [latest] := by
      rw [List.filter_append, List.filter_eq_nil_iff.2 fun k hk => by
        simpa using hunused.keyframes k hk]
      simp
    have hacks' : l.acks.filter (fun a => decide (a.epoch = latest.epoch)) = [] := by
      refine List.filter_eq_nil_iff.2 fun a ha => ?_
      simpa [hacks a ha] using hepoch.symm
    have hnone : l.replica.receiverIn latest.epoch = none := receiverIn_eq_none hleft
    simpa [Link.session, Session.start, session_installed hcaps, hspans, hkeys, hacks',
      hnone] using hsession
  · rw [hcurrent c' hc', hce]
    rfl
  · rw [hcurrent c' hc', hce]
    rfl

theorem Phase.resend (hacked : l.window.baseAcknowledged = true)
    (hreached : ∀ t, l.window.latestTarget = some t →
      t.epoch = l.window.base.epoch ∧ t.generation ≤ l.window.base.generation) :
    Phase { l with
      window := { l.window with latestTarget := none, baseAcknowledged := false }
      keyframes := l.keyframes ++ [l.window.base] } := by
  obtain ⟨c, hc, hce⟩ := h.synced_of_acked hacked
  have hsynced : ∀ c', l.replica.current = some c' → c'.epoch = l.window.base.epoch :=
    forall_current hc hce
  refine { h with
    pending := fun t ht => by cases ht
    synced := fun c' hc' he' k hk => ?_
    behind := fun hbehind => absurd (hsynced c hc) (hbehind c hc)
    acks := ⟨[], l.acks, rfl, nofun, h.acks_of_acked hacked, fun _ => rfl⟩
    session := ?_ }
  · rcases List.mem_append.1 hk with hk | hk
    · exact h.synced c' hc' he' k hk
    · rw [List.mem_singleton.1 hk]
  · have htop := top_of_reached hreached
    have hsession := Session.inv_resend h.session hacked htop
    simpa [Link.session, htop, top_of_latestTarget_none] using hsession

theorem Phase.sender (hcontent : Content lib l) {update : Option StreamingUpdate}
    (hstep : SenderStep lib l given' update window) :
    Phase (emit { l with given := given' } update window) := by
  have hmono := hstep.given_mono
  obtain ⟨candidate, hsends, hoffered⟩ := hstep
  cases hsends with
  | unchanged => simpa [emit] using h.withGiven hmono
  | pend latest hcandidate hnews hacked =>
    have hphase := h.pend hnews hacked (h.candidate_unused hcontent hoffered hcandidate)
    simpa [emit] using hphase.withGiven hmono
  | clear latest hlatest hreached =>
    have hphase := h.clear fun t ht => by
      rw [hlatest] at ht
      cases ht
      exact hreached
    simpa [emit] using hphase.withGiven hmono
  | delta latest u d hcandidate hnews hacked hepoch hgeometry hcompact hupdate =>
    have hphase := h.sendDelta hcontent hnews hacked hepoch hcompact
    have hkeyframe : u.keyframe? = none := by
      cases u <;> simp_all [keyframe?, delta?]
    simpa [emit, hupdate, hkeyframe] using hphase.withGiven hmono
  | keyframe latest hcandidate hnews hacked hvalid =>
    by_cases hepoch : latest.epoch = l.window.base.epoch
    · have hphase := h.rekey hcontent hnews hacked hepoch
      simpa [emit, keyframe?, delta?] using hphase.withGiven hmono
    · have hphase := h.newEpoch hcontent hacked hepoch
        (h.candidate_unused hcontent hoffered hcandidate hepoch)
      simpa [emit, keyframe?, delta?] using hphase.withGiven hmono
  | resend hacked hreached =>
    have hphase := h.resend hacked hreached
    simpa [emit, keyframe?, delta?] using hphase.withGiven hmono

/-- The phase is kept in every step. -/
theorem Phase.moves (hcontent : Content lib l) (hmove : Moves lib l l') : Phase l' := by
  cases hmove with
  | sender given' update window hstep => exact h.sender hcontent hstep
  | staleKeyframe k keyframes c hkeyframes hc hcovers =>
    exact h.staleKeyframe hkeyframes hc hcovers
  | keyframe k keyframes hkeyframes hnew => exact h.keyframe hcontent hkeyframes hnew
  | ignored => exact h
  | delta d b t c hd ht hcompact hc hepoch hlt hbase =>
    exact h.delta hcontent hd hcompact hc hepoch hlt hbase
  | ack a acks window hacks hack => exact h.ack hcontent hacks hack

end

end Link

end AstraShell.Streaming
