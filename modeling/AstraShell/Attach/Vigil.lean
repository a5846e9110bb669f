import AstraShell.Attach.Sync
import AstraShell.Streaming.Convergence

/-!
# A viewer cannot stay behind

`Vigil` is the synchronization state of one attachment at the times `0, 1, 2, …`, while the engine
stands still and its revision is never sent. It assumes that the attachment is awake again and again
and that its branches, its client and the acknowledgements go on. There is no such sequence
(`Vigil.absurd`): an independent attachment sends the revision when it next asks the engine, an
attachment with acknowledgements as soon as nothing is in flight. A streaming attachment may find
its base unacknowledged and keep the viewport for later; when the base is acknowledged it asks
again, and the base stays acknowledged.
-/

set_option autoImplicit false

namespace AstraShell.Attach

open Lib Lib.Temporal TerminalState TerminalSync
  Streaming

namespace Sync

/-- A reliable update is on its way to the client. -/
def undelivered : Sync → Bool
  | .acked exchange _ => !exchange.updates.isEmpty
  | .streaming link _ => !link.keyframes.isEmpty
  | _ => false

/-- An acknowledgement is on its way to the server. -/
def unanswered : Sync → Bool
  | .acked exchange _ => !exchange.acks.isEmpty
  | .streaming link _ => !link.acks.isEmpty
  | _ => false

end Sync

structure Vigil (lib : External) (engine : Engine) (past : List Engine) (sync : ℕ → Sync)
    (sent : ℕ → Revision → Prop) : Prop where
  known : Known lib engine past
  inv : ∀ n, (sync n).Inv lib engine past (sent n)
  unsent : ∀ n, ¬ sent n engine.revision
  moves : ∀ n, ∃ revisions, Sync.Moves lib engine (sync n) revisions (sync (n + 1)) ∧
    engine.revision ∉ revisions
  wakes : ∀ n, ∃ m, n ≤ m ∧ ((sync m).dirty = true ∨ (sync m).Waiting)
  asks : ∀ n, ∃ m, n ≤ m ∧ ((sync m).shouldSend = true →
    ∃ budget revisions, (sync m).update lib engine budget = .ok (revisions, sync (m + 1)))
  delivers : ∀ n, ∃ m, n ≤ m ∧
    ((sync m).undelivered = true → (sync m).deliver lib = .ok (sync (m + 1)))
  acks : ∀ n, ∃ m, n ≤ m ∧ ((sync m).unanswered = true → (sync m).ack lib = .ok (sync (m + 1)))

namespace Vigil

variable {lib : External} {engine : Engine} {past : List Engine} {sync : ℕ → Sync}
  {sent : ℕ → Revision → Prop}

section

variable (h : Vigil lib engine past sync sent)

include h

/-- What every move keeps. -/
theorem kept {I : Sync → Prop} (hstart : I (sync 0))
    (hmove : ∀ {sync₀ sync' revisions}, I sync₀ → Sync.Moves lib engine sync₀ revisions sync' →
      I sync') (n : ℕ) : I (sync n) := by
  induction n with
  | zero => exact hstart
  | succ n ih =>
    obtain ⟨revisions, hmoves, -⟩ := h.moves n
    exact hmove ih hmoves

theorem awake_succ {n : ℕ} (hn : (sync n).dirty = true ∨ (sync n).Waiting) :
    (sync (n + 1)).dirty = true ∨ (sync (n + 1)).Waiting := by
  obtain ⟨revisions, hmoves, hnot⟩ := h.moves n
  rcases hmoves.awake (h.inv n) h.known hn with hsent | hawake
  · exact absurd hsent (not_or.2 ⟨h.unsent n, hnot⟩)
  · exact hawake

/-! ## No streaming -/

/-- Where nothing waits for an acknowledgement of the base, dirty stays dirty. -/
theorem dirty_of_le (hnever : ∀ n, ¬ (sync n).Waiting)
    {n m : ℕ} (hn : (sync n).dirty = true) (hnm : n ≤ m) : (sync m).dirty = true := by
  induction m, hnm using Nat.le_induction with
  | base => exact hn
  | succ m _ ih => exact (h.awake_succ (.inl ih)).resolve_right (hnever (m + 1))

/-- Asking the engine clears the dirty bit. -/
theorem dirty_update {n budget : ℕ}
    {revisions : List Revision} {sync' : Sync} (hshould : (sync n).shouldSend = true)
    (hop : (sync n).update lib engine budget = .ok (revisions, sync')) : sync'.dirty = false := by
  have hinv := h.inv n
  generalize sync n = start at hinv hshould hop
  cases start with
  | legacy => cases hshould
  | independent revision dirty =>
    rw [Sync.update] at hop
    split at hop <;> cases hop <;> rfl
  | acked e allowDiff =>
    have hflight := (SyncSystem.needsUpdate_iff.1 hshould).2
    have hacked : ∀ base ∈ e.window.acknowledged,
        validate lib.graphemeCount base = .ok () := fun base hmem =>
      hinv.1.valid base (hinv.1.acknowledged base hmem)
    rw [Sync.update] at hop
    rcases StateSyncWindow.prepareUpdate_cases allowDiff hflight
      (h.known.full engine List.mem_cons_self) hacked with
      ⟨-, hprepare⟩ | ⟨-, u, -, hprepare⟩
    · rw [hprepare] at hop
      cases hop
      rfl
    · rw [hprepare] at hop
      cases hop
      rfl
  | streaming link dirty =>
    obtain ⟨⟨u, window⟩, -, hresult⟩ := bind_eq_ok_iff.1 hop
    cases hresult
    rfl

/-- An attachment that is dirty for good never gets to ask. -/
theorem not_asks (hnever : ∀ n, ¬ (sync n).Waiting) {n : ℕ} (hn : (sync n).dirty = true)
    (hkept : ∀ m, n ≤ m → (sync m).shouldSend = true → (sync (m + 1)).shouldSend = true) :
    (sync n).shouldSend = false := by
  by_contra hshould
  rw [Bool.not_eq_false] at hshould
  have hforever : ∀ m, n ≤ m → (sync m).shouldSend = true := Nat.le_induction hshould hkept
  obtain ⟨m, hnm, hasks⟩ := h.asks n
  obtain ⟨budget, revisions, hop⟩ := hasks (hforever m hnm)
  have hdirty := h.dirty_of_le hnever hn (Nat.le_succ_of_le hnm)
  rw [h.dirty_update (hforever m hnm) hop] at hdirty
  cases hdirty

/-! ## Independent states -/

theorem not_independent {revision : Revision} {dirty : Bool} :
    sync 0 ≠ .independent revision dirty := by
  intro hstart
  have hkind : ∀ n, ∃ revision dirty, sync n = .independent revision dirty := by
    refine h.kept (I := (∃ revision dirty, · = .independent revision dirty)) ⟨_, _, hstart⟩ ?_
    rintro _ _ _ ⟨revision, dirty, rfl⟩ hmoves
    cases hmoves <;> exact ⟨_, _, rfl⟩
  have hnever : ∀ n, ¬ (sync n).Waiting := by
    intro n
    obtain ⟨revision, dirty, hn⟩ := hkind n
    rw [hn]
    exact id
  have hsame : ∀ n, (sync n).shouldSend = (sync n).dirty := by
    intro n
    obtain ⟨revision, dirty, hn⟩ := hkind n
    rw [hn]
    rfl
  obtain ⟨n, -, hawake⟩ := h.wakes 0
  have hdirty := hawake.resolve_right (hnever n)
  have hstops := h.not_asks hnever hdirty fun m hnm _ => by
    rw [hsame]
    exact h.dirty_of_le hnever hdirty (Nat.le_succ_of_le hnm)
  rw [hsame, hdirty] at hstops
  cases hstops

end

/-! ## States with acknowledgements -/

section

variable {exchange : ℕ → Exchange} {allowDiff : Bool}

section

variable (h : Vigil lib engine past sync sent) (hsync : ∀ n, sync n = .acked (exchange n) allowDiff)

include h hsync

/-- While the engine is not asked the exchange only delivers and acknowledges. -/
theorem exchange_moves (n : ℕ) : (exchange (n + 1)).updates = (exchange n).updates ∧
      (exchange (n + 1)).acks = (exchange n).acks ∧
      (exchange (n + 1)).window.inFlight = (exchange n).window.inFlight ∨
    ((exchange n).updates ≠ [] ∧ (exchange (n + 1)).acks ≠ []) ∨
    ((exchange n).acks ≠ [] ∧ (exchange (n + 1)).window.inFlight = none) := by
  have hinv := h.inv n
  have hunsent := h.unsent n
  obtain ⟨revisions, hmoves, hnot⟩ := h.moves n
  have hawake := fun hdirty => hmoves.awake hinv h.known hdirty
  rw [hsync n] at hmoves hinv hawake
  have hnext := hsync (n + 1)
  generalize sync (n + 1) = next at hmoves hnext hawake
  subst hnext
  generalize exchange (n + 1) = e' at hmoves hawake ⊢
  cases hmoves with
  | idle | marked => exact .inl ⟨rfl, rfl, rfl⟩
  | covered e allowDiff hneeds hcovers hop =>
    exfalso
    rcases hawake (.inl (SyncSystem.needsUpdate_iff.1 hneeds).1) with hsent | hdirty | hwaiting
    · exact hsent.elim hunsent hnot
    · cases hdirty
    · exact hwaiting
  | prepared e allowDiff update hneeds hop => exact absurd (List.mem_singleton_self _) hnot
  | delivered e allowDiff target hne hop => exact .inr (.inl ⟨hne, by simp⟩)
  | accepted e allowDiff target hne hflight hop => exact .inr (.inr ⟨hne, rfl⟩)

theorem exchange_inv (n : ℕ) :
    (exchange n).Inv lib.graphemeCount ((engine :: past).map Engine.full) := by
  have hinv := h.inv n
  rw [hsync n] at hinv
  exact hinv.1

/-- An update on its way is applied. -/
theorem leadsTo_acks :
    LeadsTo (fun n => (exchange n).updates ≠ []) (fun n => (exchange n).acks ≠ []) := by
  apply leadsTo_of_escape
  · intro n hn
    rcases h.exchange_moves hsync n with ⟨hsame, -⟩ | ⟨-, hacks⟩ | ⟨hacks, -⟩
    · exact .inr (by rw [hsame]; exact hn)
    · exact .inl hacks
    · -- Nothing is on both ways at once.
      obtain ⟨-, -, hempty, -⟩ := (h.exchange_inv hsync n).deliverAck_cases hacks
      exact absurd hempty hn
  · intro n hn
    obtain ⟨m, hnm, hop⟩ := h.delivers n
    by_cases hm : (exchange m).updates = []
    · exact ⟨m, hnm, not_not.2 hm⟩
    · refine ⟨m + 1, Nat.le_succ_of_le hnm, not_not.2 ?_⟩
      obtain ⟨target, -, hdeliver⟩ := (h.exchange_inv hsync m).deliverUpdate_cases hm
      rw [hsync m, hsync (m + 1), Sync.deliver, if_neg hm, hdeliver] at hop
      have heq := (Sync.acked.inj (Except.ok.inj (hop (by simp [Sync.undelivered, hm])))).1
      rw [← heq]

/-- An acknowledgement on its way arrives. -/
theorem leadsTo_idle :
    LeadsTo (fun n => (exchange n).acks ≠ []) (fun n => (exchange n).window.inFlight = none) := by
  apply leadsTo_of_escape
  · intro n hn
    rcases h.exchange_moves hsync n with ⟨-, hsame, -⟩ | ⟨hupdates, -⟩ | ⟨-, hflight⟩
    · exact .inr (by rw [hsame]; exact hn)
    · obtain ⟨-, -, hempty, -⟩ := (h.exchange_inv hsync n).deliverAck_cases hn
      exact absurd hempty hupdates
    · exact .inl hflight
  · intro n hn
    obtain ⟨m, hnm, hop⟩ := h.acks n
    by_cases hm : (exchange m).acks = []
    · exact ⟨m, hnm, not_not.2 hm⟩
    · refine ⟨m + 1, Nat.le_succ_of_le hnm, not_not.2 ?_⟩
      obtain ⟨target, -, -, -, hack⟩ := (h.exchange_inv hsync m).deliverAck_cases hm
      rw [hsync m, hsync (m + 1), Sync.ack, if_neg hm, hack] at hop
      have heq := (Sync.acked.inj (Except.ok.inj (hop (by simp [Sync.unanswered, hm])))).1
      rw [← heq]

/-- Again and again nothing is in flight. -/
theorem exists_idle (n : ℕ) : ∃ m, n ≤ m ∧ (exchange m).window.inFlight = none := by
  cases (h.exchange_inv hsync n).stage with
  | idle state _ hflight _ _ _ => exact ⟨n, le_rfl, hflight⟩
  | sent target update _ hupdates _ _ _ _ =>
    have hne : (exchange n).updates ≠ [] := by
      rw [hupdates]
      simp
    exact (h.leadsTo_acks hsync).trans (h.leadsTo_idle hsync) n hne
  | applied target _ _ _ hacks _ =>
    have hne : (exchange n).acks ≠ [] := by
      rw [hacks]
      simp
    exact h.leadsTo_idle hsync n hne

end

end

theorem not_acked (h : Vigil lib engine past sync sent) {e : Exchange} {allowDiff : Bool} :
    sync 0 ≠ .acked e allowDiff := by
  intro hstart
  have hkind : ∀ n, ∃ e, sync n = .acked e allowDiff := by
    refine h.kept (I := (∃ e, · = .acked e allowDiff)) ⟨_, hstart⟩ ?_
    rintro _ _ _ ⟨e, rfl⟩ hmoves
    cases hmoves <;> exact ⟨_, rfl⟩
  choose exchange hsync using hkind
  have hnever : ∀ n, ¬ (sync n).Waiting := by
    intro n
    rw [hsync n]
    exact id
  obtain ⟨n, -, hawake⟩ := h.wakes 0
  have hdirty := hawake.resolve_right (hnever n)
  obtain ⟨m, hnm, hflight⟩ := h.exists_idle hsync n
  have hdirty' := fun k (hmk : m ≤ k) => h.dirty_of_le hnever hdirty (hnm.trans hmk)
  -- Dirty with nothing in flight, the attachment asks the engine.
  have hshould : ∀ k, m ≤ k → (exchange k).window.inFlight = none →
      (sync k).shouldSend = true := by
    intro k hmk hk
    have hk' := hdirty' k hmk
    rw [hsync k] at hk' ⊢
    exact SyncSystem.needsUpdate_iff.2 ⟨hk', hk⟩
  have hstops := h.not_asks hnever (hdirty' m le_rfl) fun k hmk hk => by
    apply hshould (k + 1) (Nat.le_succ_of_le hmk)
    rw [hsync k] at hk
    have hflight := (SyncSystem.needsUpdate_iff.1 hk).2
    rcases h.exchange_moves hsync k with ⟨-, -, hsame⟩ | ⟨hupdates, -⟩ | ⟨-, hnone⟩
    · rw [hsame]
      exact hflight
    · obtain ⟨target, hsome, -⟩ := (h.exchange_inv hsync k).deliverUpdate_cases hupdates
      rw [hflight] at hsome
      cases hsome
    · exact hnone
  rw [hshould m le_rfl hflight] at hstops
  cases hstops

/-! ## Streaming -/

section

variable {link : ℕ → Link} {dirty : ℕ → Bool}

section

variable (h : Vigil lib engine past sync sent) (hsync : ∀ n, sync n = .streaming (link n) (dirty n))

include h hsync

theorem stream_inv (n : ℕ) : StreamInv lib engine past (sent n) (link n) := by
  have hinv := h.inv n
  rw [hsync n] at hinv
  exact hinv

/-- A step of a streaming attachment: the engine is asked and the viewport kept for later, or the
dirty bit stays and nothing is passed in. -/
theorem stream_moves (n : ℕ) : (link (n + 1) = link n ∨ Link.Next lib (link n) (link (n + 1))) ∧
    ((link n).window.baseAcknowledged = false ∧
        (link (n + 1)).given = engine.viewport :: (link n).given ∨
      (link (n + 1)).given = (link n).given ∧ (dirty n = true → dirty (n + 1) = true)) := by
  have hinv := h.stream_inv hsync n
  have hunsent := h.unsent n
  obtain ⟨revisions, hmoves, hnot⟩ := h.moves n
  rw [hsync n] at hmoves
  have hnext := hsync (n + 1)
  generalize sync (n + 1) = next at hmoves hnext
  subst hnext
  generalize link (n + 1) = link' at hmoves ⊢
  generalize dirty (n + 1) = dirty' at hmoves ⊢
  generalize link n = start at hinv hmoves ⊢
  generalize dirty n = dirty at hmoves ⊢
  cases hmoves with
  | idle => exact ⟨.inl rfl, .inr ⟨rfl, id⟩⟩
  | marked => exact ⟨.inl rfl, .inr ⟨rfl, fun _ => rfl⟩⟩
  | passed link dirty update window hsends hsampled hnext =>
    rcases hsampled with hstale | ⟨-, hacked, -⟩ | hsent
    · exact absurd (hinv.sent_of_stale h.known hstale) hunsent
    · exact ⟨.inr hnext, .inl ⟨hacked, rfl⟩⟩
    · rw [hsent, h.known.same engine List.mem_cons_self] at hnot
      exact absurd (List.mem_singleton_self _) hnot
  | sent link dirty update window hsends hnext => exact ⟨.inr hnext, .inr ⟨rfl, id⟩⟩
  | client link link' dirty hwindow hgiven hnext => exact ⟨.inr hnext, .inr ⟨hgiven, id⟩⟩
  | acked link dirty a acks window hacks hack hnext =>
    exact ⟨.inr hnext, .inr ⟨rfl, fun hdirty => by rw [hdirty]; rfl⟩⟩

theorem link_moves (n : ℕ) : Link.Moves lib (link n) (link (n + 1)) := by
  rcases (h.stream_moves hsync n).1 with hsame | hnext
  · rw [hsame]
    exact .ignored
  · exact Link.next_moves (h.stream_inv hsync n).reachable.inv.1 hnext

/-- Keyframes and acknowledgements are delivered. -/
theorem flows : Link.Flows lib link := by
  refine .of_fair (fun n => (h.stream_inv hsync n).reachable) (h.link_moves hsync) (fun n hn => ?_)
    fun n hn => ?_
  · obtain ⟨m, hnm, hop⟩ := h.delivers n
    refine ⟨m, hnm, fun hne => ?_⟩
    rw [hsync m, hsync (m + 1), Sync.deliver, if_neg hne] at hop
    obtain ⟨link', hstep, hresult⟩ := bind_eq_ok_iff.1 (hop (by simp [Sync.undelivered, hne]))
    rw [attempt_of_ok hstep, (Sync.streaming.inj (Except.ok.inj hresult)).1]
  · obtain ⟨m, hnm, hop⟩ := h.acks n
    refine ⟨m, hnm, fun hne => ?_⟩
    rw [hsync m, hsync (m + 1), Sync.ack, if_neg hne] at hop
    obtain ⟨link', hstep, hresult⟩ := bind_eq_ok_iff.1 (hop (by simp [Sync.unanswered, hne]))
    rw [attempt_of_ok hstep, (Sync.streaming.inj (Except.ok.inj hresult)).1]

/-- A viewport that waits for the base leads to the dirty bit. -/
theorem leadsTo_dirty (n : ℕ) : ∃ m, n ≤ m ∧ dirty m = true := by
  have hdirty : ∀ m, (sync m).dirty = dirty m := fun m => by rw [hsync m]; rfl
  have hwaits : LeadsTo (fun n => (sync n).Waiting) (fun n => dirty n = true) := by
    apply leadsTo_of_escape
    · intro k hk
      rw [← hdirty]
      exact h.awake_succ (.inr hk)
    · intro k _
      obtain ⟨m, hkm, hacked⟩ := (h.flows hsync).leadsTo_acked k
      refine ⟨m, hkm, ?_⟩
      rw [hsync m]
      rintro ⟨hfalse, -⟩
      rw [hacked] at hfalse
      cases hfalse
  obtain ⟨m, hnm, hm | hwaiting⟩ := h.wakes n
  · exact ⟨m, hnm, by rw [← hdirty]; exact hm⟩
  · obtain ⟨k, hmk, hk⟩ := hwaits m hwaiting
    exact ⟨k, hnm.trans hmk, hk⟩

/-- Again and again the engine is asked, with an unacknowledged base. -/
theorem exists_passed (n : ℕ) :
    ∃ m, n ≤ m ∧ (link m).window.baseAcknowledged = false ∧
      (link (m + 1)).given = engine.viewport :: (link m).given := by
  obtain ⟨k, hnk, hk⟩ := h.leadsTo_dirty hsync n
  by_contra hnone
  push Not at hnone
  -- Without that the dirty bit stays, but then the engine is asked, which clears it.
  have hkept : ∀ m, k ≤ m → dirty m = true := by
    intro m hkm
    induction m, hkm using Nat.le_induction with
    | base => exact hk
    | succ m hkm ih =>
      rcases (h.stream_moves hsync m).2 with ⟨hacked, hgiven⟩ | ⟨-, hstays⟩
      · exact absurd hgiven (hnone m (hnk.trans hkm) hacked)
      · exact hstays ih
  have hshould : ∀ m, (sync m).shouldSend = dirty m := fun m => by rw [hsync m]; rfl
  obtain ⟨m, hkm, hasks⟩ := h.asks k
  have hask := (hshould m).trans (hkept m hkm)
  obtain ⟨budget, revisions, hop⟩ := hasks hask
  have hcleared := h.dirty_update hask hop
  rw [hsync (m + 1), Sync.dirty, hkept (m + 1) (Nat.le_succ_of_le hkm)] at hcleared
  cases hcleared

/-- Once the engine's viewport is passed in it is the newest given state for good. -/
theorem newest_of_le {n m : ℕ} (hn : (link n).given.head? = some engine.viewport) (hnm : n ≤ m) :
    Link.IsNewest (link m).given engine.viewport := by
  have hhead : (link m).given.head? = some engine.viewport := by
    induction m, hnm using Nat.le_induction with
    | base => exact hn
    | succ m _ ih =>
      rcases (h.stream_moves hsync m).2 with ⟨-, hgiven⟩ | ⟨hgiven, -⟩
      · rw [hgiven]
        rfl
      · rw [hgiven]
        exact ih
  refine ⟨hhead, fun s hs hepoch => ?_⟩
  exact (((h.stream_inv hsync m).admissible h.known).1 s hs hepoch).1

/-- The base is never the engine's viewport, since that would have been sent. -/
theorem base_ne (n : ℕ) : (link n).window.base ≠ engine.viewport := by
  intro heq
  have hbase := (h.stream_inv hsync n).base
  rw [heq, h.known.same engine List.mem_cons_self] at hbase
  exact h.unsent n hbase

end

end

theorem not_streaming (h : Vigil lib engine past sync sent) {l : Link} {d : Bool} :
    sync 0 ≠ .streaming l d := by
  intro hstart
  have hkind : ∀ n, ∃ l d, sync n = .streaming l d := by
    refine h.kept (I := (∃ l d, · = .streaming l d)) ⟨_, _, hstart⟩ ?_
    rintro _ _ _ ⟨l, d, rfl⟩ hmoves
    cases hmoves <;> exact ⟨_, _, rfl⟩
  choose link dirty hsync using hkind
  -- The viewport is passed in, and the base acknowledged after that.
  obtain ⟨n, -, -, hgiven⟩ := h.exists_passed hsync 0
  have hhead : (link (n + 1)).given.head? = some engine.viewport := by
    rw [hgiven]
    rfl
  obtain ⟨m, hnm, hacked⟩ := (h.flows hsync).leadsTo_acked (n + 1)
  have hstays : ∀ k, m ≤ k → (link k).window.baseAcknowledged = true := by
    intro k hmk
    induction k, hmk using Nat.le_induction with
    | base => exact hacked
    | succ k hmk ih =>
      have hnewest := h.newest_of_le hsync hhead (hnm.trans hmk)
      have hnewest' := h.newest_of_le hsync hhead (hnm.trans (Nat.le_succ_of_le hmk))
      have hstep := (h.link_moves hsync k).acked (h.stream_inv hsync k).reachable.inv.1 hnewest
        hnewest' ih (h.base_ne hsync k)
      exact hstep.resolve_left (h.base_ne hsync (k + 1))
  -- So the next time the engine is asked the viewport is sent.
  obtain ⟨k, hmk, hfalse, -⟩ := h.exists_passed hsync m
  rw [hstays k hmk] at hfalse
  cases hfalse

/-- While the engine stands still its revision is sent. -/
protected theorem absurd (h : Vigil lib engine past sync sent) : False := by
  cases hstart : sync 0 with
  | legacy =>
    have hinv := h.inv 0
    rw [hstart] at hinv
    exact hinv
  | independent revision dirty => exact h.not_independent hstart
  | acked e allowDiff => exact h.not_acked hstart
  | streaming link dirty => exact h.not_streaming hstart

end Vigil

end AstraShell.Attach
