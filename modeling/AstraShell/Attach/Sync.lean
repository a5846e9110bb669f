import AstraShell.Attach.Loop
import AstraShell.Streaming.Safety

/-!
# What an attachment has sent

`Sync.Inv` relates the synchronization state of a semantic attachment to the states that the engine
has been in and to the revisions that were sent: everything the windows take to be with the client
or on its way there was sent. Every branch of the event loop keeps it.
-/

set_option autoImplicit false

namespace AstraShell.Attach

open Lib TerminalState TerminalSync Streaming StreamingStateWindow
open Effect (of_wp_result)

/-! ## The states of the engine -/

/-- Everything the engine has exported is valid, and nothing of its epoch is newer than what it
exports now. -/
structure Known (lib : External) (engine : Engine) (past : List Engine) : Prop where
  full : ∀ p ∈ engine :: past, validate lib.graphemeCount p.full = .ok ()
  same : ∀ p ∈ engine :: past, revisionOf p.viewport = p.revision
  newest : ∀ p ∈ engine :: past, p.full.epoch = engine.full.epoch →
    p.full.generation ≤ engine.full.generation ∧
      (p.full.generation = engine.full.generation → p = engine)

variable {lib : External} {engine engine' : Engine} {past : List Engine}

theorem Known.start (h : Host.Follows lib [] engine) : Known lib engine [] where
  full := fun p hp => List.mem_singleton.1 hp ▸ h.full
  same := fun p hp => List.mem_singleton.1 hp ▸ h.same
  newest := fun p hp _ => by
    rw [List.mem_singleton.1 hp]
    exact ⟨Nat.le_refl _, fun _ => rfl⟩

theorem Known.moved (h : Known lib engine past)
    (hfollows : Host.Follows lib (engine :: past) engine') :
    Known lib engine' (engine :: past) where
  full := fun p hp => (List.mem_cons.1 hp).elim (fun heq => heq ▸ hfollows.full) (h.full p)
  same := fun p hp => (List.mem_cons.1 hp).elim (fun heq => heq ▸ hfollows.same) (h.same p)
  newest := fun p hp hepoch => by
    rcases List.mem_cons.1 hp with rfl | hp
    · exact ⟨Nat.le_refl _, fun _ => rfl⟩
    · exact hfollows.newest p hp hepoch

theorem Known.viewport_epoch (h : Known lib engine past) {p : Engine} (hp : p ∈ engine :: past) :
    p.viewport.epoch = p.full.epoch ∧ p.viewport.generation = p.full.generation :=
  Prod.mk.inj (h.same p hp)

/-! ## Streaming -/

/-- The link of a streaming attachment. -/
structure StreamInv (lib : External) (engine : Engine) (past : List Engine)
    (sent : Revision → Prop) (link : Link) : Prop where
  reachable : Link.Reachable lib link
  given : ∀ s ∈ link.given, ∃ p ∈ engine :: past, p.viewport = s
  forward : ∀ newest ∈ link.given.head?, (∃ s ∈ link.given, s.epoch = engine.viewport.epoch) →
    newest.epoch = engine.viewport.epoch
  base : sent (revisionOf link.window.base)
  retained : ∀ k s, link.window.sent.get? k = some s → sent (revisionOf s)

namespace StreamInv

variable {sent sent' : Revision → Prop} {link link' : Link}

section

variable (h : StreamInv lib engine past sent link)

include h

theorem mono (hsub : ∀ r, sent r → sent' r) : StreamInv lib engine past sent' link :=
  { h with
    base := hsub _ h.base
    retained := fun k s hs => hsub _ (h.retained k s hs) }

/-- The engine's viewport may be passed in. -/
theorem admissible (hknown : Known lib engine past) :
    Link.Admissible link.given engine.viewport := by
  have hengine := hknown.viewport_epoch (List.mem_cons_self : engine ∈ engine :: past)
  refine ⟨fun s hs hepoch => ?_, h.forward⟩
  obtain ⟨p, hp, rfl⟩ := h.given s hs
  have hp' := hknown.viewport_epoch hp
  rw [hp'.1, hengine.1] at hepoch
  obtain ⟨hle, heq⟩ := hknown.newest p hp hepoch
  rw [hp'.2, hengine.2]
  exact ⟨hle, fun h => by rw [heq h]⟩

theorem moved (hknown : Known lib engine past)
    (hfollows : Host.Follows lib (engine :: past) engine') :
    StreamInv lib engine' (engine :: past) sent link := by
  have hknown' := hknown.moved hfollows
  have hepoch' := hknown'.viewport_epoch (List.mem_cons_self : engine' ∈ engine' :: engine :: past)
  have hepoch := hknown.viewport_epoch (List.mem_cons_self : engine ∈ engine :: past)
  refine { h with
    given := fun s hs => ?_
    forward := fun newest hnewest hexists => ?_ }
  · obtain ⟨p, hp, heq⟩ := h.given s hs
    exact ⟨p, List.mem_cons_of_mem _ hp, heq⟩
  · -- The new epoch was seen before, so it is still the engine's.
    obtain ⟨s, hs, hse⟩ := hexists
    obtain ⟨p, hp, rfl⟩ := h.given s hs
    have hpe : p.full.epoch = engine'.full.epoch := by
      rw [← (hknown.viewport_epoch hp).1, hse, hepoch'.1]
    have hsame : engine.full.epoch = engine'.full.epoch :=
      hfollows.forward engine rfl ⟨p, hp, hpe⟩
    have heq : engine.viewport.epoch = engine'.viewport.epoch := by
      rw [hepoch.1, hepoch'.1, hsame]
    rw [← heq]
    exact h.forward newest hnewest ⟨_, hs, by rw [hse, heq]⟩

end

end StreamInv

/-! ### What an update brings the client to -/

theorem updateRevision_of_delta {update : StreamingUpdate} {terminalId attachmentId : String}
    {base target : State} {d : TerminalViewportDatagram} (hupdate : update.delta? = some d)
    (hcompact : compactViewportDatagram terminalId attachmentId base target = .ok d) :
    updateRevision update = some (revisionOf target) := by
  obtain ⟨-, -, -, -, -, diff, hdiff, hepoch, -, htarget⟩ := Link.span_of_compact hcompact
  cases update with
  | reliableKeyframe state => cases hupdate
  | datagramDelta delta =>
    cases hupdate
    simp [updateRevision, StreamingUpdate.delta?, hdiff, hepoch, htarget, revisionOf]
  | fragmentedDelta transfer =>
    simp [updateRevision, hupdate, hdiff, hepoch, htarget, revisionOf]

variable {w : StreamingStateWindow} {update : Option StreamingUpdate}

/-- `prepare_update` finds the state stale, keeps it for later or sends it. -/
theorem prepareUpdate_sampled {w' : StreamingStateWindow} {latest : State} {budget : Nat}
    (h : w.prepareUpdate lib latest budget = .ok (update, w')) :
    w.isStale latest ∨
      (¬ w.isStale latest ∧ w.baseAcknowledged = false ∧
        w' = { w with latestTarget := some latest }) ∨
      update.bind updateRevision = some (revisionOf latest) := by
  obtain ⟨-, hsends, hlatest, hnone⟩ := of_wp_result prepareUpdate_spec h
  cases hsends with
  | unchanged | pend | clear => exact (hnone rfl).imp_right .inl
  | delta latest' update d hcandidate _ _ _ _ hcompact hupdate =>
    cases hcandidate
    exact .inr (.inr (updateRevision_of_delta hupdate hcompact))
  | keyframe latest' hcandidate =>
    cases hcandidate
    exact .inr (.inr rfl)
  | resend => exact .inl (hlatest.resolve_right (by simp)).1

/-- The base and the retained states after an operation were there before, or have been sent. -/
theorem sends_sent {w' : StreamingStateWindow} {candidate : Option State}
    (h : w.Sends lib candidate update w') (hpos : 0 < w.retainedGenerations) :
    (w'.base = w.base ∨ update.bind updateRevision = some (revisionOf w'.base)) ∧
      ∀ k s, w'.sent.get? k = some s →
        w.sent.get? k = some s ∨ update.bind updateRevision = some (revisionOf s) := by
  cases h with
  | delta latest update d _ _ _ _ _ hcompact hupdate =>
    have hrevision := updateRevision_of_delta hupdate hcompact
    refine ⟨.inl rfl, fun k s hs => ?_⟩
    rcases get?_remember hs with ⟨-, rfl⟩ | hold
    · exact .inr hrevision
    · exact .inl hold
  | keyframe latest _ _ _ _ =>
    refine ⟨.inr rfl, fun k s hs => ?_⟩
    rw [installed_sent hpos] at hs
    obtain ⟨-, rfl⟩ | hnone := OrdMap.get?_insert_cases hs
    · exact .inr rfl
    · cases hnone
  | _ => exact ⟨.inl rfl, fun k s hs => .inl hs⟩

namespace StreamInv

variable {sent : Revision → Prop} {link link' : Link}

section

variable (h : StreamInv lib engine past sent link)

include h

/-- An operation of the sender that passes nothing in, or the engine's viewport. -/
theorem emit {given' : List State} {candidate : Option State} {window : StreamingStateWindow}
    (hsends : link.window.Sends lib candidate update window)
    (hgiven : given' = link.given ∨ given' = engine.viewport :: link.given)
    (hreachable : Link.Reachable lib (Link.emit { link with given := given' } update window)) :
    StreamInv lib engine past (fun r => sent r ∨ r ∈ (update.bind updateRevision).toList)
      (Link.emit { link with given := given' } update window) := by
  obtain ⟨hbase, hretained⟩ := sends_sent hsends h.reachable.inv.1.caps_pos.1
  refine ⟨hreachable, fun s hs => ?_, fun newest hnewest hexists => ?_, ?_, fun k s hs => ?_⟩
  · rcases hgiven with rfl | rfl
    · exact h.given s hs
    · rcases List.mem_cons.1 hs with rfl | hs
      · exact ⟨engine, List.mem_cons_self, rfl⟩
      · exact h.given s hs
  · rcases hgiven with rfl | rfl
    · exact h.forward newest hnewest hexists
    · cases hnewest
      rfl
  · rcases hbase with hsame | hsent
    · have hbase' := h.base
      rw [← hsame] at hbase'
      exact .inl hbase'
    · exact .inr (Option.mem_toList.2 hsent)
  · rcases hretained k s hs with hold | hsent
    · exact .inl (h.retained k s hold)
    · exact .inr (Option.mem_toList.2 hsent)

/-- A step of the client. -/
theorem client (hreachable : Link.Reachable lib link') (hwindow : link'.window = link.window)
    (hgiven : link'.given = link.given) : StreamInv lib engine past sent link' := by
  refine ⟨hreachable, ?_, ?_, ?_, ?_⟩
  · rw [hgiven]
    exact h.given
  · rw [hgiven]
    exact h.forward
  · rw [hwindow]
    exact h.base
  · rw [hwindow]
    exact h.retained

/-- An acknowledgement. -/
theorem acknowledged {a : TerminalStateAck} {acks : List TerminalStateAck}
    {window : StreamingStateWindow} (hack : link.window.Acknowledges a window)
    (hreachable : Link.Reachable lib { link with window := window, acks := acks }) :
    StreamInv lib engine past sent { link with window := window, acks := acks } := by
  refine { h with
    reachable := hreachable
    base := ?_
    retained := ?_ }
  · cases hack with
    | advance state _ _ hsent => exact h.retained _ _ hsent
    | _ => exact h.base
  · cases hack with
    | advance state _ _ hsent =>
      intro k s hs
      exact h.retained k s (OrdMap.get?_of_get?_retain hs).2
    | _ => exact h.retained

end

end StreamInv

/-! ## The branches of the event loop -/

namespace Sync

/-- What the synchronization state of a semantic attachment keeps true. -/
def Inv (lib : External) (engine : Engine) (past : List Engine) (sent : Revision → Prop) :
    Sync → Prop
  | .legacy => False
  | .independent revision _ => sent revision
  | .acked exchange _ =>
    exchange.Inv lib.graphemeCount ((engine :: past).map Engine.full) ∧
      ∀ s, exchange.window.acknowledged = some s ∨ exchange.window.inFlight = some s →
        sent (revisionOf s)
  | .streaming link _ => StreamInv lib engine past sent link

/-- Everything a branch can do, with the revisions it sends. -/
inductive Moves (lib : External) (engine : Engine) : Sync → List Revision → Sync → Prop
  | idle (sync : Sync) : Moves lib engine sync [] sync
  | marked (sync : Sync) : Moves lib engine sync [] sync.markDirty
  | unchanged (dirty : Bool) :
      Moves lib engine (.independent engine.revision dirty) []
        (.independent engine.revision false)
  | changed (revision : Revision) (dirty : Bool) :
      Moves lib engine (.independent revision dirty) [engine.revision]
        (.independent engine.revision false)
  | covered (e : Exchange) (allowDiff : Bool) (hneeds : e.window.needsUpdate = true)
      (hcovers : e.window.covers engine.full.epoch engine.full.generation)
      (hop : e.prepare lib.graphemeCount engine.full allowDiff =
        .ok { e with window := { e.window with dirty := false } }) :
      Moves lib engine (.acked e allowDiff) []
        (.acked { e with window := { e.window with dirty := false } } allowDiff)
  | prepared (e : Exchange) (allowDiff : Bool) (update : PreparedStateUpdate)
      (hneeds : e.window.needsUpdate = true)
      (hop : e.prepare lib.graphemeCount engine.full allowDiff = .ok { e with
        window := { e.window with dirty := false, inFlight := some engine.full }
        updates := e.updates ++ [update] }) :
      Moves lib engine (.acked e allowDiff) [engine.revision] (.acked { e with
        window := { e.window with dirty := false, inFlight := some engine.full }
        updates := e.updates ++ [update] } allowDiff)
  | delivered (e : Exchange) (allowDiff : Bool) (target : State) (hne : e.updates ≠ [])
      (hop : e.deliverUpdate lib.graphemeCount = .ok { e with
        updates := []
        client := some target
        acks := [⟨target.epoch, target.generation⟩] }) :
      Moves lib engine (.acked e allowDiff) [] (.acked { e with
        updates := []
        client := some target
        acks := [⟨target.epoch, target.generation⟩] } allowDiff)
  | accepted (e : Exchange) (allowDiff : Bool) (target : State) (hne : e.acks ≠ [])
      (hflight : e.window.inFlight = some target)
      (hop : e.deliverAck = .ok { e with
        window := { e.window with acknowledged := some target, inFlight := none }
        acks := [] }) :
      Moves lib engine (.acked e allowDiff) [] (.acked { e with
        window := { e.window with acknowledged := some target, inFlight := none }
        acks := [] } allowDiff)
  | passed (link : Link) (dirty : Bool) (update : Option StreamingUpdate)
      (window : StreamingStateWindow)
      (hsends : link.window.Sends lib (some engine.viewport) update window)
      (hsampled : link.window.isStale engine.viewport ∨
        (¬ link.window.isStale engine.viewport ∧ link.window.baseAcknowledged = false ∧
          window = { link.window with latestTarget := some engine.viewport }) ∨
        update.bind updateRevision = some (revisionOf engine.viewport))
      (hnext : Link.Next lib link
        (Link.emit { link with given := engine.viewport :: link.given } update window)) :
      Moves lib engine (.streaming link dirty) (update.bind updateRevision).toList
        (.streaming (Link.emit { link with given := engine.viewport :: link.given } update window)
          false)
  | sent (link : Link) (dirty : Bool) (update : Option StreamingUpdate)
      (window : StreamingStateWindow)
      (hsends : link.window.Sends lib link.window.latestTarget update window)
      (hnext : Link.Next lib link (link.emit update window)) :
      Moves lib engine (.streaming link dirty) (update.bind updateRevision).toList
        (.streaming (link.emit update window) dirty)
  | client (link link' : Link) (dirty : Bool) (hwindow : link'.window = link.window)
      (hgiven : link'.given = link.given) (hnext : Link.Next lib link link') :
      Moves lib engine (.streaming link dirty) [] (.streaming link' dirty)
  | acked (link : Link) (dirty : Bool) (a : TerminalStateAck) (acks : List TerminalStateAck)
      (window : StreamingStateWindow) (hacks : link.acks = a :: acks)
      (hack : link.window.Acknowledges a window)
      (hnext : Link.Next lib link { link with window := window, acks := acks }) :
      Moves lib engine (.streaming link dirty) [] (.streaming
        { link with window := window, acks := acks }
        (dirty || (window.baseAcknowledged && window.hasPendingUpdate)))

variable {sent : Revision → Prop} {sync sync' : Sync} {revisions : List Revision} {budget : Nat}

theorem update_moves (h : Inv lib engine past sent sync) (hknown : Known lib engine past)
    (hshould : sync.shouldSend = true)
    (hop : sync.update lib engine budget = .ok (revisions, sync')) :
    Moves lib engine sync revisions sync' := by
  cases sync with
  | legacy => cases hshould
  | independent revision dirty =>
    rw [update] at hop
    split at hop
    next hsame =>
      cases hop
      rw [← hsame]
      exact .unchanged dirty
    · cases hop
      exact .changed revision dirty
  | acked e allowDiff =>
    have hflight := (SyncSystem.needsUpdate_iff.1 hshould).2
    have hacked : ∀ base ∈ e.window.acknowledged,
        validate lib.graphemeCount base = .ok () := fun base hmem =>
      h.1.valid base (h.1.acknowledged base hmem)
    rw [update] at hop
    rcases StateSyncWindow.prepareUpdate_cases allowDiff hflight
      (hknown.full engine List.mem_cons_self) hacked with
      ⟨hcovers, hprepare⟩ | ⟨-, u, -, hprepare⟩
    · rw [hprepare] at hop
      cases hop
      refine .covered e allowDiff hshould hcovers ?_
      rw [Exchange.prepare, hprepare]
      simp
    · rw [hprepare] at hop
      cases hop
      refine .prepared e allowDiff u hshould ?_
      rw [Exchange.prepare, hprepare]
      rfl
  | streaming link dirty =>
    obtain ⟨⟨u, window⟩, hprepare, hresult⟩ := bind_eq_ok_iff.1 hop
    cases hresult
    obtain ⟨-, hsends, -⟩ := of_wp_result prepareUpdate_spec hprepare
    refine .passed link dirty u window hsends (prepareUpdate_sampled hprepare)
      ⟨.prepare engine.viewport budget, StreamInv.admissible h hknown, ?_⟩
    rw [Link.step, hprepare]
    rfl

theorem retry_moves (hop : sync.retry lib budget = .ok (revisions, sync')) :
    Moves lib engine sync revisions sync' := by
  cases sync with
  | streaming link dirty =>
    rw [retry] at hop
    split at hop
    · obtain ⟨⟨u, window⟩, hretry, hresult⟩ := bind_eq_ok_iff.1 hop
      cases hresult
      refine .sent link dirty u window (of_wp_result retryLatest_spec hretry)
        ⟨.retry budget, trivial, ?_⟩
      rw [Link.step, hretry]
      rfl
    · cases hop
      exact .idle _
  | _ =>
    cases hop
    exact .idle _

theorem rekey_moves (hop : sync.rekey lib = .ok (revisions, sync')) :
    Moves lib engine sync revisions sync' := by
  cases sync with
  | streaming link dirty =>
    rw [rekey] at hop
    split at hop
    · obtain ⟨⟨u, window⟩, hrekey, hresult⟩ := bind_eq_ok_iff.1 hop
      cases hresult
      refine .sent link dirty u window (of_wp_result rekeyLatest_spec hrekey).1
        ⟨.rekey, trivial, ?_⟩
      rw [Link.step, hrekey]
      rfl
    · cases hop
      exact .idle _
  | _ =>
    cases hop
    exact .idle _

theorem repair_moves {request : TerminalStateRepairRequest}
    (hop : sync.repair lib request = .ok (revisions, sync')) :
    Moves lib engine sync revisions sync' := by
  cases sync with
  | streaming link dirty =>
    obtain ⟨⟨u, window⟩, hrepair, hresult⟩ := bind_eq_ok_iff.1 hop
    cases hresult
    refine .sent link dirty u window (of_wp_result repair_spec hrepair)
      ⟨.repair request, trivial, ?_⟩
    rw [Link.step, hrepair]
    rfl
  | _ => cases hop

theorem ack_moves (h : Inv lib engine past sent sync) (hop : sync.ack lib = .ok sync') :
    Moves lib engine sync [] sync' := by
  cases sync with
  | acked e allowDiff =>
    rw [ack] at hop
    split at hop
    · cases hop
      exact .idle _
    next hne =>
      obtain ⟨target, -, -, hflight, hack⟩ := h.1.deliverAck_cases hne
      rw [hack] at hop
      cases hop
      exact .accepted e allowDiff target hne hflight hack
  | streaming link dirty =>
    rw [ack] at hop
    split at hop
    · cases hop
      exact .idle _
    next hne =>
      obtain ⟨a, acks, hacks⟩ := List.exists_cons_of_ne_nil hne
      obtain ⟨link', hstep, hresult⟩ := bind_eq_ok_iff.1 hop
      have hnext : Link.Next lib link link' := ⟨.deliverAck, trivial, hstep⟩
      rw [Link.step, hacks] at hstep
      obtain ⟨⟨disposition, window⟩, hack, hlink⟩ := bind_eq_ok_iff.1 hstep
      cases hlink
      cases hresult
      exact .acked link dirty a acks window hacks
        (acknowledge_cases hack) hnext
  | _ =>
    cases hop
    exact .idle _

theorem deliver_moves (h : Inv lib engine past sent sync) (hop : sync.deliver lib = .ok sync') :
    Moves lib engine sync [] sync' := by
  cases sync with
  | acked e allowDiff =>
    rw [deliver] at hop
    split at hop
    · cases hop
      exact .idle _
    next hne =>
      obtain ⟨target, -, hdeliver⟩ := h.1.deliverUpdate_cases hne
      rw [hdeliver] at hop
      cases hop
      exact .delivered e allowDiff target hne hdeliver
  | streaming link dirty =>
    rw [deliver] at hop
    split at hop
    · cases hop
      exact .idle _
    next hne =>
      obtain ⟨k, keyframes, hkeyframes⟩ := List.exists_cons_of_ne_nil hne
      obtain ⟨link', hstep, hresult⟩ := bind_eq_ok_iff.1 hop
      have hnext : Link.Next lib link link' := ⟨.deliverKeyframe, trivial, hstep⟩
      rw [Link.step, hkeyframes] at hstep
      obtain ⟨⟨_, _⟩, -, hlink⟩ := bind_eq_ok_iff.1 hstep
      cases hlink
      cases hresult
      exact .client link _ dirty rfl rfl hnext
  | _ =>
    cases hop
    exact .idle _

theorem deliverDelta_moves {delta : TerminalViewportDatagram}
    (henabled : ∀ link dirty, sync = .streaming link dirty → delta ∈ link.deltas)
    (hop : sync.deliverDelta lib delta = .ok sync') : Moves lib engine sync [] sync' := by
  cases sync with
  | streaming link dirty =>
    obtain ⟨link', hstep, hresult⟩ := bind_eq_ok_iff.1 hop
    have hnext : Link.Next lib link link' :=
      ⟨.deliverDelta delta, henabled link dirty rfl, hstep⟩
    obtain ⟨⟨_, _⟩, -, hlink⟩ := bind_eq_ok_iff.1 hstep
    cases hlink
    cases hresult
    exact .client link _ dirty rfl rfl hnext
  | _ =>
    cases hop
    exact .idle _

/-! ### The invariant -/

section

variable (h : Inv lib engine past sent sync)

include h

theorem Inv.mono {sent' : Revision → Prop}
    (hsub : ∀ r, sent r → sent' r) : Inv lib engine past sent' sync := by
  cases sync with
  | legacy => exact h
  | independent revision dirty => exact hsub _ h
  | acked e allowDiff => exact ⟨h.1, fun s hs => hsub _ (h.2 s hs)⟩
  | streaming link dirty => exact StreamInv.mono h hsub

theorem Inv.moved (hknown : Known lib engine past)
    (hfollows : Host.Follows lib (engine :: past) engine') :
    Inv lib engine' (engine :: past) sent sync := by
  cases sync with
  | legacy => exact h
  | independent revision dirty => exact h
  | acked e allowDiff =>
    refine ⟨h.1.mono (fun s hs => ?_) (fun s hs => ?_), h.2⟩
    · rw [List.map_cons]
      exact List.mem_cons_of_mem _ hs
    · obtain ⟨p, hp, rfl⟩ := List.mem_map.1 hs
      exact (hknown.moved hfollows).full p hp
  | streaming link dirty => exact StreamInv.moved h hknown hfollows

theorem Inv.markDirty : Inv lib engine past sent sync.markDirty := by
  cases sync with
  | legacy => exact h
  | independent revision dirty => exact h
  | acked e allowDiff => exact ⟨h.1.markDirty, h.2⟩
  | streaming link dirty => exact h

end

/-- A subscription starts from what is sent with it. -/
theorem inv_start {kind : Kind} {terminalId attachmentId : String} (hkind : kind ≠ .legacy)
    (hknown : Known lib engine past) (hsent : sent engine.revision)
    (hop : start lib kind engine terminalId attachmentId = .ok sync) :
    Inv lib engine past sent sync := by
  cases kind with
  | legacy => exact absurd rfl hkind
  | independent =>
    cases hop
    exact hsent
  | acked allowDiff =>
    obtain ⟨e, hbegin, hresult⟩ := bind_eq_ok_iff.1 hop
    cases hresult
    have hvalid := hknown.full engine List.mem_cons_self
    have hinv := Exchange.inv_begin hvalid hbegin
    refine ⟨hinv.mono (fun s hs => ?_) (fun s hs => ?_), fun s hs => ?_⟩
    · rw [List.mem_singleton.1 hs]
      exact List.mem_map_of_mem List.mem_cons_self
    · obtain ⟨p, hp, rfl⟩ := List.mem_map.1 hs
      exact hknown.full p hp
    · have hmem : s ∈ [engine.full] := hs.elim (hinv.acknowledged s) (hinv.inFlight s)
      rw [List.mem_singleton.1 hmem]
      exact hsent
  | streaming version =>
    obtain ⟨link, hstart, hresult⟩ := bind_eq_ok_iff.1 hop
    cases hresult
    have hreachable : Link.Reachable lib link := .start hstart
    have hviewport : sent (revisionOf engine.viewport) := by
      rw [hknown.same engine List.mem_cons_self]
      exact hsent
    obtain ⟨-, -, rfl⟩ := Link.start_eq_ok hstart
    refine ⟨hreachable, fun s hs => ?_, fun newest hnewest _ => ?_, hviewport, fun k s hs => ?_⟩
    · exact ⟨engine, List.mem_cons_self, (List.mem_singleton.1 hs).symm⟩
    · cases hnewest
      rfl
    · obtain ⟨-, rfl⟩ | hnone := OrdMap.get?_insert_cases hs
      · exact hviewport
      · cases hnone

/-- Every branch keeps the invariant. -/
theorem Inv.moves (h : Inv lib engine past sent sync)
    (hmoves : Moves lib engine sync revisions sync') :
    Inv lib engine past (fun r => sent r ∨ r ∈ revisions) sync' := by
  have hmem : engine.full ∈ (engine :: past).map Engine.full :=
    List.mem_map_of_mem List.mem_cons_self
  cases hmoves with
  | idle => exact h.mono fun r hr => .inl hr
  | marked => exact h.markDirty.mono fun r hr => .inl hr
  | unchanged dirty => exact .inl h
  | changed revision dirty => exact .inr (List.mem_singleton_self _)
  | covered e allowDiff hneeds hcovers hop =>
    have hflight := (SyncSystem.needsUpdate_iff.1 hneeds).2
    exact ⟨h.1.prepare hflight hmem hop, fun s hs => .inl (h.2 s hs)⟩
  | prepared e allowDiff update hneeds hop =>
    have hflight := (SyncSystem.needsUpdate_iff.1 hneeds).2
    refine ⟨h.1.prepare hflight hmem hop, fun s hs => ?_⟩
    rcases hs with hacked | hsent
    · exact .inl (h.2 s (.inl hacked))
    · cases hsent
      exact .inr (List.mem_singleton_self _)
  | delivered e allowDiff target hne hop =>
    exact ⟨h.1.deliverUpdate hop, fun s hs => .inl (h.2 s hs)⟩
  | accepted e allowDiff target hne hflight hop =>
    refine ⟨h.1.deliverAck hop, fun s hs => ?_⟩
    rcases hs with hacked | hnone
    · cases hacked
      exact .inl (h.2 target (.inr hflight))
    · cases hnone
  | passed link dirty update window hsends hsampled hnext =>
    exact StreamInv.emit h hsends (.inr rfl) (h.reachable.next hnext)
  | sent link dirty update window hsends hnext =>
    exact StreamInv.emit h hsends (.inl rfl) (h.reachable.next hnext)
  | client link link' dirty hwindow hgiven hnext =>
    exact (StreamInv.client h (h.reachable.next hnext) hwindow hgiven).mono
      fun r hr => .inl hr
  | acked link dirty a acks window hacks hack hnext =>
    exact (StreamInv.acknowledged h hack (h.reachable.next hnext)).mono fun r hr => .inl hr

/-! ### Staying awake -/

/-- The engine will be asked for a state. -/
def dirty : Sync → Bool
  | .legacy => false
  | .independent _ dirty => dirty
  | .acked exchange _ => exchange.window.dirty
  | .streaming _ dirty => dirty

/-- The engine will be asked for a state when the base is acknowledged. -/
def Waiting : Sync → Prop
  | .streaming link _ =>
    link.window.baseAcknowledged = false ∧ link.window.hasPendingUpdate = true
  | _ => False

theorem Inv.dirty_markDirty (h : Inv lib engine past sent sync) : sync.markDirty.dirty = true := by
  cases sync with
  | legacy => exact h.elim
  | _ => rfl

end Sync

theorem hasPendingUpdate_iff :
    w.hasPendingUpdate = true ↔ ∃ t, w.latestTarget = some t ∧
      ¬ (t.epoch = w.base.epoch ∧ t.generation ≤ w.base.generation) := by
  rw [hasPendingUpdate]
  cases w.latestTarget with
  | none => simp
  | some t =>
    simp only [ne_eq, decide_not, gt_iff_lt, Bool.or_eq_true, Bool.not_eq_eq_eq_not,
      Bool.not_true, decide_eq_false_iff_not, decide_eq_true_eq, Option.some.injEq,
      exists_eq_left', not_and, not_le]
    exact ⟨fun h he => h.resolve_left (not_not.2 he), fun h => by
      by_cases he : t.epoch = w.base.epoch
      · exact .inr (h he)
      · exact .inl he⟩

/-- While the base is unacknowledged the client has acknowledged nothing newer. -/
theorem ack_le_base {link : Link} (hphase : Link.Phase link) {a : TerminalStateAck}
    {acks : List TerminalStateAck} (hacks : link.acks = a :: acks)
    (hepoch : a.epoch = link.window.base.epoch) (hacked : link.window.baseAcknowledged = false) :
    a.generation ≤ link.window.base.generation := by
  have hhead : link.session.acks = a.generation ::
      (acks.filter fun b => b.epoch = link.window.base.epoch).map TerminalStateAck.generation := by
    simp [Link.session, hacks, hepoch]
  obtain ⟨r, hr⟩ := Option.ne_none_iff_exists'.1 (hphase.session.receiver_ne_none_of_acks hhead)
  have hreceiver := hphase.session.receiver r hr
  have hle := hreceiver.ack_le a.generation (hhead ▸ List.mem_cons_self)
  exact hle.trans (hreceiver.current_le_base hacked)

/-- A state of the engine that is stale has been sent. -/
theorem StreamInv.sent_of_stale {sent : Revision → Prop} {link : Link}
    (h : StreamInv lib engine past sent link) (hknown : Known lib engine past)
    (hstale : link.window.isStale engine.viewport) : sent engine.revision := by
  obtain ⟨hcontent, -⟩ := h.reachable.inv
  obtain ⟨hnewest, -⟩ := h.admissible hknown
  have hsame := hknown.same engine List.mem_cons_self
  obtain ⟨hepoch, hgen⟩ := hstale
  have hbase := hnewest link.window.base hcontent.base hepoch.symm
  rw [← hsame]
  rcases hgen with hle | hlt | ⟨-, hsome⟩
  · -- The engine's state is the base.
    rw [← hbase.2 (le_antisymm hbase.1 hle)]
    exact h.base
  · -- No target is newer than the engine's state.
    exfalso
    rw [latestGeneration] at hlt
    cases htarget : link.window.latestTarget with
    | none =>
      rw [htarget] at hlt
      exact absurd hbase.1 (not_le.2 hlt)
    | some t =>
      rw [htarget] at hlt
      have ht := hcontent.latestTarget_isNewest htarget
      have hte := h.forward t ht.1 ⟨link.window.base, hcontent.base, hepoch.symm⟩
      exact absurd (hnewest t (List.mem_of_mem_head? ht.1) hte).1 (not_le.2 hlt)
  · obtain ⟨s, hs⟩ := Option.isSome_iff_exists.1 hsome
    obtain ⟨-, hsgen, hsepoch⟩ := hcontent.sent _ _ hs
    have hrevision : revisionOf s = revisionOf engine.viewport := by
      rw [revisionOf, revisionOf, hsgen, hsepoch, hepoch]
    rw [← hrevision]
    exact h.retained _ _ hs

/-- A branch leaves a semantic attachment awake unless the engine's revision has been sent. -/
theorem Sync.Moves.awake {sent : Revision → Prop} {sync sync' : Sync} {revisions : List Revision}
    (hmoves : Sync.Moves lib engine sync revisions sync') (h : sync.Inv lib engine past sent)
    (hknown : Known lib engine past) (hawake : sync.dirty = true ∨ sync.Waiting) :
    (sent engine.revision ∨ engine.revision ∈ revisions) ∨ sync'.dirty = true ∨ sync'.Waiting := by
  cases hmoves with
  | idle
  | delivered e allowDiff target hne hop
  | accepted e allowDiff target hne hflight hop => exact .inr hawake
  | marked => exact .inr (.inl h.dirty_markDirty)
  | unchanged dirty => exact .inl (.inl h)
  | changed revision dirty => exact .inl (.inr (List.mem_singleton_self _))
  | covered e allowDiff hneeds hcovers hop =>
    -- The acknowledged state is not newer than the engine's, so it is the engine's.
    obtain ⟨state, hstate, hepoch, hgen⟩ := hcovers
    obtain ⟨p, hp, rfl⟩ := List.mem_map.1 (h.1.acknowledged state hstate)
    obtain ⟨hle, heq⟩ := hknown.newest p hp hepoch
    rw [heq (le_antisymm hle hgen)] at hstate
    exact .inl (.inl (h.2 engine.full (.inl hstate)))
  | prepared e allowDiff update hneeds hop =>
    exact .inl (.inr (List.mem_singleton_self _))
  | passed link dirty update window hsends hsampled hnext =>
    rcases hsampled with hstale | ⟨hnews, hacked, rfl⟩ | hsent
    · exact .inl (.inl (StreamInv.sent_of_stale h hknown hstale))
    · refine .inr (.inr ⟨hacked, hasPendingUpdate_iff.2 ⟨engine.viewport, rfl, ?_⟩⟩)
      rintro ⟨hepoch, hgen⟩
      exact hnews ⟨hepoch, .inl hgen⟩
    · refine .inl (.inr ?_)
      rw [hsent, hknown.same engine List.mem_cons_self]
      exact List.mem_singleton_self _
  | sent link dirty update window hsends hnext =>
    rcases hawake with hdirty | ⟨hacked, hpending⟩
    · exact .inr (.inl hdirty)
    · -- Nothing happens while the base is unacknowledged.
      refine .inr (.inr ?_)
      obtain ⟨t, ht, hnot⟩ := hasPendingUpdate_iff.1 hpending
      cases hsends with
      | unchanged => exact ⟨hacked, hpending⟩
      | pend latest hlatest _ _ =>
        refine ⟨hacked, hasPendingUpdate_iff.2 ⟨latest, rfl, ?_⟩⟩
        rw [ht] at hlatest
        cases hlatest
        exact hnot
      | clear latest hlatest hreached =>
        rw [ht] at hlatest
        cases hlatest
        exact absurd hreached hnot
      | delta _ _ _ _ _ htrue _ _ _ _
      | keyframe _ _ _ htrue _
      | resend htrue _ => exact absurd (hacked.symm.trans htrue) (by simp)
  | client link link' dirty hwindow hgiven hnext =>
    refine .inr (hawake.imp_right fun hwaiting => ?_)
    rw [Sync.Waiting, hwindow]
    exact hwaiting
  | acked link dirty a acks window hacks hack hnext =>
    rcases hawake with hdirty | ⟨hacked, hpending⟩
    · refine .inr (.inl ?_)
      rw [Sync.dirty, show dirty = true from hdirty]
      rfl
    · -- An acknowledgement of the base leaves the pending target and marks it.
      obtain ⟨t, ht, hnot⟩ := hasPendingUpdate_iff.1 hpending
      cases hack with
      | retired _ | evicted _ _ => exact .inr (.inr ⟨hacked, hpending⟩)
      | old hepoch hgen =>
        have hkept : hasPendingUpdate { link.window with
            baseAcknowledged := link.window.baseAcknowledged ||
              decide (a.generation = link.window.base.generation)
            latestTarget := link.window.latestAfterAck a } = true := by
          refine hasPendingUpdate_iff.2 ⟨t, ?_, hnot⟩
          refine Option.filter_eq_some_iff.2 ⟨ht, ?_⟩
          rw [decide_eq_true_iff]
          rintro ⟨hte, htg⟩
          exact hnot ⟨hte.trans hepoch, htg.trans hgen⟩
        rw [Sync.dirty, Sync.Waiting, hkept]
        cases link.window.baseAcknowledged ||
            decide (a.generation = link.window.base.generation) with
        | true => exact .inr (.inl (by simp))
        | false => exact .inr (.inr ⟨rfl, rfl⟩)
      | advance state hepoch hgen hsent =>
        have hle := ack_le_base h.reachable.inv.2 hacks hepoch hacked
        exact absurd hgen (not_lt.2 hle)

end AstraShell.Attach
