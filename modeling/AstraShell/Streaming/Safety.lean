import Mathlib.Logic.Relation
import AstraShell.Streaming.LinkSession

/-!
# Safety of the streaming link

`Link.Reachable.inv` carries the invariants of `LinkContent` and `LinkSession` along every run.
`streaming_link_safe` reads off what the two ends rely on: the replica shows only states the sender
was given, in increasing order inside an epoch; a delivered delta is applied or stale; and no
acknowledgement is an error.
-/

set_option autoImplicit false

namespace AstraShell.Streaming

open Lib TerminalState TerminalSync StreamingStateWindow

namespace Link

variable {lib : External} {l l' : Link}

theorem Phase.start {initial : State} {terminalId attachmentId : String} {version : Nat}
    (h : start lib initial terminalId attachmentId version = .ok l) : Phase l := by
  obtain ⟨-, -, rfl⟩ := start_eq_ok h
  refine {
    base_not_retired := List.not_mem_nil
    retired_given := fun e he => absurd he List.not_mem_nil
    pending := fun t ht => by cases ht
    increasing := List.Pairwise.nil
    synced := fun c hc => by cases hc
    behind := fun _ => ⟨fun s hs => absurd hs List.not_mem_nil, [], rfl,
      fun k hk => absurd hk List.not_mem_nil⟩
    left := fun c hc => by cases hc
    acks := ⟨[], [], rfl, fun _ h => absurd h List.not_mem_nil,
      fun _ h => absurd h List.not_mem_nil, fun _ => rfl⟩
    started := fun _ => rfl
    session := ?_
    old := fun c hc => by cases hc }
  have hsession := Cumulative.Session.inv_start cap_ge_two initial.generation
  have hspans : spans [] initial.epoch = ∅ :=
    Set.eq_empty_of_forall_notMem fun p ⟨d, hd, _⟩ => List.not_mem_nil hd
  simpa [Link.session, Cumulative.Session.start, top, hspans,
    StreamingReplica.receiverIn] using hsession

/-- The invariants hold on every run. -/
theorem Reachable.inv (h : Reachable lib l) : Content lib l ∧ Phase l := by
  induction h with
  | start h => exact ⟨Content.start h, Phase.start h⟩
  | next _ hnext ih =>
    obtain ⟨hcontent, hphase⟩ := ih
    have hmove := next_moves hcontent hnext
    exact ⟨hcontent.moves hmove, hphase.moves hcontent hmove⟩

theorem Reachable.trans (h : Reachable lib l) (hrun : Relation.ReflTransGen (Next lib) l l') :
    Reachable lib l' := by
  induction hrun with
  | refl => exact h
  | tail _ hnext ih => exact .next ih hnext

/-- A step only adds to the states shown. -/
theorem shown_suffix_of_moves (h : Moves lib l l') : l.shown <:+ l'.shown := by
  cases h with
  | keyframe k keyframes hkeyframes hnew
  | delta d b t c hd ht hcompact hc hepoch hlt hbase => exact List.suffix_cons _ _
  | _ => exact List.suffix_refl _

theorem shown_suffix_of_run (h : Reachable lib l) (hrun : Relation.ReflTransGen (Next lib) l l') :
    l.shown <:+ l'.shown := by
  induction hrun with
  | refl => exact List.suffix_refl _
  | tail hrun hnext ih =>
    have hcontent := (h.trans hrun).inv.1
    exact ih.trans (shown_suffix_of_moves (next_moves hcontent hnext))

/-- Along a run the current state of an epoch is replaced only by newer ones. -/
theorem current_increases (h : Reachable lib l) (hrun : Relation.ReflTransGen (Next lib) l l')
    {c c' : State} (hc : l.replica.current = some c) (hc' : l'.replica.current = some c')
    (hepoch : c'.epoch = c.epoch) : c' = c ∨ c.generation < c'.generation := by
  obtain ⟨hcontent', hphase'⟩ := (h.trans hrun).inv
  rw [h.inv.1.current] at hc
  rw [hcontent'.current] at hc'
  have hmem : c ∈ l'.shown := (shown_suffix_of_run h hrun).mem (List.mem_of_mem_head? hc)
  obtain ⟨rest, hrest⟩ : ∃ rest, l'.shown = c' :: rest := List.head?_eq_some_iff.1 hc'
  have hpair := hphase'.increasing
  rw [hrest] at hmem hpair
  rcases List.mem_cons.1 hmem with rfl | hmem
  · exact .inl rfl
  · exact .inr ((List.pairwise_cons.1 hpair).1 c hmem hepoch.symm)

/-- A delta that was sent is applied or stale. -/
theorem applied_or_stale (hcontent : Content lib l) (hphase : Phase l)
    {d : TerminalViewportDatagram} (hd : d ∈ l.deltas) :
    ∃ disposition replica, l.replica.applyDatagram lib d = .ok (disposition, replica) ∧
      (disposition = .applied ∨ disposition = .stale) := by
  obtain ⟨b, t, -, -, hcompact, hstale | ⟨hother, hcovers, hmissing | happlied⟩⟩ :=
    hcontent.applyDatagram_cases hd
  · exact ⟨_, _, hstale.2, .inr rfl⟩
  · -- The client is in the epoch of the delta and behind it, so it holds the base.
    exfalso
    cases hc : l.replica.current with
    | none =>
      rw [hphase.started hc] at hd
      cases hd
    | some c =>
      obtain ⟨hepoch, hlt⟩ := behind_of_not_stale hc hother hcovers
      obtain ⟨s, hs⟩ := hphase.base_retained hc hd hcompact hepoch hlt
      rw [hmissing.1] at hs
      cases hs
  · exact ⟨_, _, happlied.2, .inl rfl⟩

/-- What a valid state's acknowledgement looks like. -/
theorem ack_well_formed {state : State}
    (h : validateViewportState lib.graphemeCount state = .ok ()) :
    state.epoch.length = epochBytes ∧ 0 < state.generation := by
  have hstate := (validate_eq_ok_iff _ _).1 ((validateViewportState_eq_ok_iff _ _).1 h).1
  exact ⟨hstate.epoch, hstate.generation⟩

/-- No acknowledgement on the way is an error. -/
theorem acknowledge_accepts (hcontent : Content lib l) (hphase : Phase l) {a : TerminalStateAck}
    (ha : a ∈ l.acks) : ∃ r, l.window.acknowledge a = .ok r := by
  obtain ⟨s, hs, rfl⟩ := hcontent.acks a ha
  obtain ⟨hlen, hpos⟩ := ack_well_formed (hcontent.valid s (hcontent.shown s hs))
  refine acknowledge_ok hlen hpos ?_
  obtain ⟨olds, news, hacks, holds, hnews, -⟩ := hphase.acks
  have hmem := ha
  rw [hacks] at hmem
  rcases List.mem_append.1 hmem with hold | hnew
  · exact .inl (List.mem_of_getLast? (holds _ hold).2)
  · have hepoch : s.epoch = l.window.base.epoch := hnews _ hnew
    refine .inr ⟨hepoch, ?_⟩
    -- The client has not gone beyond the newest generation the window has.
    have hack : s.generation ∈ l.session.acks :=
      List.mem_map.2 ⟨_, List.mem_filter.2 ⟨ha, by simpa using hepoch⟩, rfl⟩
    obtain ⟨c, hc, hce⟩ : ∃ c, l.replica.current = some c ∧ c.epoch = l.window.base.epoch := by
      cases hreceiver : l.session.receiver with
      | none =>
        rw [(hphase.session.fresh hreceiver).2.2.2] at hack
        cases hack
      | some r => exact current_of_receiverIn hreceiver
    have hinv := hphase.receiver_inv hc hce
    have hle : s.generation ≤ l.window.top := (hinv.ack_le _ hack).trans hinv.current_le_top
    rw [top] at hle
    rw [latestGeneration]
    cases ht : l.window.latestTarget with
    | none =>
      rw [ht] at hle
      exact .inl hle
    | some t =>
      rw [ht] at hle
      dsimp only at hle ⊢
      split at hle
      · exact (le_max_iff.1 hle)
      · exact .inl hle

end Link

/-- Safety of the link in every run: the replica shows only states the sender was given (and the
only one of its generation), inside an epoch the generation shown strictly increases, every delta
that may be delivered is applied or stale, and every acknowledgement is accepted without an
error. -/
theorem streaming_link_safe (lib : External) {l : Link} (h : Link.Reachable lib l) :
    (∀ c, l.replica.current = some c → c ∈ l.given ∧
      ∀ s ∈ l.given, s.epoch = c.epoch → s.generation = c.generation → s = c) ∧
    (∀ l' c c', Relation.ReflTransGen (Link.Next lib) l l' → l.replica.current = some c →
      l'.replica.current = some c' → c'.epoch = c.epoch →
        c' = c ∨ c.generation < c'.generation) ∧
    (∀ d ∈ l.deltas, ∃ disposition replica,
      l.replica.applyDatagram lib d = .ok (disposition, replica) ∧
        (disposition = .applied ∨ disposition = .stale)) ∧
    (∀ ack ∈ l.acks, ∃ r, l.window.acknowledge ack = .ok r) := by
  obtain ⟨hcontent, hphase⟩ := h.inv
  refine ⟨fun c hc => ?_, fun l' c c' hrun hc hc' => Link.current_increases h hrun hc hc',
    fun d hd => Link.applied_or_stale hcontent hphase hd,
    fun a ha => Link.acknowledge_accepts hcontent hphase ha⟩
  have hmem := hcontent.current_given hc
  exact ⟨hmem, fun s hs => hcontent.unique s hs c hmem⟩

/-! ## A run -/

/-- Libraries for runs on fixed inputs. -/
def plainLibrary : External where
  graphemeCount := fun _ => 1
  encodeToVec := fun _ => []
  sha256 := fun bytes => bytes
  compressToBuffer := fun _ _ => none

/-- The link of the smallest terminal. -/
def firstLink : Link :=
  okValue (Link.start plainLibrary (blankState 0 1) "t" "a" 2) (by decide +kernel)

/-- The initial keyframe has arrived. -/
def shownLink : Link := okValue (firstLink.step plainLibrary .deliverKeyframe) (by decide +kernel)

/-- The client's acknowledgement has arrived. -/
def acknowledgedLink : Link := okValue (shownLink.step plainLibrary .deliverAck) (by decide +kernel)

/-- The next state has been sent as a delta. -/
def deltaLink : Link :=
  okValue (acknowledgedLink.step plainLibrary (.prepare (blankState 0 2) 1200))
    (by decide +kernel)

theorem deltaLink_reachable : Link.Reachable plainLibrary deltaLink := by
  have hfirst : Link.Reachable plainLibrary firstLink := .start (eq_ok_okValue _ _)
  have hshown : Link.Reachable plainLibrary shownLink :=
    hfirst.next ⟨.deliverKeyframe, trivial, eq_ok_okValue _ _⟩
  have hacknowledged : Link.Reachable plainLibrary acknowledgedLink :=
    hshown.next ⟨.deliverAck, trivial, eq_ok_okValue _ _⟩
  refine hacknowledged.next ⟨.prepare (blankState 0 2) 1200, ?_, eq_ok_okValue _ _⟩
  have hgiven : acknowledgedLink.given = [blankState 0 1] := by decide +kernel
  rw [Link.Enabled, hgiven]
  refine ⟨fun s hs _ => ?_, fun newest hnewest _ => ?_⟩
  · rw [List.mem_singleton.1 hs]
    exact ⟨by decide, fun h => absurd h (by decide)⟩
  · cases hnewest
    rfl

theorem deltaLink_safe : deltaLink.deltas.length = 1 ∧
    ∀ d ∈ deltaLink.deltas, ∃ disposition replica,
      deltaLink.replica.applyDatagram plainLibrary d = .ok (disposition, replica) ∧
        (disposition = .applied ∨ disposition = .stale) :=
  ⟨by decide +kernel, (streaming_link_safe plainLibrary deltaLink_reachable).2.2.1⟩

end AstraShell.Streaming
