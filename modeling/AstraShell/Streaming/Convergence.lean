import AstraShell.Lib.Temporal
import AstraShell.Streaming.Safety

/-!
# Convergence of the streaming link

The newest state that the sender was given is never lost. `Link.run` continues a link for ever by a
schedule of actions; `Settles` says that the schedule passes in nothing newer, delivers the
keyframes and acknowledgements that wait, and calls `rekey_latest` infinitely often. Nothing is
assumed about deltas, retries and repairs.

The argument has three rounds. An unacknowledged base is acknowledged, because its keyframe or its
acknowledgement is on the way (`Reachable.awaits`). With an acknowledged base, `rekey_latest` makes
the newest state the base. That base is then acknowledged in turn, and a client that has
acknowledged the newest state shows it. `no_lost_final_update` puts this together.
-/

set_option autoImplicit false

namespace AstraShell.Streaming

open Lib Lib.Temporal TerminalState TerminalSync Filter StreamingStateWindow
open Effect (result_check_bind result_gets_bind)

namespace Link

/-- The link at each time of a schedule of actions. -/
def run (lib : External) (l : Link) (act : ℕ → Action) : ℕ → Link :=
  Temporal.run (attempt (step lib)) l act

/-- A schedule that passes in no newer state and is fair to keyframes, acknowledgements and
`rekey_latest`. -/
structure Settles (lib : External) (l : Link) (act : ℕ → Action) : Prop where
  enabled : ∀ n, (l.run lib act n).Enabled (act n)
  quiet : ∀ n latest budget, act n = .prepare latest budget → latest ∈ l.given
  keyframes : ∀ n, (l.run lib act n).keyframes ≠ [] → ∃ m, n ≤ m ∧ act m = .deliverKeyframe
  acks : ∀ n, (l.run lib act n).acks ≠ [] → ∃ m, n ≤ m ∧ act m = .deliverAck
  rekeys : ∃ᶠ n in atTop, act n = .rekey

variable {lib : External} {l l' : Link} {act : ℕ → Action}

/-- The acknowledgement of a state. -/
def ackOf (state : State) : TerminalStateAck := ⟨state.epoch, state.generation⟩

/-! ## The base is acknowledged -/

/-- While the base is not acknowledged its keyframe or its acknowledgement is on the way. -/
def Awaits (l : Link) : Prop :=
  l.window.baseAcknowledged = false → l.window.base ∈ l.keyframes ∨ ackOf l.window.base ∈ l.acks

section

variable (h : Moves lib l l')

include h

/-- A step acknowledges the base or keeps it. -/
theorem Moves.unacked (hacked : l.window.baseAcknowledged = false) :
    l'.window.baseAcknowledged = true ∨
      l'.window.baseAcknowledged = false ∧ l'.window.base = l.window.base := by
  cases h with
  | sender given' update window hsender =>
    obtain ⟨candidate, hsends, -⟩ := hsender
    cases hsends with
    | unchanged | pend latest _ _ _ | clear latest _ _ => exact .inr ⟨hacked, rfl⟩
    | delta latest _ _ _ _ hacked' _ _ _ _
    | keyframe latest _ _ hacked' _
    | resend hacked' _ => exact absurd hacked' (by simp [hacked])
  | ack a acks window hacks hack =>
    cases hack with
    | retired _ | evicted _ _ => exact .inr ⟨hacked, rfl⟩
    | old _ _ =>
      cases l.window.baseAcknowledged || decide (a.generation = l.window.base.generation) with
      | false => exact .inr ⟨rfl, rfl⟩
      | true => exact .inl rfl
    | advance _ _ _ _ => exact .inl rfl
  | _ => exact .inr ⟨hacked, rfl⟩

/-- Keyframes wait in order; the keyframe of an unacknowledged base is answered by its
acknowledgement. -/
theorem Moves.keyframes (hphase : Phase l) :
    Grows l.keyframes l'.keyframes ∨ ∃ k, Pops k l.keyframes l'.keyframes ∧
      (l.window.baseAcknowledged = false → k = l.window.base → ackOf l.window.base ∈ l'.acks) := by
  cases h with
  | sender given' update window hsender => exact .inl ⟨_, rfl⟩
  | staleKeyframe k keyframes c hkeyframes hc hcovers =>
    refine .inr ⟨k, hkeyframes, ?_⟩
    rintro hacked rfl
    -- The client is not ahead of an unacknowledged base, so it acknowledges the base.
    have hle := (hphase.receiver_inv hc hcovers.1).current_le_base hacked
    have hgen : c.generation = l.window.base.generation := le_antisymm hle hcovers.2
    exact List.mem_append_right _ (by simp [ackOf, hcovers.1, hgen])
  | keyframe k keyframes hkeyframes hnew =>
    refine .inr ⟨k, hkeyframes, ?_⟩
    rintro - rfl
    exact List.mem_append_right _ (by simp [ackOf])
  | _ => exact .inl ⟨[], (List.append_nil _).symm⟩

/-- Acknowledgements wait in order; the one of the base acknowledges it. -/
theorem Moves.acks (hphase : Phase l) :
    Grows l.acks l'.acks ∨ ∃ a, Pops a l.acks l'.acks ∧
      (a = ackOf l.window.base → l'.window.baseAcknowledged = true) := by
  cases h with
  | sender given' update window hsender | ignored => exact .inl ⟨[], (List.append_nil _).symm⟩
  | ack a acks window hacks hack =>
    refine .inr ⟨a, hacks, ?_⟩
    rintro rfl
    cases hack with
    | retired hretired => exact absurd hretired hphase.base_not_retired
    | old _ _ => simp [ackOf]
    | evicted _ hsent =>
      obtain ⟨s, hs⟩ := (OrdMap.mem_support_iff_get? _ _).1 hphase.session.base_mem
      exact absurd (hs.symm.trans hsent) (by simp)
    | advance _ _ _ _ => rfl
  | _ => exact .inl ⟨_, rfl⟩

end

theorem Awaits.moves (h : Awaits l) (hphase : Phase l) (hmove : Moves lib l l') : Awaits l' := by
  intro hacked'
  by_cases hacked : l.window.baseAcknowledged = false
  · -- The base was awaited before and is the same.
    have hbase : l'.window.base = l.window.base := by
      rcases hmove.unacked hacked with htrue | ⟨-, hbase⟩
      · rw [htrue] at hacked'
        cases hacked'
      · exact hbase
    rw [hbase]
    rcases h hacked with hkeyframe | hwaiting
    · rcases hmove.keyframes hphase with ⟨more, hmore⟩ | ⟨k, hpops, hanswer⟩
      · exact .inl (hmore ▸ List.mem_append_left _ hkeyframe)
      · rw [hpops] at hkeyframe
        rcases List.mem_cons.1 hkeyframe with heq | hmem
        · exact .inr (hanswer hacked heq.symm)
        · exact .inl hmem
    · rcases hmove.acks hphase with ⟨more, hmore⟩ | ⟨a, hpops, hanswer⟩
      · exact .inr (hmore ▸ List.mem_append_left _ hwaiting)
      · rw [hpops] at hwaiting
        rcases List.mem_cons.1 hwaiting with heq | hmem
        · rw [hanswer heq.symm] at hacked'
          cases hacked'
        · exact .inr hmem
  · -- Only a keyframe of the new base takes the acknowledgement away.
    rw [Bool.not_eq_false] at hacked
    cases hmove with
    | sender given' update window hsender =>
      obtain ⟨candidate, hsends, -⟩ := hsender
      cases hsends with
      | keyframe latest _ _ _ _
      | resend _ _ => exact .inl (List.mem_append_right _ (List.mem_singleton_self _))
      | delta latest _ _ _ _ _ _ _ _ _ | _ => exact absurd (hacked.symm.trans hacked') (by simp)
    | ack a acks window hacks hack =>
      cases hack with
      | old _ _ => exact absurd hacked' (by simp [hacked])
      | advance _ _ _ _ => exact absurd hacked' (by simp)
      | _ => exact absurd (hacked.symm.trans hacked') (by simp)
    | _ => exact absurd (hacked.symm.trans hacked') (by simp)

theorem Reachable.awaits (h : Reachable lib l) : Awaits l := by
  induction h with
  | start h =>
    obtain ⟨-, -, rfl⟩ := start_eq_ok h
    exact fun _ => .inl (List.mem_singleton_self _)
  | next h hnext ih =>
    obtain ⟨hcontent, hphase⟩ := h.inv
    exact ih.moves hphase (next_moves hcontent hnext)

/-! ## Runs -/

theorem run_succ (lib : External) (l : Link) (act : ℕ → Action) (n : ℕ) :
    l.run lib act (n + 1) = attempt (step lib) (l.run lib act n) (act n) := rfl

theorem Settles.reachable (hs : Settles lib l act) (h : Reachable lib l) (n : ℕ) :
    Reachable lib (l.run lib act n) :=
  run_attempt_invariant h (fun n _ ih hok => ih.next ⟨act n, hs.enabled n, hok⟩) n

theorem Settles.moves (hs : Settles lib l act) (h : Reachable lib l) (n : ℕ) :
    Moves lib (l.run lib act n) (l.run lib act (n + 1)) := by
  have hcontent := (hs.reachable h n).inv.1
  rw [run_succ]
  rcases attempt_cases (step lib) (l.run lib act n) (act n) with hok | hsame
  · exact next_moves hcontent ⟨act n, hs.enabled n, hok⟩
  · rw [hsame]
    exact .ignored

/-- Only `prepare_update` passes a state in. -/
theorem step_given {a : Action} (h : l.step lib a = .ok l') :
    l'.given = l.given ∨
      ∃ latest budget, a = .prepare latest budget ∧ l'.given = latest :: l.given := by
  cases a with
  | prepare latest budget =>
    obtain ⟨⟨_, _⟩, -, hresult⟩ := bind_eq_ok_iff.1 h
    cases hresult
    exact .inr ⟨latest, budget, rfl, rfl⟩
  | retry budget | rekey | repair request | deliverDelta delta =>
    obtain ⟨⟨_, _⟩, -, hresult⟩ := bind_eq_ok_iff.1 h
    cases hresult
    exact .inl rfl
  | deliverKeyframe | deliverAck =>
    rw [step] at h
    split at h
    · cases h
    · obtain ⟨⟨_, _⟩, -, hresult⟩ := bind_eq_ok_iff.1 h
      cases hresult
      exact .inl rfl

/-- The newest given state stays the newest. -/
theorem Settles.newest (hs : Settles lib l act) {newest : State}
    (hnewest : IsNewest l.given newest) (n : ℕ) :
    IsNewest (l.run lib act n).given newest ∧ ∀ s ∈ l.given, s ∈ (l.run lib act n).given := by
  induction n with
  | zero => exact ⟨hnewest, fun s hs => hs⟩
  | succ n ih =>
    obtain ⟨hn, hsub⟩ := ih
    rw [run_succ]
    rcases attempt_cases (step lib) (l.run lib act n) (act n) with hok | hsame
    · rcases step_given hok with hgiven | ⟨latest, budget, hact, hgiven⟩
      · rw [hgiven]
        exact ⟨hn, hsub⟩
      · -- The state passed in is an earlier one and not older than the newest: it is the newest.
        have henabled := hs.enabled n
        rw [hact] at henabled
        have hmem := hsub latest (hs.quiet n latest budget hact)
        have hepoch := henabled.2 newest hn.1 ⟨latest, hmem, rfl⟩
        have hle := hn.2 latest hmem hepoch.symm
        obtain ⟨hge, heq⟩ := henabled.1 newest (List.mem_of_mem_head? hn.1) hepoch
        obtain rfl := heq (le_antisymm hge hle)
        rw [hgiven]
        refine ⟨⟨rfl, fun s hs => ?_⟩, fun s hs => List.mem_cons_of_mem _ (hsub s hs)⟩
        rcases List.mem_cons.1 hs with rfl | hs
        · exact fun _ => le_rfl
        · exact hn.2 s hs
    · rw [hsame]
      exact ⟨hn, hsub⟩

/-! ## The deliveries and calls that help -/

section

variable (hcontent : Content lib l) {newest : State}

include hcontent

theorem attempt_deliverKeyframe {k : State} {keyframes : List State}
    (hkeyframes : l.keyframes = k :: keyframes) :
    (attempt (step lib) l .deliverKeyframe).keyframes = keyframes := by
  have hvalid := hcontent.valid k (hcontent.keyframes k (hkeyframes ▸ List.mem_cons_self))
  obtain ⟨⟨disposition, replica⟩, hop⟩ : ∃ r, l.replica.applyKeyframe lib k = .ok r := by
    rw [StreamingReplica.applyKeyframe, StreamingReplica.InPlace.applyKeyframe, hvalid,
      result_check_bind, result_gets_bind, id_eq]
    split <;> exact ⟨_, rfl⟩
  rw [attempt, step, hkeyframes]
  dsimp only
  rw [hop]
  rfl

theorem attempt_deliverAck (hphase : Phase l) {a : TerminalStateAck} {acks : List TerminalStateAck}
    (hacks : l.acks = a :: acks) : (attempt (step lib) l .deliverAck).acks = acks := by
  obtain ⟨⟨disposition, window⟩, hop⟩ :=
    acknowledge_accepts hcontent hphase (hacks ▸ List.mem_cons_self : a ∈ l.acks)
  rw [attempt, step, hacks]
  dsimp only
  rw [hop]
  rfl

theorem attempt_rekey (hacked : l.window.baseAcknowledged = true)
    (hnewest : IsNewest l.given newest) (hbase : l.window.base ≠ newest) :
    (attempt (step lib) l .rekey).window.base = newest := by
  have hlatest : l.window.latestTarget = some newest :=
    hcontent.latestTarget_of_base_ne hnewest hbase
  have hreached : ¬ (newest.epoch = l.window.base.epoch ∧
      newest.generation ≤ l.window.base.generation) := fun h =>
    hbase (hcontent.base_eq_of_reached hnewest h)
  have hvalid := hcontent.valid newest (List.mem_of_mem_head? hnewest.1)
  have hop : l.window.rekeyLatest lib =
      .ok (some (.reliableKeyframe newest), l.window.installed newest) := by
    rw [rekeyLatest, InPlace.rekeyLatest, result_gets_bind, id_eq, if_neg (by simp [hacked]),
      hlatest]
    dsimp only
    rw [if_neg hreached, installKeyframe_result hvalid hacked]
  rw [attempt, step, hop]
  rfl

/-! ## The newest state becomes the base -/

/-- A state that can be sent is the newest one. -/
theorem Offered.candidate_newest {given' : List State} {window : StreamingStateWindow}
    {candidate : Option State} {latest newest : State}
    (h : Offered lib l window given' candidate) (hcandidate : candidate = some latest)
    (hnewest : IsNewest given' newest) : latest = newest := by
  cases h with
  | waiting => exact isNewest_unique (hcontent.latestTarget_isNewest hcandidate) hnewest
  | passed latest' _ _ _ =>
    cases hcandidate
    exact Option.some.inj hnewest.1

/-- An acknowledged base stays acknowledged until the newest state becomes the base. -/
theorem Moves.acked (h : Moves lib l l')
    (hnewest : IsNewest l.given newest) (hnewest' : IsNewest l'.given newest)
    (hacked : l.window.baseAcknowledged = true) (hbase : l.window.base ≠ newest) :
    l'.window.base = newest ∨ l'.window.baseAcknowledged = true := by
  cases h with
  | sender given' update window hsender =>
    obtain ⟨candidate, hsends, hoffered⟩ := hsender
    cases hsends with
    | unchanged | clear latest _ _ | delta latest _ _ _ _ _ _ _ _ _ => exact .inr hacked
    | pend latest _ _ hfalse => exact absurd (hacked.symm.trans hfalse) (by simp)
    | keyframe latest hcandidate _ _ _ =>
      exact .inl (hoffered.candidate_newest hcontent hcandidate hnewest')
    | resend _ hreached =>
      have hlatest := hcontent.latestTarget_of_base_ne hnewest hbase
      exact absurd (hcontent.base_eq_of_reached hnewest (hreached newest hlatest)) hbase
  | ack a acks window hacks hack =>
    cases hack with
    | old _ _ => exact .inr (by simp [hacked])
    | advance _ _ _ _ => exact .inr rfl
    | _ => exact .inr hacked
  | _ => exact .inr hacked

/-- The newest state stays the base. -/
theorem Moves.base_newest (h : Moves lib l l')
    (hnewest : IsNewest l.given newest) (hnewest' : IsNewest l'.given newest)
    (hbase : l.window.base = newest) : l'.window.base = newest := by
  cases h with
  | sender given' update window hsender =>
    obtain ⟨candidate, hsends, hoffered⟩ := hsender
    cases hsends with
    | keyframe latest hcandidate _ _ _ =>
      exact hoffered.candidate_newest hcontent hcandidate hnewest'
    | delta latest _ _ _ _ _ _ _ _ _ => exact hbase
    | _ => exact hbase
  | ack a acks window hacks hack =>
    cases hack with
    | advance acknowledged _ hgen hsent =>
      obtain ⟨hmem, hsame, hepoch⟩ := hcontent.sent _ _ hsent
      rw [hbase] at hgen hepoch
      have hle := hnewest.2 acknowledged hmem hepoch
      omega
    | _ => exact hbase
  | _ => exact hbase

/-- With the newest state as base nothing is pending. -/
theorem Content.not_pending (hnewest : IsNewest l.given newest) (hbase : l.window.base = newest) :
    l.window.hasPendingUpdate = false := by
  rw [hasPendingUpdate]
  cases hlatest : l.window.latestTarget with
  | none => rfl
  | some t =>
    obtain rfl := isNewest_unique (hcontent.latestTarget_isNewest hlatest) hnewest
    simp [hbase]

/-! ## The newest state is shown -/

/-- A client that has acknowledged the newest state shows it. -/
theorem Phase.shows_newest (hphase : Phase l)
    (hnewest : IsNewest l.given newest) (hbase : l.window.base = newest)
    (hacked : l.window.baseAcknowledged = true) : l.replica.current = some newest := by
  obtain ⟨c, hc, hepoch⟩ := hphase.synced_of_acked hacked
  have hge : l.window.base.generation ≤ c.generation :=
    (hphase.receiver_inv hc hepoch).base_le_current hacked
  rw [hbase] at hepoch hge
  have hmem := hcontent.current_given hc
  have hle := hnewest.2 c hmem hepoch
  rw [hc, hcontent.unique c hmem newest (List.mem_of_mem_head? hnewest.1) hepoch
    (le_antisymm hle hge)]

/-- The newest state stays shown. -/
theorem Moves.shows_newest (h : Moves lib l l') (hphase : Phase l)
    (hnewest : IsNewest l.given newest) (hbase : l.window.base = newest)
    (hc : l.replica.current = some newest) : l'.replica.current = some newest := by
  cases h with
  | keyframe k keyframes hkeyframes hnew =>
    -- No keyframe on the way is newer.
    exfalso
    have hmem : k ∈ l.keyframes := hkeyframes ▸ List.mem_cons_self
    have hepoch := hphase.synced newest hc (by rw [hbase]) k hmem
    rw [hbase] at hepoch
    exact hnew ⟨newest, hc, hepoch.symm, hnewest.2 k (hcontent.keyframes k hmem) hepoch⟩
  | delta d b t c hd ht hcompact hcurrent hepoch hlt hretained =>
    exfalso
    rw [hc] at hcurrent
    cases hcurrent
    have hle := hnewest.2 t ht hepoch.symm
    omega
  | _ => exact hc

end

/-! ## Convergence -/

/-- A link at each time, on which the keyframes and the acknowledgements that wait are delivered. -/
structure Flows (lib : External) (link : ℕ → Link) : Prop where
  reachable : ∀ n, Reachable lib (link n)
  moves : ∀ n, Moves lib (link n) (link (n + 1))
  keyframes : ∀ n, (link n).keyframes ≠ [] →
    ∃ m, n ≤ m ∧ ∃ k, Pops k (link m).keyframes (link (m + 1)).keyframes
  acks : ∀ n, (link n).acks ≠ [] → ∃ m, n ≤ m ∧ ∃ a, Pops a (link m).acks (link (m + 1)).acks

namespace Flows

variable {link : ℕ → Link}

/-- It is enough that the delivery of what waits is tried again and again. -/
theorem of_fair (hreachable : ∀ n, Reachable lib (link n))
    (hmoves : ∀ n, Moves lib (link n) (link (n + 1)))
    (hkeyframes : ∀ n, (link n).keyframes ≠ [] → ∃ m, n ≤ m ∧
      ((link m).keyframes ≠ [] → link (m + 1) = attempt (step lib) (link m) .deliverKeyframe))
    (hacks : ∀ n, (link n).acks ≠ [] → ∃ m, n ≤ m ∧
      ((link m).acks ≠ [] → link (m + 1) = attempt (step lib) (link m) .deliverAck)) :
    Flows lib link where
  reachable := hreachable
  moves := hmoves
  keyframes n hn := by
    refine pops_of_serve (fun n => (link n).keyframes) _ (fun n => ?_) hkeyframes
      (fun n hne hserve => ?_) hn
    · exact ((hmoves n).keyframes (hreachable n).inv.2).imp_right (.imp fun k => And.left)
    · obtain ⟨k, keyframes, hk⟩ := List.exists_cons_of_ne_nil hne
      refine ⟨k, ?_⟩
      rw [Pops, hserve hne, attempt_deliverKeyframe (hreachable n).inv.1 hk]
      exact hk
  acks n hn := by
    refine pops_of_serve (fun n => (link n).acks) _ (fun n => ?_) hacks
      (fun n hne hserve => ?_) hn
    · exact ((hmoves n).acks (hreachable n).inv.2).imp_right (.imp fun a => And.left)
    · obtain ⟨a, acks, ha⟩ := List.exists_cons_of_ne_nil hne
      refine ⟨a, ?_⟩
      rw [Pops, hserve hne, attempt_deliverAck (hreachable n).inv.1 (hreachable n).inv.2 ha]
      exact ha

/-- An unacknowledged base whose keyframe is on the way is acknowledged, or its acknowledgement is
on the way. -/
theorem leadsTo_answered (h : Flows lib link) (base : State) :
    LeadsTo
      (fun n => ((link n).window.baseAcknowledged = false ∧ (link n).window.base = base) ∧
        base ∈ (link n).keyframes)
      (fun n => (link n).window.baseAcknowledged = true ∨
        ((link n).window.baseAcknowledged = false ∧ (link n).window.base = base) ∧
          ackOf base ∈ (link n).acks) := by
  refine leadsTo_of_queue (fun n => (link n).keyframes) base
    (fun n => ∃ k, Pops k (link n).keyframes (link (n + 1)).keyframes) ?_ ?_ h.keyframes
    (fun n _ _ hpops => hpops)
  · rintro n ⟨hacked, hbase⟩ -
    rcases (h.moves n).unacked hacked with htrue | ⟨hfalse, hsame⟩
    · exact .inl (.inl htrue)
    · exact .inr ⟨hfalse, hsame.trans hbase⟩
  · rintro n ⟨hacked, hbase⟩ -
    rcases (h.moves n).keyframes (h.reachable n).inv.2 with hgrows | ⟨k, hpops, hanswer⟩
    · exact .inl hgrows
    · refine .inr ⟨k, hpops, fun hk => ?_⟩
      rcases (h.moves n).unacked hacked with htrue | ⟨hfalse, hsame⟩
      · exact .inl htrue
      · rw [hbase] at hanswer
        exact .inr ⟨⟨hfalse, hsame.trans hbase⟩, hanswer hacked hk⟩

/-- An acknowledgement of the base on the way acknowledges it. -/
theorem leadsTo_acked_of_ack (h : Flows lib link) (base : State) :
    LeadsTo
      (fun n => ((link n).window.baseAcknowledged = false ∧ (link n).window.base = base) ∧
        ackOf base ∈ (link n).acks)
      (fun n => (link n).window.baseAcknowledged = true) := by
  refine leadsTo_of_queue (fun n => (link n).acks) (ackOf base)
    (fun n => ∃ a, Pops a (link n).acks (link (n + 1)).acks) ?_ ?_ h.acks
    (fun n _ _ hpops => hpops)
  · rintro n ⟨hacked, hbase⟩ -
    rcases (h.moves n).unacked hacked with htrue | ⟨hfalse, hsame⟩
    · exact .inl htrue
    · exact .inr ⟨hfalse, hsame.trans hbase⟩
  · rintro n ⟨-, hbase⟩ -
    rcases (h.moves n).acks (h.reachable n).inv.2 with hgrows | ⟨a, hpops, hanswer⟩
    · exact .inl hgrows
    · rw [hbase] at hanswer
      exact .inr ⟨a, hpops, hanswer⟩

/-- Again and again the base is acknowledged. -/
theorem leadsTo_acked (h : Flows lib link) (n : ℕ) :
    ∃ m, n ≤ m ∧ (link m).window.baseAcknowledged = true := by
  cases hacked : (link n).window.baseAcknowledged with
  | true => exact ⟨n, le_rfl, hacked⟩
  | false =>
    have hack := h.leadsTo_acked_of_ack (link n).window.base
    rcases (h.reachable n).awaits hacked with hkeyframe | hwaiting
    · obtain ⟨m, hnm, htrue | hanswered⟩ := h.leadsTo_answered _ n ⟨⟨hacked, rfl⟩, hkeyframe⟩
      · exact ⟨m, hnm, htrue⟩
      · obtain ⟨k, hmk, htrue⟩ := hack m hanswered
        exact ⟨k, hnm.trans hmk, htrue⟩
    · exact hack n ⟨⟨hacked, rfl⟩, hwaiting⟩

end Flows

namespace Settles

theorem flows (hs : Settles lib l act) (h : Reachable lib l) : Flows lib (l.run lib act) := by
  refine .of_fair (hs.reachable h) (hs.moves h) (fun n hn => ?_) fun n hn => ?_
  · obtain ⟨m, hnm, hact⟩ := hs.keyframes n hn
    exact ⟨m, hnm, fun _ => by rw [run_succ, hact]⟩
  · obtain ⟨m, hnm, hact⟩ := hs.acks n hn
    exact ⟨m, hnm, fun _ => by rw [run_succ, hact]⟩

/-- With an acknowledged base the newest state becomes the base. -/
theorem leadsTo_base_newest (hs : Settles lib l act) (h : Reachable lib l) {newest : State}
    (hnewest : IsNewest l.given newest) :
    LeadsTo (fun n => (l.run lib act n).window.baseAcknowledged = true ∧
        (l.run lib act n).window.base ≠ newest)
      (fun n => (l.run lib act n).window.base = newest) := by
  refine leadsTo_of_helpful (fun n => act n = .rekey) ?_ ?_ ?_
  · rintro n ⟨hacked, hbase⟩ -
    by_cases hbase' : (l.run lib act (n + 1)).window.base = newest
    · exact .inl hbase'
    · have hstep := (hs.moves h n).acked (hs.reachable h n).inv.1 (hs.newest hnewest n).1
        (hs.newest hnewest (n + 1)).1 hacked hbase
      exact .inr ⟨hstep.resolve_left hbase', hbase'⟩
  · intro n _
    exact frequently_atTop.1 hs.rekeys n
  · rintro n ⟨hacked, hbase⟩ hact
    rw [run_succ, hact]
    exact attempt_rekey (hs.reachable h n).inv.1 hacked (hs.newest hnewest n).1 hbase

/-- The newest state is the base and shown, from some time on. -/
theorem eventually_shown (hs : Settles lib l act) (h : Reachable lib l) {newest : State}
    (hnewest : IsNewest l.given newest) :
    ∀ᶠ n in atTop, (l.run lib act n).window.base = newest ∧
      (l.run lib act n).replica.current = some newest := by
  have hkeep : ∀ n, (l.run lib act n).window.base = newest →
      (l.run lib act (n + 1)).window.base = newest := fun n =>
    (hs.moves h n).base_newest (hs.reachable h n).inv.1 (hs.newest hnewest n).1
      (hs.newest hnewest (n + 1)).1
  refine eventually_of_stable ?_ ?_
  · -- Once acknowledged, the newest state becomes the base, and is acknowledged in turn.
    obtain ⟨k, hbase⟩ : ∃ k, (l.run lib act k).window.base = newest := by
      obtain ⟨m, -, hacked⟩ := (hs.flows h).leadsTo_acked 0
      by_cases hbase : (l.run lib act m).window.base = newest
      · exact ⟨m, hbase⟩
      · obtain ⟨k, -, hbase'⟩ := hs.leadsTo_base_newest h hnewest m ⟨hacked, hbase⟩
        exact ⟨k, hbase'⟩
    have hstays : ∀ m, k ≤ m → (l.run lib act m).window.base = newest :=
      Nat.le_induction hbase fun m _ => hkeep m
    obtain ⟨m, hkm, hacked⟩ := (hs.flows h).leadsTo_acked k
    have hbase' := hstays m hkm
    obtain ⟨hcontent, hphase⟩ := (hs.reachable h m).inv
    exact ⟨m, hbase', hphase.shows_newest hcontent (hs.newest hnewest m).1 hbase' hacked⟩
  · rintro n ⟨hbase, hc⟩
    obtain ⟨hcontent, hphase⟩ := (hs.reachable h n).inv
    exact ⟨hkeep n hbase,
      (hs.moves h n).shows_newest hcontent hphase (hs.newest hnewest n).1 hbase hc⟩

end Settles

end Link

/-- A delta is emitted only while the base is acknowledged. -/
theorem Link.Moves.deltas {lib : External} {l l' : Link} (h : Link.Moves lib l l')
    (hdeltas : l'.deltas ≠ l.deltas) : l.window.baseAcknowledged = true := by
  cases h with
  | sender given' update window hsender =>
    obtain ⟨candidate, hsends, -⟩ := hsender
    cases hsends with
    | delta latest _ _ _ _ hacked _ _ _ _ => exact hacked
    | keyframe latest _ _ hacked _ => exact hacked
    | resend hacked _ => exact hacked
    | _ => exact absurd rfl hdeltas
  | _ => exact absurd rfl hdeltas

/-- No final update is lost. On every run the newest state passed in is the base or waits as the
latest target; when nothing newer is passed in, keyframes and acknowledgements arrive and
`rekey_latest` is called infinitely often, the replica shows it and nothing is pending from some
time on. No delta is emitted while the base is unacknowledged, and no operation fails because a
keyframe is in flight. -/
theorem no_lost_final_update (lib : External) {l : Link} (h : Link.Reachable lib l) :
    (∃ newest, Link.IsNewest l.given newest ∧
      (l.window.base = newest ∨ l.window.latestTarget = some newest) ∧
      ∀ act, Link.Settles lib l act → ∀ᶠ n in atTop,
        (l.run lib act n).replica.current = some newest ∧
          (l.run lib act n).window.hasPendingUpdate = false) ∧
    (∀ l', Link.Next lib l l' → l'.deltas ≠ l.deltas → l.window.baseAcknowledged = true) ∧
    (∀ latest budget request,
      l.window.prepareUpdate lib latest budget ≠
        .error "a reliable keyframe is already in flight" ∧
      l.window.retryLatest lib budget ≠ .error "a reliable keyframe is already in flight" ∧
      l.window.rekeyLatest lib ≠ .error "a reliable keyframe is already in flight" ∧
      l.window.repair lib request ≠ .error "a reliable keyframe is already in flight") := by
  obtain ⟨hcontent, -⟩ := h.inv
  refine ⟨?_, fun l' hnext => (Link.next_moves hcontent hnext).deltas, ?_⟩
  · obtain ⟨newest, hnewest, hlatest⟩ := hcontent.newest
    refine ⟨newest, hnewest, hlatest.symm.imp_left And.right, fun act hs => ?_⟩
    filter_upwards [hs.eventually_shown h hnewest] with n hn
    exact ⟨hn.2, (hs.reachable h n).inv.1.not_pending (hs.newest hnewest n).1 hn.1⟩
  · intro latest budget request
    exact ⟨notInFlight_of_wp prepareUpdate_spec, notInFlight_of_wp retryLatest_spec,
      notInFlight_of_wp rekeyLatest_spec, notInFlight_of_wp repair_spec⟩

/-! ## A run -/

/-- The smallest terminal changes its epoch while its first keyframe is on the way. -/
def pendingLink : Link :=
  okValue (firstLink.step plainLibrary (.prepare (blankState 1 1) 1200)) (by decide +kernel)

theorem pendingLink_reachable : Link.Reachable plainLibrary pendingLink := by
  have hfirst : Link.Reachable plainLibrary firstLink := .start (eq_ok_okValue _ _)
  refine hfirst.next ⟨.prepare (blankState 1 1) 1200, ?_, eq_ok_okValue _ _⟩
  have hgiven : firstLink.given = [blankState 0 1] := by decide +kernel
  rw [Link.Enabled, hgiven]
  refine ⟨fun s hs hepoch => ?_, ?_⟩
  · rw [List.mem_singleton.1 hs] at hepoch
    exact absurd hepoch (by decide)
  · rintro newest - ⟨s, hs, hepoch⟩
    rw [List.mem_singleton.1 hs] at hepoch
    exact absurd hepoch (by decide)

/-- Both keyframes are delivered and acknowledged; then only `rekey_latest` is called. -/
def settlingSchedule : ℕ → Action
  | 0 => .deliverKeyframe
  | 1 => .deliverAck
  | 2 => .rekey
  | 3 => .deliverKeyframe
  | 4 => .deliverAck
  | _ => .rekey

/-- With no latest target `rekey_latest` does nothing. -/
theorem Link.attempt_rekey_idle {lib : External} {l : Link} (h : l.window.latestTarget = none) :
    attempt (Link.step lib) l .rekey = l := by
  have hop : l.window.rekeyLatest lib = .ok (none, l.window) := by
    rw [rekeyLatest, InPlace.rekeyLatest, result_gets_bind, id_eq, h]
    split <;> rfl
  apply attempt_of_ok
  rw [Link.step, hop]
  show Except.ok (l.emit none l.window) = .ok l
  simp [Link.emit]

theorem settlingSchedule_idle {n : ℕ} (hn : 5 ≤ n) :
    pendingLink.run plainLibrary settlingSchedule n =
      pendingLink.run plainLibrary settlingSchedule 5 := by
  refine run_of_fixed (fun m hm => ?_) hn
  obtain ⟨m, rfl⟩ := Nat.exists_eq_add_of_le' hm
  exact Link.attempt_rekey_idle (by decide +kernel)

theorem settlingSchedule_cases (n : ℕ) : settlingSchedule n = .deliverKeyframe ∨
    settlingSchedule n = .deliverAck ∨ settlingSchedule n = .rekey := by
  unfold settlingSchedule
  split <;> simp

theorem settlingSchedule_settles : Link.Settles plainLibrary pendingLink settlingSchedule where
  enabled n := by
    rcases settlingSchedule_cases n with h | h | h <;> rw [h] <;> trivial
  quiet n latest budget hact := by
    rcases settlingSchedule_cases n with h | h | h <;> rw [h] at hact <;> cases hact
  keyframes n hne := by
    rcases Nat.lt_or_ge n 4 with hlt | hge
    · exact ⟨3, by omega, rfl⟩
    · -- The second keyframe was the last one.
      exfalso
      apply hne
      rcases Nat.eq_or_lt_of_le hge with rfl | hlt
      · decide +kernel
      · rw [settlingSchedule_idle hlt]
        decide +kernel
  acks n hne := by
    rcases Nat.lt_or_ge n 5 with hlt | hge
    · exact ⟨4, by omega, rfl⟩
    · exfalso
      apply hne
      rw [settlingSchedule_idle hge]
      decide +kernel
  rekeys := frequently_atTop.2 fun n => ⟨n + 5, by omega, rfl⟩

theorem pendingLink_converges : ∃ newest, Link.IsNewest pendingLink.given newest ∧
    ∀ᶠ n in atTop,
      (pendingLink.run plainLibrary settlingSchedule n).replica.current = some newest := by
  obtain ⟨newest, hnewest, -, hrun⟩ := (no_lost_final_update plainLibrary pendingLink_reachable).1
  exact ⟨newest, hnewest,
    (hrun settlingSchedule settlingSchedule_settles).mono fun n hn => hn.1⟩

end AstraShell.Streaming
