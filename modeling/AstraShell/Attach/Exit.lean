import AstraShell.Attach.Loop
import AstraShell.Streaming.Safety

/-!
# Attachments and the exit of the child

When the child monitor has an exit code it writes it to the terminal information and then sends
`Exited` to the attachments. An attachment that reads the information before the first and
subscribes after the second never hears of it (`exit_can_be_missed`).

The exit reaches every attachment (`exit_reaches_attachment`) in the runs whose steps are `Timely`:
no channel is subscribed to, first or again, by an attachment that takes the terminal to be running
when `Exited` is already in the channel, and `Exited` is not pushed out of the channel before a
live attachment has read it. `ExitInv` is the invariant of these runs: `Exited` is ahead of every
live attachment and is kept for it.
-/

set_option autoImplicit false

namespace AstraShell.Attach

open Lib Lib.Temporal TerminalState Streaming Attachment

/-! ## The exit in the channel -/

/-- The exit code the monitor has obtained. -/
def Monitor.code? : Monitor → Option Int
  | .exited code => some code
  | .marked code => some code
  | .announced code => some code
  | _ => none

namespace Host

/-- The action sends an event. -/
def sends (s : Host) : Action → Bool
  | .output _ _ => true
  | .publish _ => true
  | .monitor =>
    match s.monitor with
    | .marked _ => true
    | .lost _ => true
    | _ => false
  | _ => false

variable {lib : External} {s : Host} {a : Action} {i : ℕ} {x x' : Attachment}

/-- What an action sends, at most one event, and what it announces. -/
structure Publishes (lib : External) (s : Host) (a : Action) (s' : Host) (sent : List PtyEvent) :
    Prop where
  events : s'.events = s.events ++ sent
  length : sent.length ≤ 1
  sends : sent ≠ [] → s.sends a = true
  announced : s.Enabled lib a → ∀ code, s'.monitor = .announced code ↔
    .exited code ∈ sent ∨ s.monitor = .announced code

theorem Publishes.nothing {s' : Host} (hevents : s'.events = s.events)
    (hmonitor : ∀ code, s'.monitor = .announced code ↔ s.monitor = .announced code) :
    Publishes lib s a s' [] :=
  ⟨by rw [hevents, List.append_nil], Nat.zero_le _, fun h => absurd rfl h,
    by simpa using fun _ => hmonitor⟩

theorem publishes (lib : External) (s : Host) (a : Action) :
    ∃ sent, Publishes lib s a (s.step lib a) sent := by
  cases a with
  | output bytes engine =>
    exact ⟨[.output bytes], rfl, le_rfl, fun _ => rfl, by simp [step, send, moved]⟩
  | publish event =>
    refine ⟨[event], rfl, le_rfl, fun _ => rfl, fun henabled => ?_⟩
    have hother : ∀ code, .exited code ≠ event := fun code => (henabled.1 code).symm
    simp [step, send, hother]
  | childExits code | waitFails message =>
    rw [step]
    split
    next hwaiting => exact ⟨[], .nothing rfl (by simp [hwaiting])⟩
    · exact ⟨[], .nothing rfl fun _ => Iff.rfl⟩
  | monitor =>
    rw [step, monitorStep]
    cases hmonitor : s.monitor with
    | exited code | failed message => exact ⟨[], .nothing rfl (by simp [hmonitor])⟩
    | marked code =>
      exact ⟨[.exited code], rfl, le_rfl, by simp [sends, hmonitor],
        by simp [send, hmonitor, eq_comm]⟩
    | lost message =>
      exact ⟨[.error message], rfl, le_rfl, by simp [sends, hmonitor],
        by simp [send, hmonitor]⟩
    | _ => exact ⟨[], .nothing rfl fun _ => Iff.rfl⟩
  | attach attachmentId kind allowsClipboard => exact ⟨[], .nothing rfl fun _ => Iff.rfl⟩
  | turn j t => cases t <;> exact ⟨[], .nothing rfl fun _ => Iff.rfl⟩

/-- Every step keeps the channel's history. -/
theorem getElem?_step (lib : External) (a : Action) {p : ℕ} {event : PtyEvent}
    (h : s.events[p]? = some event) : (s.step lib a).events[p]? = some event := by
  obtain ⟨sent, hsent⟩ := publishes lib s a
  rw [hsent.events, List.getElem?_append_left (List.getElem?_eq_some_iff.1 h).1, h]

theorem step_monitor_of_ne (ha : a ≠ .monitor) (hwaiting : s.monitor ≠ .waiting) :
    (s.step lib a).monitor = s.monitor := by
  cases a with
  | monitor => exact absurd rfl ha
  | childExits code | waitFails message => rw [step, if_neg hwaiting]
  | turn j t => cases t <;> rfl
  | _ => rfl

/-- The monitor keeps its exit code. -/
theorem step_code {code : Int} (h : s.monitor.code? = some code) :
    (s.step lib a).monitor.code? = some code := by
  by_cases ha : a = .monitor
  · subst ha
    rw [step, monitorStep]
    cases hmonitor : s.monitor <;> rw [hmonitor] at h <;> cases h
    · rfl
    · rfl
    · rw [hmonitor]
      rfl
  · rw [step_monitor_of_ne ha, h]
    intro hwaiting
    rw [hwaiting] at h
    cases h

end Host

/-! ## What a turn does to an attachment -/

namespace Attachment

variable {lib : External} {s : Host} {x : Attachment} {t : Turn}

/-- A turn that makes an attachment live subscribes at the end of the channel. -/
theorem turn_to_live (hphase : x.phase ≠ .live) (hlive : (x.turn lib s t).phase = .live) :
    t = .advance ∧ (x.phase = .informed ∧ x.info.status = .running ∨ x.phase = .lagged) ∧
      (x.turn lib s t).cursor = s.events.length := by
  have hcases := turn_cases lib s x t
  generalize x.turn lib s t = y at hcases hlive ⊢
  cases hcases with
  | leaves _ hleft _ =>
    rw [hlive] at hleft
    cases hleft
  | advances ht _ =>
    refine ⟨ht, ?_⟩
    have hcases := advance_cases lib s x
    generalize x.advance lib s = y at hcases hlive ⊢
    cases hcases with
    | entered sync hphase hstart hrunning => exact ⟨.inl ⟨hphase, hrunning⟩, rfl⟩
    | resubscribed hphase => exact ⟨.inr hphase, rfl⟩
    | idle _ => exact absurd hlive hphase
    | _ => cases hlive
  | receives _ h | works _ _ _ h => exact absurd h hphase
  | idle _ => exact absurd hlive hphase

/-- A legacy attachment that has lagged waits for its new subscription. -/
theorem turn_of_lagged (lib : External) (s : Host) (t : Turn) (hlagged : x.phase = .lagged) :
    (x.turn lib s t).phase = .left ∨ (x.turn lib s t).phase = .lagged ∨
      (t = .advance ∧ (x.turn lib s t).phase = .live) := by
  have hcases := turn_cases lib s x t
  generalize x.turn lib s t = y at hcases
  cases hcases with
  | leaves _ hleft _ => exact .inl hleft
  | advances ht _ =>
    refine .inr (.inr ⟨ht, ?_⟩)
    rw [advance, hlagged]
    rfl
  | receives _ h | works _ _ _ h => exact absurd h (by simp [hlagged])
  | idle _ => exact .inr (.inl hlagged)

end Attachment

/-! ## Timely runs -/

namespace Host

variable {lib : External} {s s' : Host} {a : Action} {i : ℕ} {x : Attachment}

/-- The state before an action does not let it lose `Exited`. -/
structure Timely (s : Host) (a : Action) : Prop where
  /-- Nobody who takes the terminal to be running subscribes after `Exited`. -/
  subscribes : ∀ i x, a = .turn i .advance → s.attachments[i]? = some x →
    x.phase = .informed ∧ x.info.status = .running ∨ x.phase = .lagged →
    ∀ code, .exited code ∉ s.events
  /-- No event pushes out an `Exited` that a live attachment has not read. -/
  keeps : ∀ i x p code, s.sends a = true → s.Live i x → s.events[p]? = some (.exited code) →
    s.events.length < p + eventCapacity

/-- `Exited` in the channel is what the monitor announced, and is ahead of every live attachment. -/
structure ExitInv (s : Host) : Prop where
  announced : ∀ code, .exited code ∈ s.events ↔ s.monitor = .announced code
  cursor : ∀ i x, s.Live i x → x.cursor ≤ s.events.length
  ahead : ∀ i x p code, s.Live i x → s.events[p]? = some (.exited code) →
    x.cursor ≤ p ∧ s.events.length ≤ p + eventCapacity

theorem exitInv_start (terminalId : String) (engine : Engine) :
    ExitInv (start terminalId engine) where
  announced := fun code => by simp [start]
  cursor := fun i x h => absurd h.1 (by simp [start])
  ahead := fun i x p code h => absurd h.1 (by simp [start])

/-- A turn of a live attachment that stays: it goes on at its place, reads on up to an `Exited`
that is kept for it, has lagged or has read `Exited`. -/
theorem Live.turn (hlive : s.Live i x) (t : Turn) (hstays : (x.turn lib s t).phase ≠ .left) :
    ((x.turn lib s t).phase = .live ∧ (x.turn lib s t).cursor = x.cursor ∧
      (t = .receive → s.events.length ≤ x.cursor)) ∨
    ((x.turn lib s t).phase = .live ∧ x.cursor < (x.turn lib s t).cursor ∧
      (x.turn lib s t).cursor ≤ s.events.length ∧
      ∀ p code, s.events[p]? = some (.exited code) → x.cursor ≤ p →
        s.events.length ≤ p + eventCapacity → (x.turn lib s t).cursor ≤ p) ∨
    (x.turn lib s t).phase = .lagged ∨
    ((x.turn lib s t).phase ≠ .live ∧
      ∃ code, .exited code ∈ s.events ∧ .exited code ∈ (x.turn lib s t).emitted) := by
  have hcases := turn_cases lib s x t
  generalize x.turn lib s t = y at hcases hstays
  cases hcases with
  | leaves _ hleft _ => exact absurd hleft hstays
  | advances _ h | idle h => exact absurd hlive.2 h
  | works _ _ ht _ => exact .inl ⟨hlive.2, rfl, fun h => absurd h ht⟩
  | receives _ _ =>
    have hreceives := receive_cases s x
    generalize x.receive s = y at hreceives
    cases hreceives with
    | waits hread => exact .inl ⟨hlive.2, rfl, fun _ => hread⟩
    | handled event hevent =>
      by_cases hexited : ∃ code, event = .exited code
      · obtain ⟨code, rfl⟩ := hexited
        refine .inr (.inr (.inr ⟨nofun, code, List.mem_of_getElem? hevent, ?_⟩))
        exact List.mem_append_right _ (List.mem_append_right _ (List.mem_singleton_self _))
      · have hother := handle_of_ne_exited (s := s)
          (x := { x with cursor := x.cursor + 1 }) fun code heq => hexited ⟨code, heq⟩
        rw [hother.1, hother.2]
        refine .inr (.inl ⟨hlive.2, Nat.lt_succ_self _, (List.getElem?_eq_some_iff.1 hevent).1,
          fun p code hp hle _ => Nat.lt_of_le_of_ne hle ?_⟩)
        rintro rfl
        exact hexited ⟨code, Option.some.inj (hevent.symm.trans hp)⟩
    | dropped _ _ => exact .inr (.inr (.inl rfl))
    | skipped hlag _ =>
      exact .inr (.inl ⟨hlive.2, by dsimp only; omega, Nat.sub_le _ _,
        fun p code _ _ hkept => by dsimp only; omega⟩)

/-- A turn keeps a live attachment behind `Exited`. -/
theorem ExitInv.turn (h : ExitInv s) {t : Turn} (htimely : Timely s (.turn i t))
    (hx : s.attachments[i]? = some x) (hlive : (x.turn lib s t).phase = .live) :
    (x.turn lib s t).cursor ≤ s.events.length ∧
      ∀ p code, s.events[p]? = some (.exited code) →
        (x.turn lib s t).cursor ≤ p ∧ s.events.length ≤ p + eventCapacity := by
  by_cases hphase : x.phase = .live
  · have hcursor := h.cursor i x ⟨hx, hphase⟩
    have hahead := fun p code => h.ahead i x p code ⟨hx, hphase⟩
    have hstays : (x.turn lib s t).phase ≠ .left := by simp [hlive]
    rcases Live.turn ⟨hx, hphase⟩ t hstays with ⟨-, hsame, -⟩ | ⟨-, -, hend, hkept⟩ | hlagged |
      ⟨hnot, -⟩
    · rw [hsame]
      exact ⟨hcursor, hahead⟩
    · refine ⟨hend, fun p code hp => ?_⟩
      obtain ⟨hle, hcapacity⟩ := hahead p code hp
      exact ⟨hkept p code hp hle hcapacity, hcapacity⟩
    · rw [hlive] at hlagged
      cases hlagged
    · exact absurd hlive hnot
  · obtain ⟨rfl, hfrom, hend⟩ := turn_to_live hphase hlive
    refine ⟨hend.le, fun p code hp => ?_⟩
    exact absurd (List.mem_of_getElem? hp) (htimely.subscribes i x rfl hx hfrom code)

theorem ExitInv.step (h : ExitInv s) (henabled : s.Enabled lib a) (htimely : Timely s a) :
    ExitInv (s.step lib a) := by
  obtain ⟨sent, hsent⟩ := publishes lib s a
  -- A live attachment is behind what was in the channel before the action.
  have hbefore : ∀ i x, (s.step lib a).Live i x → x.cursor ≤ s.events.length ∧
      ∀ p code, s.events[p]? = some (.exited code) →
        x.cursor ≤ p ∧ s.events.length ≤ p + eventCapacity := by
    intro i x hlive
    rcases hlive.before with ⟨-, hlive⟩ | ⟨y, t, rfl, hy, rfl⟩
    · exact ⟨h.cursor i x hlive, fun p code hp => h.ahead i x p code hlive hp⟩
    · exact h.turn htimely hy hlive.2
  refine ⟨fun code => ?_, fun i x hlive => ?_, fun i x p code hlive hp => ?_⟩
  · rw [hsent.events, List.mem_append, h.announced, hsent.announced henabled, or_comm]
  · rw [hsent.events, List.length_append]
    exact (hbefore i x hlive).1.trans (Nat.le_add_right _ _)
  · rw [hsent.events] at hp ⊢
    rw [List.length_append]
    have hone := hsent.length
    obtain ⟨hcursor, hahead⟩ := hbefore i x hlive
    rcases lt_or_ge p s.events.length with hlt | hge
    · rw [List.getElem?_append_left hlt] at hp
      refine ⟨(hahead p code hp).1, ?_⟩
      rcases eq_or_ne sent [] with rfl | hne
      · exact (hahead p code hp).2
      · -- An action that sends is no turn, so the attachment was live before.
        have hsends := hsent.sends hne
        rcases hlive.before with ⟨-, hlive⟩ | ⟨y, t, rfl, -, -⟩
        · have hkept := htimely.keeps i x p code hsends hlive hp
          omega
        · cases hsends
    · have hpos : 1 ≤ eventCapacity := by decide
      exact ⟨hcursor.trans hge, by omega⟩

/-! ## Fair runs -/

/-- The attachment `i` has dropped its receiver. -/
def Dropped (s : Host) (i : ℕ) : Prop := ∃ x, s.attachments[i]? = some x ∧ x.phase = .lagged

/-- The monitor and the event loops go on: what one of them can do it does, unless that is over
first. -/
structure Fair (lib : External) (s : Host) (act : ℕ → Action) : Prop where
  monitor : ∀ n code, (s.run lib act n).monitor = .exited code ∨
    (s.run lib act n).monitor = .marked code → ∃ m, n ≤ m ∧ act m = .monitor
  receives : ∀ n i, (s.run lib act n).Unread i →
    ∃ m, n ≤ m ∧ (act m = .turn i .receive ∨ ¬ (s.run lib act m).Unread i)
  resubscribes : ∀ n i, (s.run lib act n).Dropped i →
    ∃ m, n ≤ m ∧ (act m = .turn i .advance ∨ ¬ (s.run lib act m).Dropped i)

/-- The attachment `i` has been told of the exit. -/
def Told (s : Host) (i : ℕ) (code : Int) : Prop :=
  ∃ x, s.attachments[i]? = some x ∧ .exited code ∈ x.emitted

/-- The attachment `i` is in its event loop, and the event at `p` is `Exited`. -/
def Awaits (s : Host) (i p : ℕ) (code : Int) : Prop :=
  (∃ x, s.Live i x) ∧ s.events[p]? = some (.exited code)

variable {act : ℕ → Action} {code : Int} {n : ℕ}

theorem code_of_le {m : ℕ} (hnm : n ≤ m) (h : (s.run lib act n).monitor.code? = some code) :
    (s.run lib act m).monitor.code? = some code := by
  induction m, hnm using Nat.le_induction with
  | base => exact h
  | succ m _ ih => exact step_code ih

/-- `Exited` stays in the channel's history. -/
theorem exited_mem {m : ℕ} (hnm : n ≤ m) (hmem : .exited code ∈ (s.run lib act n).events) :
    .exited code ∈ (s.run lib act m).events := by
  induction m, hnm using Nat.le_induction with
  | base => exact hmem
  | succ m _ ih =>
    obtain ⟨p, hp⟩ := List.mem_iff_getElem?.1 ih
    exact List.mem_of_getElem? (getElem?_step lib (act m) hp)

/-- The monitor goes on from the exit of the child, until it has announced it. -/
theorem Fair.leadsTo_monitor (hfair : Fair lib s act) {before after : Monitor}
    (hbefore : before = .exited code ∨ before = .marked code)
    (hstep : ∀ t : Host, t.monitor = before → t.monitorStep.monitor = after) :
    LeadsTo (fun n => (s.run lib act n).monitor = before)
      (fun n => (s.run lib act n).monitor = after) := by
  refine leadsTo_of_helpful (fun n => act n = .monitor) (fun n hn hact => ?_)
    (fun n hn => hfair.monitor n code (by rwa [hn])) fun n hn hact => ?_
  · right
    rw [run_succ, step_monitor_of_ne hact, hn]
    rcases hbefore with rfl | rfl <;> simp [hn]
  · rw [run_succ, hact]
    exact hstep _ hn

/-- The exit code is announced. -/
theorem Fair.announces (hfair : Fair lib s act) (h : (s.run lib act n).monitor = .exited code) :
    ∃ m, n ≤ m ∧ (s.run lib act m).monitor = .announced code := by
  have hmarks := hfair.leadsTo_monitor (.inl rfl) fun t (ht : t.monitor = .exited code) =>
    show _ = Monitor.marked code by rw [monitorStep, ht]
  have hannounces := hfair.leadsTo_monitor (.inr rfl) fun t (ht : t.monitor = .marked code) =>
    show _ = Monitor.announced code by rw [monitorStep, ht]; rfl
  exact hmarks.trans hannounces n h

/-! ## The exit reaches every attachment -/

/-- A fair and timely run in which the attachment `i` stays. -/
structure TimelyRun (lib : External) (s : Host) (act : ℕ → Action) (i : ℕ) : Prop where
  start : ExitInv s
  enabled : ∀ n, (s.run lib act n).Enabled lib (act n)
  timely : ∀ n, Timely (s.run lib act n) (act n)
  fair : Fair lib s act
  stays : Stays lib s act i

namespace TimelyRun

section

variable (h : TimelyRun lib s act i)

include h

theorem inv (n : ℕ) : ExitInv (s.run lib act n) :=
  run_invariant h.start (fun n hn => hn.step (h.enabled n) (h.timely n)) n

/-- No receiver has been dropped once `Exited` is in the channel: its new subscription would come
too late. -/
theorem not_dropped (hexited : .exited code ∈ (s.run lib act n).events) :
    ¬ (s.run lib act n).Dropped i := by
  intro hdropped
  have hnever : LeadsTo (fun n => (s.run lib act n).Dropped i ∧
      .exited code ∈ (s.run lib act n).events) (fun _ => False) := by
    refine leadsTo_of_helpful (fun m => act m = .turn i .advance ∨ ¬ (s.run lib act m).Dropped i)
      ?_ (fun m hm => h.fair.resubscribes m i hm.1) ?_
    · rintro m ⟨⟨x, hx, hlagged⟩, hmem⟩ -
      have hmem' := exited_mem (Nat.le_succ m) hmem
      rcases step_attachment lib (act m) hx with ⟨t, hact, hturn⟩ | ⟨-, hsame⟩
      · rcases turn_of_lagged lib (s.run lib act m) t hlagged with hleft | hlagged' |
          ⟨rfl, -⟩
        · exact absurd hleft (h.stays (m + 1) _ hturn)
        · exact .inr ⟨⟨_, hturn, hlagged'⟩, hmem'⟩
        · exact absurd hmem ((h.timely m).subscribes i x hact hx (.inr hlagged) code)
      · exact .inr ⟨⟨x, hsame, hlagged⟩, hmem'⟩
    · rintro m ⟨⟨x, hx, hlagged⟩, hmem⟩ (hact | hnot)
      · exact (h.timely m).subscribes i x hact hx (.inr hlagged) code hmem
      · exact hnot ⟨x, hx, hlagged⟩
  obtain ⟨-, -, hfalse⟩ := hnever n ⟨hdropped, hexited⟩
  exact hfalse

/-- An attachment that was in its event loop is still there, has dropped its receiver, or has been
told of the exit. -/
theorem live_or_told {k : ℕ} (hcode : (s.run lib act n).monitor.code? = some code)
    (hlive : ∃ x, (s.run lib act k).Live i x) (j : ℕ) (hkj : k ≤ j) :
    (∃ x, (s.run lib act j).Live i x) ∨ (s.run lib act j).Dropped i ∨
      ∃ m, (s.run lib act m).Told i code := by
  induction j, hkj using Nat.le_induction with
  | base => exact .inl hlive
  | succ j _ ih =>
    rcases ih with ⟨x, hx⟩ | ⟨x, hx, hlagged⟩ | htold
    · rcases step_attachment lib (act j) hx.1 with ⟨t, -, hturn⟩ | ⟨-, hsame⟩
      · rcases hx.turn t (h.stays (j + 1) _ hturn) with ⟨hphase, -⟩ | ⟨hphase, -⟩ | hphase |
          ⟨-, c, hmem, htold⟩
        · exact .inl ⟨_, hturn, hphase⟩
        · exact .inl ⟨_, hturn, hphase⟩
        · exact .inr (.inl ⟨_, hturn, hphase⟩)
        · -- The announced code is the one the monitor obtained.
          have hannounced := ((h.inv j).announced c).1 hmem
          have hc : (s.run lib act j).monitor.code? = some c := by
            rw [hannounced]
            rfl
          have heq := (code_of_le (le_max_left j n) hc).symm.trans
            (code_of_le (le_max_right j n) hcode)
          cases heq
          exact .inr (.inr ⟨j + 1, _, hturn, htold⟩)
      · exact .inl ⟨x, hsame, hx.2⟩
    · rcases step_attachment lib (act j) hx with ⟨t, -, hturn⟩ | ⟨-, hsame⟩
      · rcases turn_of_lagged lib (s.run lib act j) t hlagged with hleft | hlagged' |
          ⟨-, hphase⟩
        · exact absurd hleft (h.stays (j + 1) _ hturn)
        · exact .inr (.inl ⟨_, hturn, hlagged'⟩)
        · exact .inl ⟨_, hturn, hphase⟩
      · exact .inr (.inl ⟨x, hsame, hlagged⟩)
    · exact .inr (.inr htold)

/-- A live attachment reads on to `Exited`. -/
theorem leadsTo_told (p : ℕ) : LeadsTo (fun n => (s.run lib act n).Awaits i p code)
    (fun n => (s.run lib act n).Told i code) := by
  -- The measure is the number of events that the attachment reads before `Exited`.
  let distance (n : ℕ) : ℕ :=
    p - ((s.run lib act n).attachments[i]?.map cursor).getD 0
  have hdistance : ∀ n x, (s.run lib act n).attachments[i]? = some x →
      distance n = p - x.cursor := by
    intro n x hx
    simp only [distance, hx, Option.map_some, Option.getD_some]
  have hstep : ∀ n, (s.run lib act n).Awaits i p code →
      (s.run lib act (n + 1)).Told i code ∨
      (s.run lib act (n + 1)).Awaits i p code ∧ (distance (n + 1) < distance n ∨
        distance (n + 1) = distance n ∧ act n ≠ .turn i .receive) := by
    rintro n ⟨⟨x, hx⟩, hp⟩
    have hp' := getElem?_step lib (act n) hp
    obtain ⟨hle, hcapacity⟩ := (h.inv n).ahead i x p code hx hp
    have hlt := (List.getElem?_eq_some_iff.1 hp).1
    rcases step_attachment lib (act n) hx.1 with ⟨t, hact, hturn⟩ | ⟨hother, hsame⟩
    · rcases hx.turn t (h.stays (n + 1) _ hturn) with ⟨hphase, hcursor, hwaits⟩ |
        ⟨hphase, hcursor, -, hkept⟩ | hphase | ⟨-, c, hmem, htold⟩
      · refine .inr ⟨⟨⟨_, hturn, hphase⟩, hp'⟩, .inr ⟨?_, ?_⟩⟩
        · rw [hdistance (n + 1) _ hturn, hdistance n _ hx.1, hcursor]
        · intro heq
          rw [hact] at heq
          cases heq
          exact absurd (hwaits rfl) (by omega)
      · refine .inr ⟨⟨⟨_, hturn, hphase⟩, hp'⟩, .inl ?_⟩
        have hle' := hkept p code hp hle hcapacity
        rw [hdistance (n + 1) _ hturn, hdistance n _ hx.1]
        omega
      · exact absurd ⟨_, hturn, hphase⟩
          (h.not_dropped (n := n + 1) (List.mem_of_getElem? hp'))
      · have hinvn := h.inv n
        have heq := ((hinvn.announced c).1 hmem).symm.trans
          ((hinvn.announced code).1 (List.mem_of_getElem? hp))
        cases heq
        exact .inl ⟨_, hturn, htold⟩
    · refine .inr ⟨⟨⟨x, hsame, hx.2⟩, hp'⟩, .inr ⟨?_, hother _⟩⟩
      rw [hdistance (n + 1) _ hsame, hdistance n _ hx.1]
  have hunread : ∀ n, (s.run lib act n).Awaits i p code → (s.run lib act n).Unread i := by
    rintro n ⟨⟨x, hx⟩, hp⟩
    obtain ⟨hle, -⟩ := (h.inv n).ahead i x p code hx hp
    exact ⟨x, hx, hle.trans_lt (List.getElem?_eq_some_iff.1 hp).1⟩
  refine leadsTo_of_variant distance
    (fun m => act m = .turn i .receive ∨ ¬ (s.run lib act m).Unread i) ?_ ?_ ?_
  · intro n hn
    rcases hstep n hn with htold | ⟨hnext, hless | ⟨hsame, -⟩⟩
    · exact .inl htold
    · exact .inr ⟨hnext, hless.le⟩
    · exact .inr ⟨hnext, hsame.le⟩
  · exact fun n hn => h.fair.receives n i (hunread n hn)
  · intro n hn hhelpful
    have hact := hhelpful.resolve_right (not_not.2 (hunread n hn))
    rcases hstep n hn with htold | ⟨hnext, hless | ⟨-, hne⟩⟩
    · exact .inl htold
    · exact .inr ⟨hnext, hless⟩
    · exact absurd hact hne

end

end TimelyRun

variable {i : ℕ} {x : Attachment}

/-- In a fair run whose steps are all timely, an exit code that the monitor obtains reaches every
attachment that has entered its event loop and stays. -/
theorem exit_reaches_attachment (lib : External) (terminalId : String) (engine : Engine)
    (act : ℕ → Action)
    (henabled : ∀ n, ((start terminalId engine).run lib act n).Enabled lib (act n))
    (hfair : Fair lib (start terminalId engine) act)
    (htimely : ∀ n, Timely ((start terminalId engine).run lib act n) (act n))
    {n k i : ℕ} {code : Int} {x : Attachment}
    (hcode : ((start terminalId engine).run lib act n).monitor = .exited code)
    (hlive : ((start terminalId engine).run lib act k).Live i x)
    (hstays : Stays lib (start terminalId engine) act i) :
    ∃ m y, ((start terminalId engine).run lib act m).attachments[i]? = some y ∧
      .exited code ∈ y.emitted := by
  have hrun : TimelyRun lib (start terminalId engine) act i :=
    ⟨exitInv_start terminalId engine, henabled, htimely, hfair, hstays⟩
  obtain ⟨announced, -, hannounced⟩ := hfair.announces hcode
  have hcode' : ((start terminalId engine).run lib act n).monitor.code? = some code := by
    rw [hcode]
    rfl
  -- From then on `Exited` is in the channel; the attachment is live, or has been told before.
  have hmem := exited_mem (le_max_right k announced)
    (((hrun.inv announced).announced code).2 hannounced)
  rcases hrun.live_or_told hcode' ⟨x, hlive⟩ (max k announced) (le_max_left _ _) with
    hlive' | hdropped | htold
  · obtain ⟨p, hp⟩ := List.mem_iff_getElem?.1 hmem
    obtain ⟨m, -, htold⟩ := hrun.leadsTo_told p _ ⟨hlive', hp⟩
    exact ⟨m, htold⟩
  · exact absurd hdropped (hrun.not_dropped hmem)
  · exact htold

/-! ## Two runs -/

/-- Receiving changes nothing when everything has been read. -/
theorem step_receive_idle (h : ∀ x, s.Live i x → s.events.length ≤ x.cursor) :
    s.step lib (.turn i .receive) = s := by
  have hsame : s.attachments.modify i (fun x => x.turn lib s .receive) = s.attachments := by
    apply List.ext_getElem?
    intro j
    rw [List.getElem?_modify, Option.map_eq_map]
    cases hx : s.attachments[j]? with
    | none => rfl
    | some x =>
      rw [Option.map_some]
      by_cases hij : i = j
      · subst hij
        rw [if_pos rfl, turn_eq (by simp) (by simp)]
        by_cases hlive : x.phase = .live
        · have hread : Broadcast.receive eventCapacity s.events x.cursor = none :=
            Broadcast.receive_eq_none_iff.2 (h x ⟨hx, hlive⟩)
          rw [if_pos hlive, loopTurn, receive, hread]
        · rw [if_neg hlive]
      · rw [if_neg hij]
  rw [step, hsame]
  rfl

/-- A schedule that ends with the first attachment receiving for ever. -/
def thenReceives (first : List Action) (n : ℕ) : Action := first.getD n (.turn 0 .receive)

variable {first : List Action}

theorem thenReceives_of_le (h : first.length ≤ n) : thenReceives first n = .turn 0 .receive :=
  List.getD_eq_default _ _ h

theorem thenReceives_enabled (h : ∀ s a, a ∈ first → Enabled lib s a)
    (n : ℕ) : s.Enabled lib (thenReceives first n) := by
  rcases lt_or_ge n first.length with hlt | hge
  · rw [thenReceives, List.getD_eq_getElem _ _ hlt]
    exact h s _ (List.getElem_mem hlt)
  · rw [thenReceives_of_le hge]
    exact trivial

/-- Once everything is read the state is the last one of the first actions. -/
theorem run_thenReceives
    (h : ∀ x, (s.run lib (thenReceives first) first.length).Live 0 x →
      (s.run lib (thenReceives first) first.length).events.length ≤ x.cursor) (n : ℕ) :
    s.run lib (thenReceives first) n = s.run lib (thenReceives first) (min n first.length) := by
  rcases le_total n first.length with hle | hge
  · rw [min_eq_left hle]
  · rw [min_eq_right hge]
    refine run_of_fixed (fun m hm => ?_) hge
    rw [thenReceives_of_le hm]
    exact step_receive_idle h

/-- What holds of the states of the first actions then holds of all. -/
theorem thenReceives_forall (lib : External) (s : Host) (first : List Action)
    {P : ℕ → Host → Prop}
    (hread : ∀ x ∈ (s.run lib (thenReceives first) first.length).attachments, x.phase = .live →
      (s.run lib (thenReceives first) first.length).events.length ≤ x.cursor)
    (h : ∀ m < first.length + 1, P m (s.run lib (thenReceives first) m)) (n : ℕ) :
    P (min n first.length) (s.run lib (thenReceives first) n) := by
  rw [run_thenReceives fun x hx => hread x (List.mem_of_getElem? hx.1) hx.2]
  exact h _ (by omega)

/-- Such a schedule is fair when there is no second attachment, no receiver is dropped, and the
monitor is through after its last turn. -/
theorem thenReceives_fair (k : ℕ) (hlast : thenReceives first k = .monitor)
    (hread : ∀ x ∈ (s.run lib (thenReceives first) first.length).attachments, x.phase = .live →
      (s.run lib (thenReceives first) first.length).events.length ≤ x.cursor)
    (h : ∀ m < first.length + 1, (s.run lib (thenReceives first) m).attachments.length ≤ 1 ∧
      (∀ x ∈ (s.run lib (thenReceives first) m).attachments, x.phase ≠ .lagged) ∧
      (min (k + 1) first.length ≤ m → (s.run lib (thenReceives first) m).monitor = .announced 7)) :
    Fair lib s (thenReceives first) := by
  have hall := thenReceives_forall lib s first (P := fun m s => s.attachments.length ≤ 1 ∧
    (∀ x ∈ s.attachments, x.phase ≠ .lagged) ∧
    (min (k + 1) first.length ≤ m → s.monitor = .announced 7)) hread h
  constructor
  · intro n code hmonitor
    rcases le_or_gt n k with hle | hgt
    · exact ⟨k, hle, hlast⟩
    · rw [(hall n).2.2 (min_le_min_right _ hgt)] at hmonitor
      rcases hmonitor with hmonitor | hmonitor <;> cases hmonitor
  · rintro n i ⟨x, ⟨hx, -⟩, -⟩
    have hlength := (hall n).1
    have hi := (List.getElem?_eq_some_iff.1 hx).1
    obtain rfl : i = 0 := by omega
    exact ⟨n + first.length, Nat.le_add_right _ _,
      .inl (thenReceives_of_le (Nat.le_add_left _ _))⟩
  · rintro n i ⟨x, hx, hlagged⟩
    exact absurd hlagged ((hall n).2.1 x (List.mem_of_getElem? hx))

/-- A terminal that has just been started. -/
def blankHost : Host := start "terminal" ⟨blankState 0 1, blankState 0 1⟩

/-- The attachment is in its event loop when the child exits. -/
def heardExit : List Action :=
  [.attach "viewer" .independent false, .turn 0 .advance, .turn 0 .advance, .childExits 7,
    .monitor, .monitor, .turn 0 .receive]

/-- The attachment reads that the terminal is running. The child exits, and the monitor writes it
down and announces it. Then the attachment subscribes, and waits. -/
def missedExit : List Action :=
  [.attach "viewer" .independent false, .turn 0 .advance, .childExits 7, .monitor, .monitor,
    .turn 0 .advance]

theorem heardExit_timely (n : ℕ) :
    Timely (blankHost.run plainLibrary (thenReceives heardExit) n) (thenReceives heardExit n) := by
  have hempty : ∀ m < 6,
      (blankHost.run plainLibrary (thenReceives heardExit) m).events = [] := by decide
  rcases lt_or_ge n 6 with hlt | hge
  · have hevents := hempty n hlt
    refine ⟨fun i x _ _ _ code => ?_, fun i x p code _ _ hp => ?_⟩
    · rw [hevents]
      exact List.not_mem_nil
    · rw [hevents] at hp
      cases hp
  · have hreceive : thenReceives heardExit n = .turn 0 .receive := by
      rcases Nat.eq_or_lt_of_le hge with rfl | hlt
      · rfl
      · exact thenReceives_of_le hlt
    rw [hreceive]
    refine ⟨fun i x h => ?_, fun i x p code h => ?_⟩
    · cases h
    · cases h

theorem exit_reaches_heardExit :
    ∃ m y, (blankHost.run plainLibrary (thenReceives heardExit) m).attachments[0]? = some y ∧
      .exited 7 ∈ y.emitted := by
  have hlive : (blankHost.run plainLibrary (thenReceives heardExit) 3).Live 0 _ := ⟨rfl, rfl⟩
  exact exit_reaches_attachment plainLibrary "terminal" ⟨blankState 0 1, blankState 0 1⟩
    (thenReceives heardExit)
    (fun n => thenReceives_enabled (by
      intro s a ha
      simp only [heardExit, List.mem_cons, List.not_mem_nil, or_false] at ha
      rcases ha with rfl | rfl | rfl | rfl | rfl | rfl | rfl <;> trivial) n)
    (thenReceives_fair 5 rfl (by decide) (by decide)) heardExit_timely (n := 4) (k := 3) rfl hlive
    (fun n x hx => thenReceives_forall plainLibrary blankHost heardExit
      (P := fun _ s => ∀ x ∈ s.attachments, x.phase ≠ .left) (by decide) (by decide) n x
      (List.mem_of_getElem? hx))

/-- A fair run in which the monitor obtains an exit code and an attachment that enters its event
loop and stays there is never told. -/
theorem exit_can_be_missed :
    (∀ n, (blankHost.run plainLibrary (thenReceives missedExit) n).Enabled plainLibrary
      (thenReceives missedExit n)) ∧
    Fair plainLibrary blankHost (thenReceives missedExit) ∧
    (blankHost.run plainLibrary (thenReceives missedExit) 3).monitor = .exited 7 ∧
    (∃ x, (blankHost.run plainLibrary (thenReceives missedExit) 6).Live 0 x) ∧
    Stays plainLibrary blankHost (thenReceives missedExit) 0 ∧
    ¬ ∃ m y, (blankHost.run plainLibrary (thenReceives missedExit) m).attachments[0]? = some y ∧
      .exited 7 ∈ y.emitted := by
  have hnever : ∀ n, ∀ x ∈ (blankHost.run plainLibrary (thenReceives missedExit) n).attachments,
      x.phase ≠ .left ∧ .exited 7 ∉ x.emitted :=
    thenReceives_forall plainLibrary blankHost missedExit
      (P := fun _ s => ∀ x ∈ s.attachments, x.phase ≠ .left ∧ .exited 7 ∉ x.emitted)
      (by decide) (by decide)
  refine ⟨fun n => thenReceives_enabled ?_ n,
    thenReceives_fair 4 rfl (by decide) (by decide), rfl, ⟨_, rfl, rfl⟩,
    fun n x hx => (hnever n x (List.mem_of_getElem? hx)).1, ?_⟩
  · intro s a ha
    simp only [missedExit, List.mem_cons, List.not_mem_nil, or_false] at ha
    rcases ha with rfl | rfl | rfl | rfl | rfl | rfl <;> trivial
  · rintro ⟨m, y, hy, htold⟩
    exact (hnever m y (List.mem_of_getElem? hy)).2 htold

end Host

end AstraShell.Attach
