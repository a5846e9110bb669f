import AstraShell.Attach.Exit
import AstraShell.Attach.Vigil

/-!
# What the viewers have been sent

The invariant of the host: every live semantic attachment's synchronization is in its own invariant
(`Host.Inv`), whatever the threads and clients do. An attachment is awake (`Host.Awake`) when its
dirty bit is set, when output waits in its channel, or when a viewport waits for the acknowledgement
of the base. A step leaves an attachment awake or sent the engine's revision (`Inv.step_awake`),
except for a resize through another attachment (`Noticed`).
-/

set_option autoImplicit false

namespace AstraShell.Attach

open Lib Lib.Temporal TerminalState TerminalSync Attachment
  Streaming

/-! ## Turns of a semantic attachment -/

namespace Attachment

variable {lib : External} {s : Host} {x x' : Attachment} {past : List Engine}

/-- What a turn of a live semantic attachment does: `Exited` is read, or the event loop goes on. -/
inductive Watches (lib : External) (s : Host) (x x' : Attachment) : Prop
  | finished (hphase : x'.phase = .finished) (hsent : .state s.engine.revision ∈ x'.emitted)
  | goesOn (hphase : x'.phase = .live) (hkind : x'.kind = x.kind) (revisions : List Revision)
      (hmoves : Sync.Moves lib s.engine x.sync revisions x'.sync)
      (hemitted : ∀ r, .state r ∈ x'.emitted ↔ .state r ∈ x.emitted ∨ r ∈ revisions)
      (hgrows : x.cursor ≤ x'.cursor) (hcursor : x'.cursor ≤ s.events.length)
      (hunread : ∀ p bytes, x.cursor ≤ p → s.events[p]? = some (.output bytes) →
        x'.cursor ≤ p ∨ x'.sync.dirty = true)

section

variable (hlive : x.phase = .live) (hcursor : x.cursor ≤ s.events.length)

include hlive hcursor

theorem watches_same : Watches lib s x x :=
  .goesOn hlive rfl [] (.idle _) (by simp) le_rfl hcursor fun _ _ hp _ => .inl hp

theorem watches_updated {r : Except String (List Revision × Sync)}
    (hmoves : ∀ revisions sync, r = .ok (revisions, sync) →
      Sync.Moves lib s.engine x.sync revisions sync)
    (hstays : (x.updated r).phase ≠ .left) : Watches lib s x (x.updated r) := by
  cases r with
  | error e => exact absurd rfl hstays
  | ok r =>
    obtain ⟨revisions, sync⟩ := r
    refine .goesOn hlive rfl revisions (hmoves revisions sync rfl) (fun r => ?_) le_rfl hcursor
      fun _ _ hp _ => .inl hp
    simp [updated, say]

theorem watches_synced
    {r : Except String Sync}
    (hmoves : ∀ sync, r = .ok sync → Sync.Moves lib s.engine x.sync [] sync)
    (hstays : (x.synced r).phase ≠ .left) : Watches lib s x (x.synced r) := by
  cases r with
  | error e => exact absurd rfl hstays
  | ok sync =>
    exact .goesOn hlive rfl [] (hmoves sync rfl) (by simp [synced]) le_rfl hcursor
      fun _ _ hp _ => .inl hp

end

/-- An event that is neither output nor the exit is passed on. -/
theorem watches_said (hlive : x.phase = .live) {event : PtyEvent}
    (hevent : s.events[x.cursor]? = some event) (hother : ∀ bytes, event ≠ .output bytes)
    (messages : List Message) (hmessages : ∀ r, .state r ∉ messages) :
    Watches lib s x (say { x with cursor := x.cursor + 1 } messages) := by
  have hlt := (List.getElem?_eq_some_iff.1 hevent).1
  refine .goesOn hlive rfl [] (.idle _) (fun r => ?_) (Nat.le_succ _) hlt
    (fun p bytes hp hout => ?_)
  · simp [say, hmessages r]
  · refine .inl (Nat.succ_le_of_lt (lt_of_le_of_ne hp ?_))
    rintro rfl
    exact hother bytes (Option.some.inj (hevent.symm.trans hout))

theorem watches_receive (hlive : x.phase = .live) (hkind : x.kind ≠ .legacy)
    (hinv : x.sync.Inv lib s.engine past fun r => .state r ∈ x.emitted)
    (hcursor : x.cursor ≤ s.events.length) : Watches lib s x (x.receive s) := by
  have hcases := receive_cases s x
  generalize x.receive s = y at hcases
  cases hcases with
  | waits _ => exact watches_same hlive hcursor
  | dropped _ hlegacy => exact absurd hlegacy hkind
  | skipped hlag _ =>
    exact .goesOn hlive rfl [] (.marked _) (by simp) (by dsimp only; omega) (Nat.sub_le _ _)
      fun _ _ _ _ => .inr hinv.dirty_markDirty
  | handled event hevent =>
    have hlt := (List.getElem?_eq_some_iff.1 hevent).1
    cases event with
    | output bytes =>
      rw [handle, if_neg hkind]
      exact .goesOn hlive rfl [] (.marked _) (by simp) (Nat.le_succ _) hlt
        fun _ _ _ _ => .inr hinv.dirty_markDirty
    | exited code =>
      refine .finished rfl ?_
      rw [handle, if_neg hkind]
      simp [say]
    | error message
    | interactive interactive => exact watches_said hlive hevent (by simp) _ (by simp)
    | clipboardWrite selection contents =>
      rw [handle]
      split
      · exact watches_said hlive hevent (by simp) _ (by simp)
      · have hsaid : Watches lib s x (say { x with cursor := x.cursor + 1 } []) :=
          watches_said hlive hevent (by simp) [] (by simp)
        simpa [say] using hsaid

theorem handle_kind (s : Host) (x : Attachment) (event : PtyEvent) :
    (handle s x event).kind = x.kind := by
  cases event with
  | output bytes | clipboardWrite selection contents =>
    rw [handle]
    split <;> rfl
  | _ => rfl

/-- A turn keeps the kind of the client, and only a legacy attachment drops its receiver. -/
theorem turn_kind (lib : External) (s : Host) (x : Attachment) (t : Turn) :
    (x.turn lib s t).kind = x.kind ∧
      ((x.turn lib s t).phase = .lagged → x.phase = .lagged ∨ x.kind = .legacy) := by
  have hcases := turn_cases lib s x t
  generalize x.turn lib s t = y at hcases
  cases hcases with
  | leaves _ hleft hkind => exact ⟨hkind, fun h => absurd h (by simp [hleft])⟩
  | advances _ _ =>
    have hcases := advance_cases lib s x
    generalize x.advance lib s = y at hcases
    cases hcases with
    | idle _ => exact ⟨rfl, .inl⟩
    | _ => exact ⟨rfl, nofun⟩
  | receives _ _ =>
    have hcases := receive_cases s x
    generalize x.receive s = y at hcases
    cases hcases with
    | waits _ | skipped _ _ => exact ⟨rfl, .inl⟩
    | dropped _ hlegacy => exact ⟨rfl, fun _ => .inr hlegacy⟩
    | handled event hevent =>
      refine ⟨handle_kind _ _ _, fun h => .inl ?_⟩
      by_cases hexited : ∃ code, event = .exited code
      · obtain ⟨code, rfl⟩ := hexited
        cases h
      · rw [(handle_of_ne_exited fun code heq => hexited ⟨code, heq⟩).1] at h
        exact h
  | works _ _ _ _ | idle _ => exact ⟨rfl, .inl⟩

/-- Every turn of a live semantic attachment that stays. -/
theorem turn_watches {t : Turn} (hlive : x.phase = .live) (hkind : x.kind ≠ .legacy)
    (hinv : x.sync.Inv lib s.engine past fun r => .state r ∈ x.emitted)
    (hknown : Known lib s.engine past) (hcursor : x.cursor ≤ s.events.length)
    (hdelta : ∀ delta link dirty, t = .deliverDelta delta → x.sync = .streaming link dirty →
      delta ∈ link.deltas)
    (hstays : (x.turn lib s t).phase ≠ .left) : Watches lib s x (x.turn lib s t) := by
  by_cases hleave : t = .leave
  · subst hleave
    exact absurd rfl hstays
  by_cases hadvance : t = .advance
  · subst hadvance
    have hsame : x.turn lib s .advance = x := by
      rw [turn, advance, hlive]
    rw [hsame]
    exact watches_same hlive hcursor
  rw [turn_eq hadvance hleave, if_pos hlive] at hstays ⊢
  cases t with
  | advance => exact absurd rfl hadvance
  | leave => exact absurd rfl hleave
  | receive => exact watches_receive hlive hkind hinv hcursor
  | update budget =>
    rw [loopTurn] at hstays ⊢
    split at hstays
    next hshould =>
      rw [if_pos hshould]
      exact watches_updated hlive hcursor
        (fun revisions sync hop => Sync.update_moves hinv hknown hshould hop) hstays
    next hshould =>
      rw [if_neg hshould]
      exact watches_same hlive hcursor
  | retry budget =>
    exact watches_updated hlive hcursor (fun _ _ hop => Sync.retry_moves hop) hstays
  | rekey => exact watches_updated hlive hcursor (fun _ _ hop => Sync.rekey_moves hop) hstays
  | repair request =>
    exact watches_updated hlive hcursor (fun _ _ hop => Sync.repair_moves hop) hstays
  | ack => exact watches_synced hlive hcursor (fun _ hop => Sync.ack_moves hinv hop) hstays
  | resize engine =>
    exact .goesOn hlive rfl [] (.marked _) (by simp [loopTurn]) le_rfl hcursor
      fun _ _ hp _ => .inl hp
  | deliver => exact watches_synced hlive hcursor (fun _ hop => Sync.deliver_moves hinv hop) hstays
  | deliverDelta delta =>
    exact watches_synced hlive hcursor
      (fun _ hop => Sync.deliverDelta_moves (fun link dirty => hdelta delta link dirty rfl) hop)
      hstays

end Attachment

/-! ## The invariant of the host -/

namespace Host

variable {lib : External} {s : Host} {a : Action} {i : ℕ} {x : Attachment}

structure Inv (lib : External) (s : Host) : Prop where
  known : Known lib s.engine s.past
  lagged : ∀ (i : ℕ) (x : Attachment), s.attachments[i]? = some x → x.phase = .lagged →
    x.kind = .legacy
  cursor : ∀ i x, s.Live i x → x.kind ≠ .legacy → x.cursor ≤ s.events.length
  sync : ∀ i x, s.Live i x → x.kind ≠ .legacy →
    x.sync.Inv lib s.engine s.past fun r => .state r ∈ x.emitted

theorem inv_start {terminalId : String} {engine : Engine} (h : Follows lib [] engine) :
    Inv lib (start terminalId engine) where
  known := Known.start h
  lagged := fun i x hx => absurd hx (by simp [start])
  cursor := fun i x hx => absurd hx.1 (by simp [start])
  sync := fun i x hx => absurd hx.1 (by simp [start])

/-- The action is output or a resize. -/
def Changes (a : Action) : Prop :=
  (∃ bytes engine, a = .output bytes engine) ∨ ∃ j engine, a = .turn j (.resize engine)

/-- Nothing but output and resizes moves the engine. -/
theorem step_engine_of_not (h : ¬ Changes a) :
    (s.step lib a).engine = s.engine ∧ (s.step lib a).past = s.past := by
  cases a with
  | output bytes engine => exact absurd (.inl ⟨bytes, engine, rfl⟩) h
  | publish event | attach attachmentId kind allowsClipboard => exact ⟨rfl, rfl⟩
  | childExits code | waitFails message =>
    rw [step]
    split <;> exact ⟨rfl, rfl⟩
  | monitor =>
    rw [step, monitorStep]
    split <;> exact ⟨rfl, rfl⟩
  | turn j t =>
    cases t with
    | resize engine => exact absurd (.inr ⟨j, engine, rfl⟩) h
    | _ => exact ⟨rfl, rfl⟩

/-- Output and resizes move the engine on. -/
theorem step_engine (henabled : s.Enabled lib a) :
    ((s.step lib a).engine = s.engine ∧ (s.step lib a).past = s.past) ∨
      ((s.step lib a).past = s.engine :: s.past ∧
        Follows lib (s.engine :: s.past) (s.step lib a).engine) := by
  by_cases hchanges : Changes a
  · rcases hchanges with ⟨bytes, engine, rfl⟩ | ⟨j, engine, rfl⟩
    · exact .inr ⟨rfl, henabled⟩
    · exact .inr ⟨rfl, henabled.1⟩
  · exact .inl (step_engine_of_not hchanges)

/-- A turn that makes a semantic attachment live is its subscription. -/
theorem Inv.entered (h : Inv lib s) {t : Turn} (hx : s.attachments[i]? = some x)
    (hphase : x.phase ≠ .live) (hkind : (x.turn lib s t).kind ≠ .legacy)
    (hlive : (x.turn lib s t).phase = .live) :
    .state s.engine.revision ∈ (x.turn lib s t).emitted ∧
      (x.turn lib s t).cursor = s.events.length ∧
      (x.turn lib s t).sync.Inv lib s.engine s.past
        fun r => .state r ∈ (x.turn lib s t).emitted := by
  have hcases := turn_cases lib s x t
  generalize x.turn lib s t = y at hcases hkind hlive ⊢
  cases hcases with
  | leaves _ hleft _ => exact absurd hlive (by simp [hleft])
  | advances =>
    have hcases := advance_cases lib s x
    generalize x.advance lib s = y at hcases hkind hlive ⊢
    cases hcases with
    | entered sync hinformed hstart hrunning =>
      have hkind' : x.kind ≠ .legacy := hkind
      have hsent : Message.state s.engine.revision ∈ (x.subscribe s sync).emitted := by
        rw [subscribe, if_neg hkind']
        simp [say]
      exact ⟨hsent, rfl, Sync.inv_start hkind h.known hsent hstart⟩
    | resubscribed hlagged => exact absurd (h.lagged i x hx hlagged) hkind
    | idle _ => exact absurd hlive hphase
    | _ => cases hlive
  | receives _ h | works _ _ _ h => exact absurd h hphase
  | idle _ => exact absurd hlive hphase

/-- A turn of a live semantic attachment that stays. -/
theorem Inv.watches (h : Inv lib s) {t : Turn} (henabled : s.Enabled lib (.turn i t))
    (hlive : s.Live i x) (hkind : x.kind ≠ .legacy) (hstays : (x.turn lib s t).phase ≠ .left) :
    Attachment.Watches lib s x (x.turn lib s t) :=
  turn_watches hlive.2 hkind (h.sync i x hlive hkind) h.known
    (h.cursor i x hlive hkind)
    (fun _ link dirty ht hsync => by subst ht; exact henabled x link dirty hlive hsync) hstays

/-- What holds of a live semantic attachment after a step, against the engine before it. -/
theorem Inv.after (h : Inv lib s) (henabled : s.Enabled lib a) (hlive : (s.step lib a).Live i x)
    (hkind : x.kind ≠ .legacy) :
    x.cursor ≤ s.events.length ∧
      x.sync.Inv lib s.engine s.past fun r => .state r ∈ x.emitted := by
  rcases hlive.before with ⟨-, hbefore⟩ | ⟨y, t, rfl, hy, rfl⟩
  · exact ⟨h.cursor i x hbefore hkind, h.sync i x hbefore hkind⟩
  · by_cases hphase : y.phase = .live
    · have hkind' : y.kind ≠ .legacy := by
        rw [← (turn_kind lib s y t).1]
        exact hkind
      have hstays : (y.turn lib s t).phase ≠ .left := by
        rw [hlive.2]
        simp
      cases h.watches henabled ⟨hy, hphase⟩ hkind' hstays with
      | finished hfinished _ =>
        rw [hlive.2] at hfinished
        cases hfinished
      | goesOn _ _ revisions hmoves hemitted _ hcursor _ =>
        refine ⟨hcursor, ((h.sync i y ⟨hy, hphase⟩ hkind').moves hmoves).mono fun r hr => ?_⟩
        exact (hemitted r).2 hr
    · obtain ⟨-, hcursor, hsync⟩ := h.entered hy hphase hkind hlive.2
      exact ⟨hcursor.le, hsync⟩

theorem Inv.step (h : Inv lib s) (henabled : s.Enabled lib a) : Inv lib (s.step lib a) := by
  obtain ⟨sent, hsent⟩ := publishes lib s a
  refine ⟨?_, ?_, ?_, ?_⟩
  · rcases step_engine henabled with ⟨hengine, hpast⟩ | ⟨hpast, hfollows⟩
    · rw [hengine, hpast]
      exact h.known
    · rw [hpast]
      exact h.known.moved hfollows
  · intro i x hx hlagged
    cases hy : s.attachments[i]? with
    | none =>
      have harriving := step_attachment_new lib a hy hx
      rw [hlagged] at harriving
      cases harriving
    | some y =>
      rcases step_attachment lib a hy with ⟨t, rfl, hturn⟩ | ⟨-, hsame⟩
      · obtain rfl := Option.some.inj (hx.symm.trans hturn)
        obtain ⟨hkind, hphase⟩ := turn_kind lib s y t
        rw [hkind]
        exact (hphase hlagged).elim (h.lagged i y hy) id
      · obtain rfl := Option.some.inj (hx.symm.trans hsame)
        exact h.lagged i x hy hlagged
  · intro i x hlive hkind
    rw [hsent.events, List.length_append]
    exact (h.after henabled hlive hkind).1.trans (Nat.le_add_right _ _)
  · intro i x hlive hkind
    have hsync := (h.after henabled hlive hkind).2
    rcases step_engine henabled with ⟨hengine, hpast⟩ | ⟨hpast, hfollows⟩
    · rw [hengine, hpast]
      exact hsync
    · rw [hpast]
      exact hsync.moved h.known hfollows

/-! ## Awake or up to date -/

/-- The attachment will ask the engine for a state. -/
def Awake (s : Host) (x : Attachment) : Prop :=
  x.sync.dirty = true ∨ x.sync.Waiting ∨
    ∃ p bytes, x.cursor ≤ p ∧ s.events[p]? = some (.output bytes)

/-- The engine's revision has been sent. -/
def Current (s : Host) (x : Attachment) : Prop := .state s.engine.revision ∈ x.emitted

/-- An attachment that a step leaves alone stays awake. -/
theorem Awake.step (lib : External) (a : Action) (h : s.Awake x) : (s.step lib a).Awake x := by
  rcases h with hdirty | hwaiting | ⟨p, bytes, hp, hout⟩
  · exact .inl hdirty
  · exact .inr (.inl hwaiting)
  · exact .inr (.inr ⟨p, bytes, hp, getElem?_step lib a hout⟩)

/-- An event loop that goes on leaves the attachment awake or up to date. -/
theorem awake_of_goesOn {past : List Engine} {x' : Attachment} {revisions : List Revision}
    (hinv : x.sync.Inv lib s.engine past fun r => .state r ∈ x.emitted)
    (hknown : Known lib s.engine past) (hmoves : Sync.Moves lib s.engine x.sync revisions x'.sync)
    (hemitted : ∀ r, .state r ∈ x'.emitted ↔ .state r ∈ x.emitted ∨ r ∈ revisions)
    (hunread : ∀ p bytes, x.cursor ≤ p → s.events[p]? = some (.output bytes) →
      x'.cursor ≤ p ∨ x'.sync.dirty = true)
    (h : s.Current x ∨ s.Awake x) : s.Current x' ∨ s.Awake x' := by
  have hsync : x.sync.dirty = true ∨ x.sync.Waiting → s.Current x' ∨ s.Awake x' := by
    intro hawake
    rcases hmoves.awake hinv hknown hawake with hsent | hdirty | hwaiting
    · exact .inl ((hemitted _).2 hsent)
    · exact .inr (.inl hdirty)
    · exact .inr (.inr (.inl hwaiting))
  rcases h with hcurrent | hdirty | hwaiting | ⟨p, bytes, hp, hout⟩
  · exact .inl ((hemitted _).2 (.inl hcurrent))
  · exact hsync (.inl hdirty)
  · exact hsync (.inr hwaiting)
  · rcases hunread p bytes hp hout with hle | hdirty
    · exact .inr (.inr (.inr ⟨p, bytes, hle, hout⟩))
    · exact .inr (.inl hdirty)

/-- A turn of the attachment leaves it awake or up to date with the engine before the turn. -/
theorem Inv.turn_awake (h : Inv lib s) {t : Turn} (henabled : s.Enabled lib (.turn i t))
    (hx : s.attachments[i]? = some x) (hkind : (x.turn lib s t).kind ≠ .legacy)
    (hlive : (x.turn lib s t).phase = .live) (hgood : s.Live i x → s.Current x ∨ s.Awake x) :
    s.Current (x.turn lib s t) ∨ s.Awake (x.turn lib s t) := by
  by_cases hphase : x.phase = .live
  · have hkind' : x.kind ≠ .legacy := by
      rw [← (turn_kind lib s x t).1]
      exact hkind
    have hstays : (x.turn lib s t).phase ≠ .left := by
      rw [hlive]
      simp
    cases h.watches henabled ⟨hx, hphase⟩ hkind' hstays with
    | finished hfinished _ =>
      rw [hlive] at hfinished
      cases hfinished
    | goesOn _ _ revisions hmoves hemitted _ _ hunread =>
      exact awake_of_goesOn (h.sync i x ⟨hx, hphase⟩ hkind') h.known hmoves hemitted hunread
        (hgood ⟨hx, hphase⟩)
  · exact .inl (h.entered hx hphase hkind hlive).1

/-- The action makes the attachment `i` ask the engine again: output, or a resize through it. -/
def Rouses (i : ℕ) (a : Action) : Prop :=
  (∃ bytes engine, a = .output bytes engine) ∨ ∃ engine, a = .turn i (.resize engine)

theorem Inv.awake_of_rouses (h : Inv lib s) (henabled : s.Enabled lib a) (ha : Rouses i a)
    (hlive : (s.step lib a).Live i x) (hkind : x.kind ≠ .legacy) : (s.step lib a).Awake x := by
  rcases ha with ⟨bytes, engine, rfl⟩ | ⟨engine, rfl⟩
  · refine .inr (.inr ⟨s.events.length, bytes, h.cursor i x hlive hkind, ?_⟩)
    exact List.getElem?_concat_length
  · rcases hlive.before with ⟨hother, -⟩ | ⟨y, t, heq, hy, rfl⟩
    · exact absurd rfl (hother (.resize engine))
    · cases heq
      obtain ⟨-, y', hy', hphase⟩ := henabled
      obtain rfl := Option.some.inj (hy.symm.trans hy')
      have hkind' : y.kind ≠ .legacy := by
        rw [← (turn_kind lib s y (.resize engine)).1]
        exact hkind
      refine .inl ?_
      rw [turn_eq (by simp) (by simp), if_pos hphase]
      exact (h.sync i y ⟨hy, hphase⟩ hkind').dirty_markDirty

/-- A resize through one attachment finds another one awake, or leaves the revision as it is. -/
def Noticed (s : Host) (i : ℕ) (a : Action) : Prop :=
  ∀ j engine x, a = .turn j (.resize engine) → j ≠ i → s.Live i x → x.kind ≠ .legacy →
    engine.revision = s.engine.revision ∨ s.Awake x

/-- A step that the attachment notices leaves it awake or up to date. -/
theorem Inv.step_awake (h : Inv lib s) (henabled : s.Enabled lib a) (hnoticed : s.Noticed i a)
    (hgood : ∀ x, s.Live i x → x.kind ≠ .legacy → s.Current x ∨ s.Awake x)
    (hlive : (s.step lib a).Live i x) (hkind : x.kind ≠ .legacy) :
    (s.step lib a).Current x ∨ (s.step lib a).Awake x := by
  by_cases hrouses : Rouses i a
  · exact .inr (h.awake_of_rouses henabled hrouses hlive hkind)
  -- Against the engine before the step.
  have hbefore : s.Current x ∨ s.Awake x := by
    rcases hlive.before with ⟨-, hbefore⟩ | ⟨y, t, rfl, hy, rfl⟩
    · exact hgood x hbefore hkind
    · refine h.turn_awake henabled hy hkind hlive.2 fun hy' => hgood y hy' ?_
      rw [← (turn_kind lib s y t).1]
      exact hkind
  rcases hbefore with hcurrent | hawake
  · by_cases hsame : (s.step lib a).engine.revision = s.engine.revision
    · refine .inl ?_
      rw [Current, hsame]
      exact hcurrent
    · -- The engine has moved by somebody else's resize.
      refine .inr ?_
      have hchanges : Changes a := by
        by_contra hnot
        exact hsame (by rw [(step_engine_of_not hnot).1])
      rcases hchanges with
        ⟨bytes, engine, rfl⟩ | ⟨j, engine, rfl⟩
      · exact absurd (.inl ⟨bytes, engine, rfl⟩) hrouses
      · have hj : j ≠ i := by
          rintro rfl
          exact hrouses (.inr ⟨engine, rfl⟩)
        have hlive' : s.Live i x := by
          rcases hlive.before with ⟨-, hbefore⟩ | ⟨y, t, heq, -, -⟩
          · exact hbefore
          · cases heq
            exact absurd rfl hj
        rcases hnoticed j engine x rfl hj hlive' hkind with heq | hawake
        · exact absurd heq hsame
        · exact hawake.step lib _
  · exact .inr (hawake.step lib a)

end Host

end AstraShell.Attach
