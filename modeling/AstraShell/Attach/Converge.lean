import AstraShell.Attach.Exit
import AstraShell.Attach.Viewers

/-!
# All viewers converge

Output wakes every attachment, because it is published; a resize wakes only the attachment it came
through. So a viewer that is up to date when somebody else resizes is not sent the new revision
(`resize_can_be_missed`).

Every live semantic attachment is sent the engine's final revision (`viewers_converge`) in the runs
in which a resize always finds the others awake, does not change the revision, or is followed by
output or by a resize of their own. The argument is in two parts. Until output and resizes stop, an
attachment is awake or has been sent the engine's revision (`current_or_awake`). From then on an
attachment that is never sent the revision would be awake for ever (`Watching`), and its
synchronization would be a `Vigil`.
-/

set_option autoImplicit false

namespace AstraShell.Attach

open Lib Lib.Temporal TerminalState TerminalSync Attachment
  Streaming

namespace Attachment

variable {lib : External} {s : Host} {x : Attachment}

theorem handle_cursor (s : Host) (x : Attachment) (event : PtyEvent) :
    (handle s x event).cursor = x.cursor := by
  by_cases hexited : ∃ code, event = .exited code
  · obtain ⟨code, rfl⟩ := hexited
    rfl
  · exact (handle_of_ne_exited fun code heq => hexited ⟨code, heq⟩).2

/-- Receiving moves the cursor while there is something to read. -/
theorem lt_receive_cursor (h : x.cursor < s.events.length) : x.cursor < (x.receive s).cursor := by
  have hcases := receive_cases s x
  generalize x.receive s = y at hcases
  cases hcases with
  | waits hread => omega
  | handled event hevent =>
    rw [handle_cursor]
    exact Nat.lt_succ_self _
  | dropped hlag _ | skipped hlag _ =>
    dsimp only
    omega

end Attachment

namespace Host

variable {lib : External} {s : Host} {act : ℕ → Action} {i : ℕ} {x : Attachment}

/-! ## Until output and resizes stop -/

theorem Inv.run (h : Inv lib s) (henabled : ∀ n, (s.run lib act n).Enabled lib (act n)) (n : ℕ) :
    Inv lib (s.run lib act n) :=
  run_invariant h (fun n hn => hn.step (henabled n)) n

/-- Every resize through another attachment is noticed, or output or a resize through this one comes
later. -/
def Answered (lib : External) (s : Host) (act : ℕ → Action) (i : ℕ) : Prop :=
  ∀ n, (s.run lib act n).Noticed i (act n) ∨ ∃ m, n < m ∧ Rouses i (act m)

/-- A viewer is up to date or awake, or will be woken. -/
theorem current_or_awake (h : Inv lib s) (henabled : ∀ n, (s.run lib act n).Enabled lib (act n))
    (hanswered : Answered lib s act i) (hstart : ∀ x, ¬ s.Live i x) (n : ℕ) :
    (∀ x, (s.run lib act n).Live i x → x.kind ≠ .legacy →
      (s.run lib act n).Current x ∨ (s.run lib act n).Awake x) ∨
    ∃ m, n ≤ m ∧ Rouses i (act m) := by
  induction n with
  | zero => exact .inl fun x hx => absurd hx (hstart x)
  | succ n ih =>
    rcases ih with hgood | ⟨m, hnm, hm⟩
    · rcases hanswered n with hnoticed | ⟨m, hnm, hm⟩
      · exact .inl fun x hlive hkind =>
          (h.run henabled n).step_awake (henabled n) hnoticed hgood hlive hkind
      · exact .inr ⟨m, hnm, hm⟩
    · -- The action that wakes the viewer is this one, or still to come.
      rcases Nat.eq_or_lt_of_le hnm with rfl | hlt
      · exact .inl fun x hlive hkind =>
          .inr ((h.run henabled n).awake_of_rouses (henabled n) hm hlive hkind)
      · exact .inr ⟨m, hlt, hm⟩

/-! ## From then on -/

/-- The attachment `i` is live and `p` holds of its synchronization. -/
def Has (s : Host) (i : ℕ) (p : Sync → Bool) : Prop := ∃ x, s.Live i x ∧ p x.sync = true

/-- No attachment, client or network is idle for ever while it has something to do. -/
structure Attends (lib : External) (s : Host) (act : ℕ → Action) : Prop where
  receives : ∀ n i, (s.run lib act n).Unread i → ∃ m, n ≤ m ∧
    (act m = .turn i .receive ∨ ¬ (s.run lib act m).Unread i)
  updates : ∀ n i, (s.run lib act n).Has i Sync.shouldSend → ∃ m, n ≤ m ∧
    ((∃ budget, act m = .turn i (.update budget)) ∨ ¬ (s.run lib act m).Has i Sync.shouldSend)
  delivers : ∀ n i, (s.run lib act n).Has i Sync.undelivered → ∃ m, n ≤ m ∧
    (act m = .turn i .deliver ∨ ¬ (s.run lib act m).Has i Sync.undelivered)
  acks : ∀ n i, (s.run lib act n).Has i Sync.unanswered → ∃ m, n ≤ m ∧
    (act m = .turn i .ack ∨ ¬ (s.run lib act m).Has i Sync.unanswered)

/-- A run without output and resizes in which a semantic attachment is awake and never sent the
engine's revision. -/
structure Watching (lib : External) (s : Host) (act : ℕ → Action) (i : ℕ) (y : ℕ → Attachment) :
    Prop where
  inv : Inv lib s
  enabled : ∀ n, (s.run lib act n).Enabled lib (act n)
  attends : Attends lib s act
  quiet : ∀ n, ¬ Changes (act n)
  live : ∀ n, (s.run lib act n).Live i (y n)
  kind : ∀ n, (y n).kind ≠ .legacy
  awake : ∀ n, (s.run lib act n).Awake (y n)
  unsent : ∀ n, .state s.engine.revision ∉ (y n).emitted

theorem engine_run (hquiet : ∀ n, ¬ Changes (act n)) (n : ℕ) :
    (s.run lib act n).engine = s.engine ∧ (s.run lib act n).past = s.past := by
  induction n with
  | zero => exact ⟨rfl, rfl⟩
  | succ n ih =>
    have hstep : (s.run lib act (n + 1)).engine = (s.run lib act n).engine ∧
        (s.run lib act (n + 1)).past = (s.run lib act n).past := step_engine_of_not (hquiet n)
    exact ⟨hstep.1.trans ih.1, hstep.2.trans ih.2⟩

namespace Watching

variable {y : ℕ → Attachment}

section

variable (h : Watching lib s act i y)

include h

theorem succ_of_turn {n : ℕ} {t : Turn} (hact : act n = .turn i t) :
    y (n + 1) = (y n).turn lib (s.run lib act n) t := by
  rcases step_attachment lib (act n) (h.live n).1 with ⟨t', ht', hturn⟩ | ⟨hother, -⟩
  · have heq : t = t' := by
      rw [hact] at ht'
      exact (Action.turn.inj ht').2
    subst heq
    exact Option.some.inj ((h.live (n + 1)).1.symm.trans hturn)
  · exact absurd hact (hother t)

theorem succ_of_loop {n : ℕ} {t : Turn} (hact : act n = .turn i t) (hadvance : t ≠ .advance)
    (hleave : t ≠ .leave) : y (n + 1) = (y n).loopTurn lib (s.run lib act n) t := by
  rw [h.succ_of_turn hact, turn_eq hadvance hleave, if_pos (h.live n).2]

theorem watches (n : ℕ) : Attachment.Watches lib (s.run lib act n) (y n) (y (n + 1)) := by
  have hinv := h.inv.run h.enabled n
  have hstays : (y (n + 1)).phase ≠ .left := by
    rw [(h.live (n + 1)).2]
    simp
  rcases step_attachment lib (act n) (h.live n).1 with ⟨t, ht, -⟩ | ⟨-, hsame⟩
  · have henabled := h.enabled n
    rw [ht] at henabled
    rw [h.succ_of_turn ht] at hstays ⊢
    exact hinv.watches henabled (h.live n) (h.kind n) hstays
  · have heq : y (n + 1) = y n := Option.some.inj ((h.live (n + 1)).1.symm.trans hsame)
    rw [heq]
    exact watches_same (h.live n).2 (hinv.cursor i _ (h.live n) (h.kind n))

theorem not_finished (n : ℕ) : (y n).phase ≠ .finished := by
  rw [(h.live n).2]
  simp

theorem moves (n : ℕ) :
    ∃ revisions, Sync.Moves lib s.engine (y n).sync revisions (y (n + 1)).sync ∧
      s.engine.revision ∉ revisions := by
  cases h.watches n with
  | finished hphase _ => exact absurd hphase (h.not_finished (n + 1))
  | goesOn _ _ revisions hmoves hemitted _ _ _ =>
    rw [(engine_run h.quiet n).1] at hmoves
    exact ⟨revisions, hmoves, fun hmem => h.unsent (n + 1) ((hemitted _).2 (.inr hmem))⟩

/-- Output in the channel is read, or skipped by a lag; both set the dirty bit. -/
theorem leadsTo_dirty (p : ℕ) (bytes : Bytes) :
    LeadsTo (fun n => (y n).cursor ≤ p ∧ (s.run lib act n).events[p]? = some (.output bytes))
      (fun n => (y n).sync.dirty = true) := by
  have hstep : ∀ n, (y n).cursor ≤ p ∧ (s.run lib act n).events[p]? = some (.output bytes) →
      (y (n + 1)).sync.dirty = true ∨
        (y n).cursor ≤ (y (n + 1)).cursor ∧ (y (n + 1)).cursor ≤ p ∧
          (s.run lib act (n + 1)).events[p]? = some (.output bytes) := by
    rintro n ⟨hle, hout⟩
    cases h.watches n with
    | finished hphase _ => exact absurd hphase (h.not_finished (n + 1))
    | goesOn _ _ _ _ _ hgrows _ hunread =>
      rcases hunread p bytes hle hout with hle' | hdirty
      · exact .inr ⟨hgrows, hle', getElem?_step lib (act n) hout⟩
      · exact .inl hdirty
  have hread : ∀ n, (y n).cursor ≤ p ∧ (s.run lib act n).events[p]? = some (.output bytes) →
      (y n).cursor < (s.run lib act n).events.length := fun n hn =>
    hn.1.trans_lt (List.getElem?_eq_some_iff.1 hn.2).1
  -- Until then the output is ahead of the cursor, by `p - cursor` events.
  refine leadsTo_of_variant (fun n => p - (y n).cursor)
    (fun n => act n = .turn i .receive ∨ ¬ (s.run lib act n).Unread i) ?_ ?_ ?_
  · intro n hn
    refine (hstep n hn).imp_right fun ⟨hgrows, hkept⟩ => ⟨hkept, ?_⟩
    exact Nat.sub_le_sub_left hgrows p
  · intro n hn
    exact h.attends.receives n i ⟨y n, h.live n, hread n hn⟩
  · rintro n hn (hreceive | hidle)
    · refine (hstep n hn).imp_right fun ⟨_, hkept⟩ => ⟨hkept, ?_⟩
      have hlt := lt_receive_cursor (hread n hn)
      have hnext : y (n + 1) = (y n).receive (s.run lib act n) :=
        h.succ_of_loop hreceive (by simp) (by simp)
      rw [← hnext] at hlt
      omega
    · exact absurd ⟨y n, h.live n, hread n hn⟩ hidle

theorem wakes (n : ℕ) : ∃ m, n ≤ m ∧ ((y m).sync.dirty = true ∨ (y m).sync.Waiting) := by
  rcases h.awake n with hdirty | hwaiting | ⟨p, bytes, hp, hout⟩
  · exact ⟨n, le_rfl, .inl hdirty⟩
  · exact ⟨n, le_rfl, .inr hwaiting⟩
  · obtain ⟨m, hnm, hm⟩ := h.leadsTo_dirty p bytes n ⟨hp, hout⟩
    exact ⟨m, hnm, .inl hm⟩

/-- What is attended to while there is something to do is done at some time, if it is to be done
then. -/
theorem serves {p : Sync → Bool} {served : ℕ → Prop} (n : ℕ)
    (hfair : (s.run lib act n).Has i p →
      ∃ m, n ≤ m ∧ (served m ∨ ¬ (s.run lib act m).Has i p)) :
    ∃ m, n ≤ m ∧ (p (y m).sync = true → served m) := by
  by_cases hn : (s.run lib act n).Has i p
  · obtain ⟨m, hnm, hm⟩ := hfair hn
    exact ⟨m, hnm, fun hp => hm.resolve_right (not_not.2 ⟨y m, h.live m, hp⟩)⟩
  · exact ⟨n, le_rfl, fun hp => absurd ⟨y n, h.live n, hp⟩ hn⟩

theorem not_left (n : ℕ) : (y n).phase ≠ .left := by
  rw [(h.live n).2]
  simp

/-- A branch that may send states went through. -/
theorem update_ok {n budget : ℕ}
    (hact : act n = .turn i (.update budget)) (hshould : (y n).sync.shouldSend = true) :
    ∃ revisions, (y n).sync.update lib s.engine budget = .ok (revisions, (y (n + 1)).sync) := by
  have hnext : y (n + 1) = (y n).updated ((y n).sync.update lib s.engine budget) := by
    rw [h.succ_of_loop hact (by simp) (by simp), loopTurn, if_pos hshould,
      (engine_run h.quiet n).1]
  have hphase := h.not_left (n + 1)
  rw [hnext] at hphase ⊢
  cases hupdate : (y n).sync.update lib s.engine budget with
  | error e =>
    rw [hupdate] at hphase
    exact absurd rfl hphase
  | ok r => exact ⟨r.1, rfl⟩

theorem synced_ok {n : ℕ} {r : Except String Sync} (hnext : y (n + 1) = (y n).synced r) :
    r = .ok (y (n + 1)).sync := by
  have hphase := h.not_left (n + 1)
  rw [hnext] at hphase ⊢
  cases r with
  | error e => exact absurd rfl hphase
  | ok sync => rfl

theorem vigil :
    Vigil lib s.engine s.past (fun n => (y n).sync) (fun n r => .state r ∈ (y n).emitted) where
  known := h.inv.known
  inv := by
    intro n
    have hsync := (h.inv.run h.enabled n).sync i (y n) (h.live n) (h.kind n)
    rw [(engine_run h.quiet n).1, (engine_run h.quiet n).2] at hsync
    exact hsync
  unsent := h.unsent
  moves := h.moves
  wakes := h.wakes
  asks := by
    intro n
    obtain ⟨m, hnm, hserved⟩ := h.serves n (h.attends.updates n i)
    refine ⟨m, hnm, fun hshould => ?_⟩
    obtain ⟨budget, hact⟩ := hserved hshould
    exact ⟨budget, h.update_ok hact hshould⟩
  delivers := by
    intro n
    obtain ⟨m, hnm, hserved⟩ := h.serves n (h.attends.delivers n i)
    exact ⟨m, hnm, fun hm => h.synced_ok (h.succ_of_loop (hserved hm) (by simp) (by simp))⟩
  acks := by
    intro n
    obtain ⟨m, hnm, hserved⟩ := h.serves n (h.attends.acks n i)
    exact ⟨m, hnm, fun hm => h.synced_ok (h.succ_of_loop (hserved hm) (by simp) (by simp))⟩

end

end Watching

/-- A semantic attachment that is never sent the engine's revision stays awake. -/
theorem awake_of_unsent (h : Inv lib s) (henabled : ∀ n, (s.run lib act n).Enabled lib (act n))
    (hquiet : ∀ n, ¬ Changes (act n)) (hstays : Stays lib s act i)
    (hnever : ∀ n y, (s.run lib act n).attachments[i]? = some y →
      .state s.engine.revision ∉ y.emitted)
    (hlive : s.Live i x) (hkind : x.kind ≠ .legacy) (hawake : s.Awake x) (n : ℕ) :
    ∃ y, (s.run lib act n).Live i y ∧ y.kind ≠ .legacy ∧ (s.run lib act n).Awake y := by
  induction n with
  | zero => exact ⟨x, hlive, hkind, hawake⟩
  | succ n ih =>
    obtain ⟨y, hy, hkindy, hawakey⟩ := ih
    rcases step_attachment lib (act n) hy.1 with ⟨t, ht, hturn⟩ | ⟨-, hsame⟩
    · have hinv := h.run henabled n
      have henabledn := henabled n
      rw [ht] at henabledn
      -- The revision of the engine at this time is the one that is never sent.
      have hunsent : ¬ (s.run lib act n).Current (y.turn lib (s.run lib act n) t) := by
        rw [Current, (engine_run hquiet n).1]
        exact hnever (n + 1) _ hturn
      cases hinv.watches henabledn hy hkindy (hstays (n + 1) _ hturn) with
      | finished _ hsent => exact absurd hsent hunsent
      | goesOn hphase hkept _ _ _ _ _ _ =>
        have hkind' : (y.turn lib (s.run lib act n) t).kind ≠ .legacy := by
          rw [hkept]
          exact hkindy
        refine ⟨_, ⟨hturn, hphase⟩, hkind', Awake.step lib (act n) ?_⟩
        exact (hinv.turn_awake henabledn hy.1 hkind' hphase fun _ =>
          .inr hawakey).resolve_left hunsent
    · exact ⟨y, ⟨hsame, hy.2⟩, hkindy, hawakey.step lib (act n)⟩

/-- When output and resizes have stopped, an attachment that is awake is sent the revision. -/
theorem sent_of_awake (h : Inv lib s) (henabled : ∀ n, (s.run lib act n).Enabled lib (act n))
    (hattends : Attends lib s act) (hquiet : ∀ n, ¬ Changes (act n)) (hstays : Stays lib s act i)
    (hlive : s.Live i x) (hkind : x.kind ≠ .legacy) (hawake : s.Awake x) :
    ∃ n y, (s.run lib act n).attachments[i]? = some y ∧ .state s.engine.revision ∈ y.emitted := by
  by_contra hnot
  have hnever : ∀ n y, (s.run lib act n).attachments[i]? = some y →
      .state s.engine.revision ∉ y.emitted := fun n y hy hsent => hnot ⟨n, y, hy, hsent⟩
  choose y hy hkindy hawakey using
    awake_of_unsent h henabled hquiet hstays hnever hlive hkind hawake
  have hwatching : Watching lib s act i y :=
    { inv := h
      enabled := henabled
      attends := hattends
      quiet := hquiet
      live := hy
      kind := hkindy
      awake := hawakey
      unsent := fun n => hnever n (y n) (hy n).1 }
  exact hwatching.vigil.absurd

/-! ## The whole run -/

theorem run_add (lib : External) (s : Host) (act : ℕ → Action) (k n : ℕ) :
    s.run lib act (k + n) = (s.run lib act k).run lib (fun m => act (k + m)) n :=
  Temporal.run_add (step lib) s act k n

/-- A schedule that attends to everybody does so from any time on. -/
theorem Attends.from (h : Attends lib s act) (k : ℕ) :
    Attends lib (s.run lib act k) (fun m => act (k + m)) := by
  refine ⟨fun n i => ?_, fun n i => ?_, fun n i => ?_, fun n i => ?_⟩ <;> simp only [← run_add]
  · exact LeadsTo.from (fun n => h.receives n i) k n
  · exact LeadsTo.from (fun n => h.updates n i) k n
  · exact LeadsTo.from (fun n => h.delivers n i) k n
  · exact LeadsTo.from (fun n => h.acks n i) k n

theorem Rouses.changes {a : Action} (h : Rouses i a) : Changes a := by
  rcases h with ⟨bytes, engine, rfl⟩ | ⟨engine, rfl⟩
  · exact .inl ⟨bytes, engine, rfl⟩
  · exact .inr ⟨i, engine, rfl⟩

/-- Once output and resizes stop, a live semantic attachment is sent the engine's final revision,
when it was answered for every resize through another attachment. -/
theorem viewers_converge (lib : External) (terminalId : String) (engine : Engine)
    (act : ℕ → Action) (hengine : Follows lib [] engine)
    (henabled : ∀ n, ((start terminalId engine).run lib act n).Enabled lib (act n))
    (hattends : Attends lib (start terminalId engine) act) {k : ℕ}
    (hquiet : ∀ n, k ≤ n → ¬ Changes (act n)) {i : ℕ} {x : Attachment}
    (hanswered : Answered lib (start terminalId engine) act i)
    (hstays : Stays lib (start terminalId engine) act i)
    (hlive : ((start terminalId engine).run lib act k).Live i x) (hkind : x.kind ≠ .legacy) :
    ∃ n y, ((start terminalId engine).run lib act n).attachments[i]? = some y ∧
      .state ((start terminalId engine).run lib act k).engine.revision ∈ y.emitted := by
  have hinv : Inv lib (start terminalId engine) := inv_start hengine
  have hnone : ∀ x, ¬ (start terminalId engine).Live i x := by
    rintro x ⟨hx, -⟩
    simp [start] at hx
  rcases current_or_awake hinv henabled hanswered hnone k with hgood | ⟨m, hkm, hm⟩
  · rcases hgood x hlive hkind with hcurrent | hawake
    · exact ⟨k, x, hlive.1, hcurrent⟩
    · have hlater : ∀ n, Enabled lib
          (((start terminalId engine).run lib act k).run lib (fun m => act (k + m)) n)
          (act (k + n)) := by
        intro n
        rw [← run_add]
        exact henabled (k + n)
      have hstays' : Stays lib ((start terminalId engine).run lib act k)
          (fun m => act (k + m)) i := by
        intro n x hx
        rw [← run_add] at hx
        exact hstays (k + n) x hx
      obtain ⟨n, y, hy, hsent⟩ := sent_of_awake (hinv.run henabled k) hlater (hattends.from k)
        (fun n => hquiet (k + n) (Nat.le_add_right k n)) hstays' hlive hkind hawake
      rw [← run_add] at hy
      exact ⟨k + n, y, hy, hsent⟩
  · exact absurd hm.changes (hquiet m hkm)

/-! ## Two runs -/

/-- A schedule that leaves nobody with anything to do attends to everybody. -/
theorem thenReceives_attends {first : List Action}
    (h : ∀ x ∈ (s.run lib (thenReceives first) first.length).attachments, x.phase = .live →
      (s.run lib (thenReceives first) first.length).events.length ≤ x.cursor ∧
        x.sync.shouldSend = false ∧ x.sync.undelivered = false ∧ x.sync.unanswered = false) :
    Attends lib s (thenReceives first) := by
  -- At the end nothing is left to do.
  have hidle : ∀ (p : Sync → Bool) (i n : ℕ),
      (∀ x ∈ (s.run lib (thenReceives first) first.length).attachments, x.phase = .live →
        p x.sync = false) →
      ∃ m, n ≤ m ∧ ¬ (s.run lib (thenReceives first) m).Has i p := by
    intro p i n hp
    refine ⟨n + first.length, Nat.le_add_right _ _, ?_⟩
    rw [run_thenReceives fun x hx => (h x (List.mem_of_getElem? hx.1) hx.2).1,
      min_eq_right (Nat.le_add_left _ _)]
    rintro ⟨x, ⟨hx, hlive⟩, htrue⟩
    rw [hp x (List.mem_of_getElem? hx) hlive] at htrue
    cases htrue
  constructor
  · intro n i _
    refine ⟨n + first.length, Nat.le_add_right _ _, .inr ?_⟩
    rw [run_thenReceives fun x hx => (h x (List.mem_of_getElem? hx.1) hx.2).1,
      min_eq_right (Nat.le_add_left _ _)]
    rintro ⟨x, ⟨hx, hlive⟩, hlt⟩
    exact absurd (h x (List.mem_of_getElem? hx) hlive).1 (Nat.not_le.2 hlt)
  · intro n i _
    obtain ⟨m, hnm, hm⟩ := hidle _ i n fun x hx hlive => (h x hx hlive).2.1
    exact ⟨m, hnm, .inr hm⟩
  · intro n i _
    obtain ⟨m, hnm, hm⟩ := hidle _ i n fun x hx hlive => (h x hx hlive).2.2.1
    exact ⟨m, hnm, .inr hm⟩
  · intro n i _
    obtain ⟨m, hnm, hm⟩ := hidle _ i n fun x hx hlive => (h x hx hlive).2.2.2
    exact ⟨m, hnm, .inr hm⟩

/-- A blank screen. -/
def screen (generation : ℕ) : Engine := ⟨blankState 0 generation, blankState 0 generation⟩

/-- Two viewers attach, and the second one resizes. -/
def missedResize : List Action :=
  [.attach "first" .independent false, .turn 0 .advance, .turn 0 .advance,
    .attach "second" .independent false, .turn 1 .advance, .turn 1 .advance,
    .turn 1 (.resize (screen 2)), .turn 1 (.update 0)]

/-- After the resize the program writes something. -/
def seenResize : List Action :=
  missedResize ++ [.output [] (screen 3), .turn 0 .receive, .turn 0 (.update 0), .turn 1 .receive,
    .turn 1 (.update 0)]

theorem follows_screen {past : List Engine} {generation : ℕ}
    (hfull : validate plainLibrary.graphemeCount (blankState 0 generation) = .ok ())
    (hviewport :
      validateViewportState plainLibrary.graphemeCount (blankState 0 generation) = .ok ())
    (hpast : ∀ p ∈ past, ∃ earlier < generation, p = screen earlier) :
    Follows plainLibrary past (screen generation) where
  full := hfull
  viewport := hviewport
  same := rfl
  newest := by
    intro p hp _
    obtain ⟨earlier, hlt, rfl⟩ := hpast p hp
    exact ⟨hlt.le, fun heq => absurd heq hlt.ne⟩
  forward := by
    intro p hp _
    obtain ⟨earlier, -, rfl⟩ := hpast p (List.mem_of_mem_head? hp)
    rfl

theorem missedResize_enabled (n : ℕ) :
    (blankHost.run plainLibrary (thenReceives missedResize) n).Enabled plainLibrary
      (thenReceives missedResize n) := by
  match n with
  | 6 =>
    refine ⟨follows_screen (by decide +kernel) (by decide +kernel) ?_, _, rfl, rfl⟩
    intro p hp
    exact ⟨1, by decide, List.mem_singleton.1 hp⟩
  | 0 | 1 | 2 | 3 | 4 | 5 | 7 | n + 8 => exact trivial

theorem seenResize_enabled (n : ℕ) :
    (blankHost.run plainLibrary (thenReceives seenResize) n).Enabled plainLibrary
      (thenReceives seenResize n) := by
  match n with
  | 6 =>
    refine ⟨follows_screen (by decide +kernel) (by decide +kernel) ?_, _, rfl, rfl⟩
    intro p hp
    exact ⟨1, by decide, List.mem_singleton.1 hp⟩
  | 8 =>
    refine follows_screen (by decide +kernel) (by decide +kernel) ?_
    intro p hp
    rcases List.mem_cons.1 hp with rfl | hp
    · exact ⟨2, by decide, rfl⟩
    · exact ⟨1, by decide, List.mem_singleton.1 hp⟩
  | 0 | 1 | 2 | 3 | 4 | 5 | 7 | 9 | 10 | 11 | 12 | n + 13 => exact trivial

theorem thenReceives_quiet {first : List Action} {n : ℕ} (h : first.length ≤ n) :
    ¬ Changes (thenReceives first n) := by
  rw [thenReceives_of_le h]
  rintro (⟨bytes, engine, heq⟩ | ⟨j, engine, heq⟩)
  · cases heq
  · cases heq

/-- The second viewer's resize goes unnoticed, but output follows. -/
theorem seenResize_answered (i : ℕ) :
    Answered plainLibrary blankHost (thenReceives seenResize) i := by
  intro n
  by_cases hn : n = 6
  · subst hn
    exact .inr ⟨8, by decide, .inl ⟨[], screen 3, rfl⟩⟩
  · refine .inl fun j engine x hact _ _ _ => ?_
    match n with
    | 6 => exact absurd rfl hn
    | 0 | 1 | 2 | 3 | 4 | 5 | 7 | 8 | 9 | 10 | 11 | 12 => cases hact
    | n + 13 => cases hact

theorem viewers_converge_seenResize :
    ∃ n y, (blankHost.run plainLibrary (thenReceives seenResize) n).attachments[0]? = some y ∧
      .state (blankHost.run plainLibrary (thenReceives seenResize) 13).engine.revision ∈
        y.emitted := by
  have hlive : (blankHost.run plainLibrary (thenReceives seenResize) 13).Live 0 _ := ⟨rfl, rfl⟩
  refine viewers_converge plainLibrary "terminal" (screen 1) (thenReceives seenResize)
    (follows_screen (by decide +kernel) (by decide +kernel) (by simp)) seenResize_enabled
    (thenReceives_attends (by decide)) (fun n hn => thenReceives_quiet hn)
    (seenResize_answered 0) ?_ hlive
    (by decide)
  intro n x hx
  exact thenReceives_forall plainLibrary blankHost seenResize
    (P := fun _ s => ∀ x ∈ s.attachments, x.phase ≠ .left) (by decide) (by decide) n x
    (List.mem_of_getElem? hx)

/-- The first viewer is live, up to date and clean when the second one resizes. Output and resizes
stop, everybody is attended to, and the first viewer is never sent the new revision. -/
theorem resize_can_be_missed :
    Follows plainLibrary [] (screen 1) ∧
    (∀ n, (blankHost.run plainLibrary (thenReceives missedResize) n).Enabled plainLibrary
      (thenReceives missedResize n)) ∧
    Attends plainLibrary blankHost (thenReceives missedResize) ∧
    (∀ n, 8 ≤ n → ¬ Changes (thenReceives missedResize n)) ∧
    (∃ x, (blankHost.run plainLibrary (thenReceives missedResize) 8).Live 0 x ∧
      x.kind = .independent) ∧
    Stays plainLibrary blankHost (thenReceives missedResize) 0 ∧
    ¬ ∃ n y, (blankHost.run plainLibrary (thenReceives missedResize) n).attachments[0]? = some y ∧
      .state (blankHost.run plainLibrary (thenReceives missedResize) 8).engine.revision ∈
        y.emitted := by
  have hfirst : ∀ n x,
      (blankHost.run plainLibrary (thenReceives missedResize) n).attachments[0]? = some x →
      x.phase ≠ .left ∧ .state (screen 2).revision ∉ x.emitted := by
    intro n x hx
    rw [← List.getElem?_take_of_lt Nat.zero_lt_one] at hx
    exact thenReceives_forall plainLibrary blankHost missedResize
      (P := fun _ s => ∀ x ∈ s.attachments.take 1,
        x.phase ≠ .left ∧ .state (screen 2).revision ∉ x.emitted) (by decide) (by decide) n x
      (List.mem_of_getElem? hx)
  refine ⟨follows_screen (by decide +kernel) (by decide +kernel) (by simp), missedResize_enabled,
    thenReceives_attends (by decide), fun n hn => thenReceives_quiet hn, ⟨_, ⟨rfl, rfl⟩, rfl⟩, ?_,
      ?_⟩
  · intro n x hx
    exact (hfirst n x hx).1
  · rintro ⟨n, y, hy, hsent⟩
    exact (hfirst n y hy).2 hsent

end Host

end AstraShell.Attach
