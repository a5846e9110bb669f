import Mathlib.Data.List.Nodup
import AstraShell.Client.Effect

/-!
# Input is never replayed

A call of `send_input` reads the incarnation that is live, waits in the queue, and may be dequeued
after any number of recoveries. `Numbered` ties the incarnation of the driver to the number of its
attachment, `Queue` and `Log` say where a call is. `Late` holds of a call that was under way while
the driver recovered: it is of an older incarnation than any attachment to come.

The main result is `input_never_replayed`.
-/

set_option autoImplicit false

namespace AstraShell.Client

open Lib Lib.Temporal Command

namespace LiveSession

variable {S P : Type}

/-! ## Incarnations -/

/-- The incarnation is the number of the attachment, or of the one to come, and neither the status
nor a call is ahead of it. -/
structure Numbered (s : LiveSession S P) : Prop where
  attached : s.phase.attached = true → s.incarnation = s.attachments
  recovers : s.phase.recovers = true → s.incarnation = s.attachments + 1
  status : ∀ k, s.status.value = .live k → k ≤ s.incarnation ∧ s.phase.recovers = false
  calls : ∀ i k bytes, kindOf s.calls i = some (.input k bytes) →
    k ≤ s.incarnation ∧ (s.phase.recovers = true → k < s.incarnation)

theorem Numbered.start (request : AttachRequest) :
    Numbered (LiveSession.start request : LiveSession S P) where
  attached _ := rfl
  recovers h := by cases h
  status k h := by cases h
  calls i k bytes h := by cases h

variable {i : ℕ} {s : LiveSession S P}

/-- The calls are bounded already, before and after the step, by the old incarnation. -/
theorem Numbered.kind_step (h : Numbered s) (a : LiveEvent S P) {k : ℕ}
    {bytes : List UInt8} (hkind : kindOf (s.step a).calls i = some (.input k bytes)) :
    k ≤ s.incarnation ∧ (s.phase.recovers = true → k < s.incarnation) := by
  rcases kindOf_step s a i with hold | ⟨request, -, -, hnew⟩
  · exact h.calls i k bytes (hold ▸ hkind)
  · obtain ⟨-, hlive⟩ := prepare_kind (hnew ▸ hkind)
    obtain ⟨hle, hnot⟩ := h.status k hlive
    refine ⟨hle, ?_⟩
    intro hrecovers
    rw [hnot] at hrecovers
    cases hrecovers

theorem Numbered.step (h : Numbered s) (a : LiveEvent S P) : Numbered (s.step a) := by
  have hkind : ∀ {i k : ℕ} {bytes : List UInt8},
      kindOf (s.step a).calls i = some (.input k bytes) →
        k ≤ s.incarnation ∧ (s.phase.recovers = true → k < s.incarnation) :=
          fun hi => h.kind_step a hi
  cases turn_step s a with
  | same hincarnation hattachments hstatus hphase =>
    constructor
    · intro hattached
      rw [hincarnation, hattachments]
      exact h.attached (hphase.attached hattached)
    · intro hrecovers
      rw [hincarnation, hattachments]
      exact h.recovers (hphase.recovers hrecovers)
    · intro k hlive
      rw [hstatus] at hlive
      obtain ⟨hle, hnot⟩ := h.status k hlive
      refine ⟨hincarnation ▸ hle, ?_⟩
      by_contra hrecovers
      rw [hphase.recovers (Bool.not_eq_false _ ▸ hrecovers)] at hnot
      cases hnot
    · intro i k bytes hi
      rw [hincarnation]
      exact ⟨(hkind hi).1, fun hrecovers => (hkind hi).2 (hphase.recovers hrecovers)⟩
  | live hphase hincarnation hattachments hstatus hphase' =>
    constructor
    · intro _
      rw [hincarnation, hattachments]
      exact h.attached (by rw [hphase]; rfl)
    · simp [hphase', Phase.recovers]
    · intro k hlive
      rw [hstatus] at hlive
      cases hlive
      exact ⟨hincarnation.ge, by rw [hphase']; rfl⟩
    · intro i k bytes hi
      exact ⟨hincarnation ▸ (hkind hi).1, by simp [hphase', Phase.recovers]⟩
  | lost attempt error hphase hincarnation hattachments hstatus hphase' =>
    constructor
    · simp [hphase', Phase.attached]
    · intro _
      rw [hincarnation, hattachments, h.attached (by rw [hphase]; rfl)]
    · intro k hlive
      exact absurd hlive (hstatus k)
    · intro i k bytes hi
      have hle := (hkind hi).1
      omega
  | again attempt attempt' hphase hincarnation hattachments hstatus hphase' =>
    have hrecovers : s.phase.recovers = true := by rw [hphase]; rfl
    constructor
    · simp [hphase', Phase.attached]
    · intro _
      rw [hincarnation, hattachments]
      exact h.recovers hrecovers
    · intro k hlive
      exact absurd hlive (hstatus k)
    · intro i k bytes hi
      rw [hincarnation]
      exact ⟨(hkind hi).1, fun _ => (hkind hi).2 hrecovers⟩
  | restored attempt hphase hincarnation hattachments hstatus hphase' =>
    constructor
    · intro _
      rw [hincarnation, hattachments]
      exact h.recovers (by rw [hphase]; rfl)
    · simp [hphase', Phase.recovers]
    · intro k hlive
      exact absurd hlive (hstatus k)
    · intro i k bytes hi
      exact ⟨hincarnation ▸ (hkind hi).1, by simp [hphase', Phase.recovers]⟩

/-! ## Where a call is -/

variable {calls : List Call} {stage : Stage}

/-- The queue holds the calls that are queued, once each. -/
structure Queue (s : LiveSession S P) : Prop where
  queued : ∀ command ∈ s.commands, stageOf s.calls command.call = some .queued ∧
    kindOf s.calls command.call = some command.kind
  mem : ∀ i, stageOf s.calls i = some .queued → i ∈ s.commands.map Command.call
  nodup : (s.commands.map Command.call).Nodup
  sending : ∀ command, s.phase = .sending command → stageOf s.calls command.call = some .taken

/-- Stages change outside of the queue, or with a call that leaves it. -/
theorem Queue.of_setStage {s' : LiveSession S P}
    (hcalls : s'.calls = setStage s.calls i stage) (hstage : stage ≠ .queued)
    (hqueued : ∀ command ∈ s'.commands, stageOf s.calls command.call = some .queued ∧
      kindOf s.calls command.call = some command.kind)
    (hi : i ∉ s'.commands.map call)
    (hmem : ∀ j, j ≠ i → stageOf s.calls j = some .queued → j ∈ s'.commands.map call)
    (hnodup : (s'.commands.map call).Nodup)
    (hsending : ∀ command, s'.phase = .sending command →
      stageOf s'.calls command.call = some .taken) : Queue s' := by
  refine ⟨?_, ?_, hnodup, hsending⟩
  · intro command hcommand
    have hne : i ≠ command.call := by
      rintro rfl
      exact hi (List.mem_map_of_mem hcommand)
    rw [hcalls, stageOf_setStage_ne hne, kindOf_setStage]
    exact hqueued command hcommand
  · intro j hj
    rw [hcalls] at hj
    by_cases hne : j = i
    · subst hne
      have hsome : ∃ old, stageOf s.calls j = some old := by
        have hlt := lt_length_of_stageOf hj
        rw [length_setStage] at hlt
        exact ⟨_, congrArg (Option.map Call.stage) (List.getElem?_eq_getElem hlt)⟩
      obtain ⟨old, hold⟩ := hsome
      rw [stageOf_setStage_self hold] at hj
      exact absurd (Option.some.inj hj) hstage
    · rw [stageOf_setStage_ne (Ne.symm hne)] at hj
      exact hmem j hne hj

theorem Queue.notMem (h : Queue s) (hi : stageOf s.calls i ≠ some .queued) :
    i ∉ s.commands.map call := by
  intro hmem
  obtain ⟨command, hcommand, rfl⟩ := List.mem_map.1 hmem
  exact hi (h.queued command hcommand).1

/-- A call outside of the queue is answered. -/
theorem Queue.answer {s' : LiveSession S P} (h : Queue s) {result : Except String Unit}
    (hcalls : s'.calls = setStage s.calls i (.answered result))
    (hcommands : s'.commands = s.commands)
    (hi : stageOf s.calls i ≠ some .queued)
    (hsending : ∀ command, s'.phase = .sending command →
      stageOf s'.calls command.call = some .taken) : Queue s' := by
  apply Queue.of_setStage hcalls (by simp) _ _ _ _ hsending
  · rw [hcommands]
    exact h.queued
  · rw [hcommands]
    exact h.notMem hi
  · rw [hcommands]
    exact fun j _ => h.mem j
  · rw [hcommands]
    exact h.nodup

theorem Queue.sending_of_ready (h : Queue s) (hready : stageOf s.calls i = some .ready)
    {command : Command} (hphase : s.phase = .sending command) :
    stageOf (setStage s.calls i stage) command.call = some .taken := by
  have htaken := h.sending command hphase
  have hne : i ≠ command.call := by
    rintro rfl
    rw [hready] at htaken
    cases htaken
  rw [stageOf_setStage_ne hne]
  exact htaken

theorem Queue.start (request : AttachRequest) :
    Queue (LiveSession.start request : LiveSession S P) where
  queued _ h := by cases h
  mem _ h := by cases h
  nodup := List.nodup_nil
  sending _ h := by cases h

/-- A call that the driver dequeues. -/
theorem Queue.pop {s' : LiveSession S P} (h : Queue s) {command : Command}
    (hpop : s.commands = command :: s'.commands)
    (hcalls : s'.calls = setStage s.calls command.call stage) (hstage : stage ≠ .queued)
    (hsending : ∀ command', s'.phase = .sending command' →
      stageOf s'.calls command'.call = some .taken) : Queue s' := by
  have hnodup := h.nodup
  rw [hpop, List.map_cons, List.nodup_cons] at hnodup
  apply Queue.of_setStage hcalls hstage _ hnodup.1 _ hnodup.2 hsending
  · intro command' hcommand
    apply h.queued
    rw [hpop]
    exact List.mem_cons_of_mem _ hcommand
  · intro j hne hj
    have hmem := h.mem j hj
    rw [hpop, List.map_cons] at hmem
    exact (List.mem_cons.1 hmem).resolve_left hne

theorem Queue.step (h : Queue s) (a : LiveEvent S P) : Queue (s.step a) := by
  cases effect_step s a with
  | kept hcalls hcommands _ hsending =>
    refine ⟨?_, ?_, ?_, ?_⟩
    · rw [hcalls, hcommands]
      exact h.queued
    · rw [hcalls, hcommands]
      exact h.mem
    · rw [hcommands]
      exact h.nodup
    · intro command hphase
      rw [hcalls]
      exact h.sending command (hsending command hphase)
  | called request _ hcalls hcommands _ hphase =>
    refine ⟨?_, ?_, ?_, ?_⟩
    · intro command hcommand
      rw [hcommands] at hcommand
      have hqueued := h.queued command hcommand
      have hlt := lt_length_of_stageOf hqueued.1
      rw [hcalls, stageOf_append hlt, kindOf_append hlt]
      exact hqueued
    · intro i hi
      rw [hcommands]
      rw [hcalls] at hi
      have hlt := lt_length_of_stageOf hi
      rw [List.length_append, List.length_singleton] at hlt
      rcases Nat.lt_succ_iff_lt_or_eq.1 hlt with hlt | rfl
      · exact h.mem i ((stageOf_append hlt _).symm.trans hi)
      · exfalso
        rw [stageOf, List.getElem?_concat_length] at hi
        exact prepare_not_queued s request (Option.some.inj hi)
    · rw [hcommands]
      exact h.nodup
    · intro command hsending
      rw [hphase] at hsending
      have htaken := h.sending command hsending
      rw [hcalls, stageOf_append (lt_length_of_stageOf htaken)]
      exact htaken
  | submitted i kind hready hkind hcalls hcommands _ hphase =>
    have hi : i ∉ s.commands.map call := h.notMem (by simp [hready])
    refine ⟨?_, ?_, ?_, ?_⟩
    · intro command hcommand
      rw [hcommands] at hcommand
      rw [hcalls, kindOf_setStage]
      rcases List.mem_append.1 hcommand with hold | hnew
      · have hne : i ≠ command.call := by
          rintro rfl
          exact hi (List.mem_map_of_mem hold)
        rw [stageOf_setStage_ne hne]
        exact h.queued command hold
      · obtain rfl := List.mem_singleton.1 hnew
        exact ⟨stageOf_setStage_self hready, hkind⟩
    · intro j hj
      rw [hcommands, List.map_append]
      by_cases hne : i = j
      · subst hne
        exact List.mem_append_right _ List.mem_cons_self
      · rw [hcalls, stageOf_setStage_ne hne] at hj
        exact List.mem_append_left _ (h.mem j hj)
    · rw [hcommands, List.map_append]
      refine List.nodup_append.2 ⟨h.nodup, List.nodup_singleton i, ?_⟩
      rintro j hj _ hi' rfl
      obtain rfl := List.mem_singleton.1 hi'
      exact hi hj
    · rw [hcalls, hphase]
      exact fun command => h.sending_of_ready hready
  | refused i e hready hcalls hcommands _ hphase =>
    apply h.answer hcalls hcommands (by simp [hready])
    rw [hcalls, hphase]
    exact fun command => h.sending_of_ready hready
  | popped command result hpop hcalls _ hsending =>
    apply h.pop hpop hcalls (by simp)
    intro command' hphase
    exact absurd hphase (hsending command')
  | taken command hpop hcalls _ hphase' =>
    apply h.pop hpop hcalls (by simp)
    intro command' hsending
    rw [hphase'] at hsending
    cases hsending
    rw [hcalls]
    refine stageOf_setStage_self (h.queued command ?_).1
    rw [hpop]
    exact List.mem_cons_self
  | completed command result hphase hcalls hcommands _ hsending =>
    apply h.answer hcalls hcommands (by simp [h.sending command hphase])
    exact fun command' hphase' => absurd hphase' (hsending command')
  | dropped hcalls hcommands _ hsending =>
    refine ⟨?_, ?_, ?_, ?_⟩
    · rw [hcommands]
      intro command hcommand
      cases hcommand
    · intro i hi
      exfalso
      rw [hcalls] at hi
      by_cases hmem : i ∈ s.commands.map call
      · have hsome : (stageOf s.calls i).isSome := by
          obtain ⟨command, hcommand, rfl⟩ := List.mem_map.1 hmem
          rw [(h.queued command hcommand).1]
          rfl
        rw [stageOf_dropAll_of_mem _ _ hsome hmem] at hi
        cases hi
      · rw [stageOf_dropAll_of_notMem _ _ hmem] at hi
        exact hmem (h.mem i hi)
    · rw [hcommands]
      exact List.nodup_nil
    · intro command hphase
      exact absurd hphase (hsending command)

/-- What a step can do to a call in a stage. -/
inductive Onward (s : LiveSession S P) (i : ℕ) : Stage → Stage → Prop
  | stay (stage : Stage) : Onward s i stage stage
  | queued : Onward s i .ready .queued
  | refused (e : String) : Onward s i .ready (.answered (.error e))
  | popped (result : Except String Unit)
      (hinput : ∀ k bytes, kindOf s.calls i = some (.input k bytes) → ∃ e, result = .error e) :
      Onward s i .queued (.answered result)
  | taken (hphase : s.phase = .serving)
      (hinput : ∀ k bytes, kindOf s.calls i = some (.input k bytes) → k = s.incarnation) :
      Onward s i .queued .taken
  | completed (result : Except String Unit) : Onward s i .taken (.answered result)

theorem onward_step (h : Queue s) (a : LiveEvent S P) (hold : stageOf s.calls i = some stage) :
    ∃ stage', stageOf (s.step a).calls i = some stage' ∧ Onward s i stage stage' := by
  have hset (j : ℕ) (new : Stage) (hnew : j = i → Onward s i stage new) :
      ∃ stage', stageOf (setStage s.calls j new) i = some stage' ∧ Onward s i stage stage' := by
    by_cases hj : j = i
    · subst hj
      exact ⟨new, stageOf_setStage_self hold, hnew rfl⟩
    · exact ⟨stage, (stageOf_setStage_ne hj).trans hold, .stay stage⟩
  cases effect_step s a with
  | kept hcalls =>
    rw [hcalls]
    exact ⟨stage, hold, .stay stage⟩
  | called request _ hcalls =>
    rw [hcalls, stageOf_append (lt_length_of_stageOf hold)]
    exact ⟨stage, hold, .stay stage⟩
  | submitted j kind hready _ hcalls =>
    rw [hcalls]
    apply hset
    rintro rfl
    cases hready.symm.trans hold
    exact .queued
  | refused j e hready hcalls =>
    rw [hcalls]
    apply hset
    rintro rfl
    cases hready.symm.trans hold
    exact .refused e
  | popped command result hpop hcalls _ _ hinput =>
    rw [hcalls]
    apply hset
    rintro rfl
    obtain ⟨hqueued, hkind⟩ := h.queued command (hpop ▸ List.mem_cons_self)
    cases hqueued.symm.trans hold
    exact .popped result fun k bytes hk => hinput k bytes (Option.some.inj (hkind.symm.trans hk))
  | taken command hpop hcalls hphase _ hhanded =>
    rw [hcalls]
    apply hset
    rintro rfl
    obtain ⟨hqueued, hkind⟩ := h.queued command (hpop ▸ List.mem_cons_self)
    cases hqueued.symm.trans hold
    refine .taken hphase fun k bytes hk => ?_
    have hcommand := Option.some.inj (hkind.symm.trans hk)
    rcases hhanded with ⟨bytes', hinput, -⟩ | ⟨hother, -⟩
    · cases hcommand.symm.trans hinput
      rfl
    · exact absurd hcommand (hother k bytes)
  | completed command result hphase hcalls =>
    rw [hcalls]
    apply hset
    rintro rfl
    cases (h.sending command hphase).symm.trans hold
    exact .completed result
  | dropped hcalls =>
    rw [hcalls]
    by_cases hmem : i ∈ s.commands.map call
    · refine ⟨_, stageOf_dropAll_of_mem _ _ (by rw [hold]; rfl) hmem, ?_⟩
      obtain ⟨command, hcommand, rfl⟩ := List.mem_map.1 hmem
      cases (h.queued command hcommand).1.symm.trans hold
      exact .popped _ fun _ _ _ => ⟨_, rfl⟩
    · exact ⟨stage, (stageOf_dropAll_of_notMem _ _ hmem).trans hold, .stay stage⟩

/-- The driver has dequeued the command, or there is none to dequeue. -/
def Gone (calls : List Call) (i : ℕ) : Prop :=
  stageOf calls i = some .taken ∨ ∃ result, stageOf calls i = some (.answered result)

theorem Gone.not_queued (h : Gone calls i) : stageOf calls i ≠ some .queued := by
  rcases h with h | ⟨result, h⟩ <;> rw [h] <;> nofun

theorem Gone.lt_length (h : Gone calls i) : i < calls.length := by
  rcases h with h | ⟨result, h⟩
  · exact lt_length_of_stageOf h
  · exact lt_length_of_stageOf h

theorem Gone.step (h : Gone s.calls i) (hqueue : Queue s) (a : LiveEvent S P) :
    Gone (s.step a).calls i := by
  rcases h with h | ⟨result, h⟩
  · obtain ⟨stage', hstage, honward⟩ := onward_step hqueue a h
    cases honward with
    | stay => exact .inl hstage
    | completed result => exact .inr ⟨result, hstage⟩
  · obtain ⟨stage', hstage, honward⟩ := onward_step hqueue a h
    cases honward
    exact .inr ⟨result, hstage⟩

/-- Input is logged when its command is taken. -/
theorem handed_step (s : LiveSession S P) (a : LiveEvent S P) :
    (s.step a).handed = s.handed ∨ ∃ command ∈ s.commands, ∃ bytes, s.phase = .serving ∧
      command.kind = .input s.incarnation bytes ∧
      (s.step a).calls = setStage s.calls command.call .taken ∧
      (s.step a).handed = s.handed ++ [⟨s.attachments, command.call, bytes⟩] := by
  cases effect_step s a with
  | kept _ _ hhanded
  | called _ _ _ _ hhanded
  | submitted _ _ _ _ _ _ hhanded
  | refused _ _ _ _ _ hhanded
  | popped _ _ _ _ hhanded
  | completed _ _ _ _ _ hhanded
  | dropped _ _ hhanded => exact .inl hhanded
  | taken command hpop hcalls hphase _ hhanded =>
    rcases hhanded with ⟨bytes, hkind, hhanded⟩ | ⟨-, hhanded⟩
    · exact .inr ⟨command, hpop ▸ List.mem_cons_self, bytes, hphase, hkind, hcalls, hhanded⟩
    · exact .inl hhanded

/-- The log holds input of the incarnation of its attachment, at most once a call. -/
structure Log (s : LiveSession S P) : Prop where
  handed : ∀ h ∈ s.handed, kindOf s.calls h.call = some (.input h.attachment h.bytes) ∧
    Gone s.calls h.call
  once : (s.handed.map Handed.call).Nodup

theorem Log.start (request : AttachRequest) :
    Log (LiveSession.start request : LiveSession S P) where
  handed _ h := by cases h
  once := List.nodup_nil

/-- The entries of the log keep their kind, which only a new call gets. -/
theorem Log.kept (h : Log s) (hqueue : Queue s) (a : LiveEvent S P) :
    ∀ e ∈ s.handed, kindOf (s.step a).calls e.call = some (.input e.attachment e.bytes) ∧
      Gone (s.step a).calls e.call := by
  intro e he
  obtain ⟨hkind, hgone⟩ := h.handed e he
  refine ⟨?_, hgone.step hqueue a⟩
  rcases kindOf_step s a e.call with hold | ⟨-, -, hlength, -⟩
  · rw [hold]
    exact hkind
  · exact absurd hgone.lt_length (by omega)

theorem Log.step (h : Log s) (hqueue : Queue s) (hnumbered : Numbered s)
    (a : LiveEvent S P) : Log (s.step a) := by
  have hkept := h.kept hqueue a
  rcases handed_step s a with hhanded | ⟨command, hcommand, bytes, hphase, hkind, hcalls, hhanded⟩
  · rw [← hhanded] at hkept
    exact ⟨hkept, hhanded ▸ h.once⟩
  · obtain ⟨hqueued, hkindOf⟩ := hqueue.queued command hcommand
    refine ⟨?_, ?_⟩
    · intro e he
      rw [hhanded] at he
      rcases List.mem_append.1 he with hold | hnew
      · exact hkept e hold
      · obtain rfl := List.mem_singleton.1 hnew
        have hattachment : s.incarnation = s.attachments :=
          hnumbered.attached (by rw [hphase]; rfl)
        rw [hcalls, kindOf_setStage, hkindOf, hkind, hattachment]
        exact ⟨rfl, .inl (stageOf_setStage_self hqueued)⟩
    · -- A call in the queue is not in the log yet.
      rw [hhanded, List.map_append]
      refine List.nodup_append.2 ⟨h.once, List.nodup_singleton _, ?_⟩
      rintro i hi _ hi' rfl
      obtain rfl := List.mem_singleton.1 hi'
      obtain ⟨e, he, heq⟩ := List.mem_map.1 hi
      refine (h.handed e he).2.not_queued ?_
      rw [heq]
      exact hqueued

/-! ## Calls that are overtaken by a recovery -/

/-- The call is of an older incarnation than any attachment to come: it waits, or it was refused. -/
structure Late (s : LiveSession S P) (i : ℕ) : Prop where
  old : ∃ k bytes, kindOf s.calls i = some (.input k bytes) ∧ k < s.horizon
  stage : stageOf s.calls i = some .ready ∨ stageOf s.calls i = some .queued ∨
    ∃ e, stageOf s.calls i = some (.answered (.error e))
  notHanded : i ∉ s.handed.map Handed.call

theorem Late.lt_length (h : Late s i) : i < s.calls.length := by
  rcases h.stage with h | h | ⟨e, h⟩ <;> exact lt_length_of_stageOf h

theorem Late.old_step (h : Late s i) (a : LiveEvent S P) :
    ∃ k bytes, kindOf (s.step a).calls i = some (.input k bytes) ∧ k < (s.step a).horizon := by
  obtain ⟨k, bytes, hkind, hk⟩ := h.old
  refine ⟨k, bytes, ?_, hk.trans_le (horizon_le_step s a)⟩
  rcases kindOf_step s a i with hold | ⟨-, -, hlength, -⟩
  · rw [hold]
    exact hkind
  · exact absurd h.lt_length (by omega)

/-- The driver hands over input of its own incarnation only, so never that of the call. -/
theorem Late.kind_ne (h : Late s i) (hphase : s.phase = .serving) (bytes : List UInt8) :
    kindOf s.calls i ≠ some (.input s.incarnation bytes) := by
  intro hown
  obtain ⟨k, bytes', hkind, hk⟩ := h.old
  cases hown.symm.trans hkind
  rw [horizon, hphase] at hk
  exact absurd hk (Nat.lt_irrefl _)

theorem Late.stage_step (h : Late s i) (hqueue : Queue s) (a : LiveEvent S P) :
    stageOf (s.step a).calls i = some .ready ∨ stageOf (s.step a).calls i = some .queued ∨
      ∃ e, stageOf (s.step a).calls i = some (.answered (.error e)) := by
  obtain ⟨k, bytes, hkind, -⟩ := h.old
  rcases h.stage with hold | hold | ⟨e, hold⟩
  · obtain ⟨stage', hstage, honward⟩ := onward_step hqueue a hold
    cases honward with
    | stay => exact .inl hstage
    | queued => exact .inr (.inl hstage)
    | refused e => exact .inr (.inr ⟨e, hstage⟩)
  · obtain ⟨stage', hstage, honward⟩ := onward_step hqueue a hold
    cases honward with
    | stay => exact .inr (.inl hstage)
    | popped result hinput =>
      obtain ⟨e, rfl⟩ := hinput k bytes hkind
      exact .inr (.inr ⟨e, hstage⟩)
    | taken hphase hinput =>
      obtain rfl := hinput k bytes hkind
      exact absurd hkind (h.kind_ne hphase bytes)
  · obtain ⟨stage', hstage, honward⟩ := onward_step hqueue a hold
    cases honward
    exact .inr (.inr ⟨e, hstage⟩)

theorem Late.step (h : Late s i) (hqueue : Queue s) (a : LiveEvent S P) : Late (s.step a) i := by
  refine ⟨h.old_step a, h.stage_step hqueue a, ?_⟩
  rcases handed_step s a with hhanded | ⟨command, hcommand, bytes, hphase, hkind, -, hhanded⟩
  · rw [hhanded]
    exact h.notHanded
  · rw [hhanded, List.map_append]
    intro hmem
    rcases List.mem_append.1 hmem with hmem | hmem
    · exact h.notHanded hmem
    · obtain rfl := List.mem_singleton.1 hmem
      exact h.kind_ne hphase bytes (hkind ▸ (hqueue.queued command hcommand).2)

/-! ## Runs -/

/-- The attachment has failed and there is no other one yet. -/
def Recovering (s : LiveSession S P) : Prop :=
  (∃ error, s.phase = .failed error) ∨ s.phase.recovers = true

/-- The input of the call has a command that the driver has not dequeued. -/
def UnderWay (s : LiveSession S P) (i : ℕ) : Prop :=
  (∃ k bytes, kindOf s.calls i = some (.input k bytes)) ∧
    (stageOf s.calls i = some .ready ∨ stageOf s.calls i = some .queued)

/-- The driver polls its commands, or it ends and drops them. -/
def Serves (s : LiveSession S P) (a : LiveEvent S P) : Prop :=
  a = .driver .receive ∧ (s.phase = .serving ∨ ∃ attempt, s.phase = .recovering attempt) ∨
    a = .driver .settle ∧ ∃ result, s.phase = .ended result

/-- As long as there are commands the driver comes back to them, or ends. -/
def Fair (request : AttachRequest) (act : ℕ → LiveEvent S P) : Prop :=
  ∀ n, (run request act n).commands ≠ [] → ∃ m, n ≤ m ∧ Serves (run request act m) (act m)

structure Inv (s : LiveSession S P) : Prop where
  numbered : Numbered s
  queue : Queue s
  log : Log s

theorem inv_run (request : AttachRequest) (act : ℕ → LiveEvent S P) (n : ℕ) :
    Inv (run request act n) := by
  refine run_invariant ⟨.start request, .start request, .start request⟩ ?_ n
  intro m h
  exact ⟨h.numbered.step _, h.queue.step _, h.log.step h.queue h.numbered _⟩

variable {n : ℕ}

/-- A command of input goes back to a call, and to what was live then. -/
theorem called_of_kindOf (request : AttachRequest) (act : ℕ → LiveEvent S P) {k : ℕ}
    {bytes : List UInt8} (h : kindOf (run request act n).calls i = some (.input k bytes)) :
    ∃ m < n, act m = .call (.input bytes) ∧ (run request act m).calls.length = i ∧
      (run request act m).status.value = .live k := by
  induction n with
  | zero => cases h
  | succ n ih =>
    rcases kindOf_step (run request act n) (act n) i with hold | ⟨made, hact, hi, hnew⟩
    · obtain ⟨m, hm, hcalled⟩ := ih (hold.symm.trans h)
      exact ⟨m, hm.trans (Nat.lt_succ_self n), hcalled⟩
    · obtain ⟨rfl, hlive⟩ := prepare_kind (hnew.symm.trans h)
      exact ⟨n, Nat.lt_succ_self n, hact, hi.symm, hlive⟩

/-- A call that is under way while the driver recovers is late. -/
theorem Inv.late (h : Inv s) (hrecovering : Recovering s) (hi : UnderWay s i) : Late s i := by
  obtain ⟨⟨k, bytes, hkind⟩, hstage⟩ := hi
  obtain ⟨hle, hlt⟩ := h.numbered.calls i k bytes hkind
  refine ⟨⟨k, bytes, hkind, ?_⟩, hstage.imp_right .inl, ?_⟩
  · rcases hrecovering with ⟨error, hphase⟩ | hrecovers
    · rw [horizon, hphase]
      exact Nat.lt_succ_of_le hle
    · exact (hlt hrecovers).trans_le (Nat.le_add_right _ _)
  · intro hmem
    obtain ⟨e, he, rfl⟩ := List.mem_map.1 hmem
    have hgone := (h.log.handed e he).2
    rcases hstage with hready | hqueued
    · rcases hgone with h | ⟨result, h⟩ <;> rw [h] at hready <;> cases hready
    · exact hgone.not_queued hqueued

theorem late_from (request : AttachRequest) (act : ℕ → LiveEvent S P)
    (h : Late (run request act n) i) {m : ℕ} (hm : n ≤ m) : Late (run request act m) i := by
  induction m, hm using Nat.le_induction with
  | base => exact h
  | succ m _ ih => exact ih.step (inv_run request act m).queue (act m)

theorem perform_commands (s : LiveSession S P) (command : Command) :
    (s.perform command).commands = s.commands := by
  unfold perform
  cases command.kind with
  | input incarnation bytes | resize size =>
    dsimp only
    split <;> rfl
  | history => rfl
  | detach => rfl

theorem Serves.pops {a : LiveEvent S P} (h : Serves s a) (hcommands : s.commands ≠ []) :
    (∃ command, s.commands = command :: (s.step a).commands) ∨ (s.step a).commands = [] := by
  obtain ⟨command, rest, hpop⟩ := List.exists_cons_of_ne_nil hcommands
  rcases h with ⟨rfl, hphase | ⟨attempt, hphase⟩⟩ | ⟨rfl, result, hphase⟩
  · left
    refine ⟨command, ?_⟩
    rw [step, drive, hphase, hpop]
    rw [perform_commands]
  · left
    refine ⟨command, ?_⟩
    rw [step, drive, hphase, hpop]
    cases hkind : command.kind <;> simp [discard, hkind, answer]
  · right
    rw [step, drive, hphase]
    rfl

theorem commands_step (s : LiveSession S P) (a : LiveEvent S P) :
    Grows s.commands (s.step a).commands ∨
      (∃ command, Pops command s.commands (s.step a).commands) ∨ (s.step a).commands = [] := by
  cases effect_step s a with
  | kept _ hcommands
  | called _ _ _ hcommands
  | refused _ _ _ _ hcommands
  | completed _ _ _ _ hcommands => exact .inl ⟨[], by rw [hcommands, List.append_nil]⟩
  | submitted i kind _ _ _ hcommands => exact .inl ⟨[⟨i, kind⟩], hcommands⟩
  | popped command _ hpop | taken command hpop => exact .inr (.inl ⟨command, hpop⟩)
  | dropped _ hcommands => exact .inr (.inr hcommands)

/-- A late call that is in the queue is refused, or it stays there no further back, and a poll of
the commands brings it forward. -/
theorem Late.position (h : Late s i) (hqueue : Queue s)
    (hqueued : stageOf s.calls i = some .queued) (a : LiveEvent S P) :
    (∃ e, stageOf (s.step a).calls i = some (.answered (.error e))) ∨
      stageOf (s.step a).calls i = some .queued ∧
        ((s.step a).commands.map call).idxOf i ≤ (s.commands.map call).idxOf i ∧
        (Serves s a →
          ((s.step a).commands.map call).idxOf i <
            (s.commands.map call).idxOf i) := by
  have hmem := hqueue.mem i hqueued
  have hcommands : s.commands ≠ [] := by
    intro hnil
    rw [hnil] at hmem
    cases hmem
  rcases (h.step hqueue a).stage with hready | hstill | hrefused
  · obtain ⟨stage', hstage, honward⟩ := onward_step hqueue a hqueued
    cases hready.symm.trans hstage
    cases honward
  · right
    have hmem' := (hqueue.step a).mem i hstill
    have hkept : (s.step a).commands ≠ [] := by
      intro hnil
      rw [hnil] at hmem'
      cases hmem'
    refine ⟨hstill, ?_⟩
    rcases commands_step s a with ⟨more, hmore⟩ | ⟨command, hpop⟩ | hnil
    · refine ⟨?_, ?_⟩
      · rw [hmore, List.map_append, List.idxOf_append_of_mem hmem]
      · -- A poll would have taken the head of the queue.
        intro hserves
        rcases hserves.pops hcommands with ⟨command, hpop⟩ | hnil
        · have hlength := congrArg List.length hpop
          rw [hmore, List.length_cons, List.length_append] at hlength
          omega
        · exact absurd hnil hkept
    · have hnodup := hqueue.nodup
      rw [hpop, List.map_cons, List.nodup_cons] at hnodup
      have hne : command.call ≠ i := by
        rintro rfl
        exact hnodup.1 hmem'
      rw [hpop, List.map_cons, List.idxOf_cons_ne _ hne]
      exact ⟨Nat.le_succ _, fun _ => Nat.lt_succ_self _⟩
    · exact absurd hnil hkept
  · exact .inl hrefused

/-- A late call that is in the queue is refused in the end. -/
theorem late_answered {request : AttachRequest} {act : ℕ → LiveEvent S P} (hfair : Fair request act)
    (h : Late (run request act n) i) :
    ∀ m, n ≤ m → stageOf (run request act m).calls i = some .queued →
      ∃ m', m ≤ m' ∧ ∃ e, stageOf (run request act m').calls i = some (.answered (.error e)) := by
  have hleads : LeadsTo
      (fun m => n ≤ m ∧ stageOf (run request act m).calls i = some .queued)
      (fun m => ∃ e, stageOf (run request act m).calls i = some (.answered (.error e))) := by
    -- The measure is the number of commands before that of the call.
    refine leadsTo_of_variant (fun m => ((run request act m).commands.map call).idxOf i)
      (fun m => Serves (run request act m) (act m)) ?_ ?_ ?_
    · rintro m ⟨hm, hqueued⟩
      have hposition := (late_from request act h hm).position (inv_run request act m).queue hqueued
        (act m)
      rcases hposition with hrefused | ⟨hstill, hle, -⟩
      · exact .inl hrefused
      · exact .inr ⟨⟨hm.trans (Nat.le_succ m), hstill⟩, hle⟩
    · rintro m ⟨-, hqueued⟩
      apply hfair
      intro hnil
      have hmem := (inv_run request act m).queue.mem i hqueued
      rw [hnil] at hmem
      cases hmem
    · rintro m ⟨hm, hqueued⟩ hserves
      have hposition := (late_from request act h hm).position (inv_run request act m).queue hqueued
        (act m)
      rcases hposition with hrefused | ⟨hstill, -, hlt⟩
      · exact .inl hrefused
      · exact .inr ⟨⟨hm.trans (Nat.le_succ m), hstill⟩, hlt hserves⟩
  intro m hm hqueued
  exact hleads m ⟨hm, hqueued⟩

/-! ## Main result -/

/-- At every point of every run: an attachment has the number of the incarnation it was made under;
the input of a call was handed over at most once, to the attachment whose incarnation was live when
the consumer called; and a call that is under way while the driver recovers is never handed over, is
answered with an error if at all, and is answered once the driver comes back to its queue. -/
theorem input_never_replayed (request : AttachRequest) (act : ℕ → LiveEvent S P) (n : ℕ) :
    ((run request act n).phase.attached = true →
      (run request act n).incarnation = (run request act n).attachments) ∧
    ((run request act n).handed.map Handed.call).Nodup ∧
    (∀ e ∈ (run request act n).handed, ∃ m < n, act m = .call (.input e.bytes) ∧
      (run request act m).calls.length = e.call ∧
      (run request act m).status.value = .live e.attachment) ∧
    ∀ i, Recovering (run request act n) → UnderWay (run request act n) i →
      (∀ m, n ≤ m → i ∉ (run request act m).handed.map Handed.call ∧
        ∀ result, stageOf (run request act m).calls i = some (.answered result) →
          ∃ e, result = .error e) ∧
      (Fair request act → ∀ m, n ≤ m → stageOf (run request act m).calls i = some .queued →
        ∃ m', m ≤ m' ∧ ∃ e,
          stageOf (run request act m').calls i = some (.answered (.error e))) := by
  have hinv := inv_run request act n
  refine ⟨hinv.numbered.attached, hinv.log.once, ?_, ?_⟩
  · intro e he
    exact called_of_kindOf request act (hinv.log.handed e he).1
  · intro i hrecovering hi
    have hlate := hinv.late hrecovering hi
    refine ⟨?_, ?_⟩
    · intro m hm
      have hlate' := late_from request act hlate hm
      refine ⟨hlate'.notHanded, ?_⟩
      intro result hanswered
      rcases hlate'.stage with hstage | hstage | ⟨e, hstage⟩
      · simp [hanswered] at hstage
      · simp [hanswered] at hstage
      · cases hanswered.symm.trans hstage
        exact ⟨e, rfl⟩
    · intro hfair
      exact late_answered hfair hlate

/-- The attachment fails while a call of `send_input` has not queued its command yet. -/
def overtaken : List (LiveEvent Unit Unit) :=
  [.driver (.resized (.ok ())), .driver (.state ()), .driver .publish, .call (.input [7]),
    .driver (.failure "lost"), .submit 0, .driver (.recover 0), .driver .receive]

theorem fair_overtaken : Fair plainRequest (listed overtaken) := by
  intro n hcommands
  by_cases hn : n ≤ 7
  · exact ⟨7, hn, .inl ⟨rfl, .inr ⟨1, rfl⟩⟩⟩
  · -- The queue stays empty when the run is over.
    exfalso
    apply hcommands
    have hfixed : ∀ m, 8 ≤ m →
        step (run plainRequest (listed overtaken) 8) (listed overtaken m) =
          run plainRequest (listed overtaken) 8 := by
      intro m hm
      rw [listed, List.getElem?_eq_none hm]
      rfl
    have hlast : run plainRequest (listed overtaken) n = run plainRequest (listed overtaken) 8 :=
      run_of_fixed hfixed (by omega)
    rw [hlast]
    rfl

/-- Such a call is refused and no attachment is given its input. -/
theorem input_never_replayed_overtaken :
    Recovering (run plainRequest (listed overtaken) 6) ∧
      UnderWay (run plainRequest (listed overtaken) 6) 0 ∧
      (∃ m, 6 ≤ m ∧ ∃ e,
        stageOf (run plainRequest (listed overtaken) m).calls 0 = some (.answered (.error e))) ∧
      ∀ m, 6 ≤ m → 0 ∉ (run plainRequest (listed overtaken) m).handed.map Handed.call := by
  have hrecovering : Recovering (run plainRequest (listed overtaken) 6) := .inl ⟨_, rfl⟩
  have hunderWay : UnderWay (run plainRequest (listed overtaken) 6) 0 := ⟨⟨1, [7], rfl⟩, .inr rfl⟩
  obtain ⟨hnever, hanswered⟩ := (input_never_replayed plainRequest (listed overtaken) 6).2.2.2 0
    hrecovering hunderWay
  exact ⟨hrecovering, hunderWay, hanswered fair_overtaken 6 (Nat.le_refl 6) rfl,
    fun m hm => (hnever m hm).1⟩

end LiveSession

end AstraShell.Client
