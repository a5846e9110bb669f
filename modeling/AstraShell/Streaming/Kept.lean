import AstraShell.Streaming.Repair

/-!
# The window and a hostile client

Acknowledgements and repair requests as a client may make them up, among the calls of the sender
itself. A call that fails keeps what its method assigned before the failure. `Kept` is what the
calls keep true of the window, and `window_kept` says so along every sequence of them.
-/

set_option autoImplicit false

namespace AstraShell.Streaming

open Lib TerminalState TerminalSync OrdMap StreamingStateWindow Link

/-- The window of a sender between two calls. -/
structure Kept (w : StreamingStateWindow) : Prop where
  retained : w.retainedGenerations = defaultRetainedGenerations
  base : w.sent.get? w.base.generation = some w.base
  sent : ∀ k v, w.sent.get? k = some v →
    v.generation = k ∧ v.epoch = w.base.epoch ∧ w.base.generation ≤ k ∧ k ≤ w.top
  size : w.sent.size ≤ defaultRetainedGenerations
  retired : w.retiredEpochs.length ≤ defaultRetainedGenerations
  unacknowledged : w.baseAcknowledged = false → ∀ k v, w.sent.get? k = some v → v = w.base

section Kept

variable {lib : External} {w w' : StreamingStateWindow} {state : State}

theorem base_le_top (w : StreamingStateWindow) : w.base.generation ≤ w.top := by
  unfold top
  grind

/-- A window that has sent nothing but its base. -/
theorem Kept.of_single (hretained : w.retainedGenerations = defaultRetainedGenerations)
    (hsent : w.sent = empty.insert w.base.generation w.base)
    (hretired : w.retiredEpochs.length ≤ defaultRetainedGenerations) : Kept w := by
  have honly : ∀ k v, w.sent.get? k = some v → k = w.base.generation ∧ v = w.base := by
    intro k v hv
    rw [hsent] at hv
    exact (get?_insert_cases hv).resolve_right nofun
  refine ⟨hretained, by rw [hsent, get?_insert_self], ?_, ?_, hretired, fun _ k v hv =>
    (honly k v hv).2⟩
  · intro k v hv
    obtain ⟨rfl, rfl⟩ := honly k v hv
    exact ⟨rfl, rfl, le_rfl, base_le_top w⟩
  · rw [hsent]
    exact (size_insert_le _ _ _).trans (by decide)

theorem length_installed_retiredEpochs (h : w.retiredEpochs.length ≤ defaultRetainedGenerations) :
    (w.installed state).retiredEpochs.length ≤ defaultRetainedGenerations := by
  simp only [installed, remember_retiredEpochs]
  split
  · split
    · simpa using h
    next hshort => exact not_lt.1 hshort
  · exact h

section

variable (h : Kept w)

include h

/-- A new base alone. -/
theorem Kept.installed : Kept (w.installed state) :=
  .of_single h.retained (installed_sent (by rw [h.retained]; decide))
    (length_installed_retiredEpochs h.retired)

theorem Kept.remember (hnews : w.IsNews state) (hacked : w.baseAcknowledged = true)
    (hepoch : state.epoch = w.base.epoch) : Kept (w.remember state) := by
  obtain ⟨hlt, htop⟩ := top_le_of_isNews hnews hepoch
  have htop' : (w.remember state).top = state.generation := by simp [top, hepoch, hlt.le]
  have hmem := mem_support_of_get? h.base
  have hevicts := remember_evicts hmem
    (fun k hk => by
      obtain ⟨v, hv⟩ := (mem_support_iff_get? _ _).1 hk
      exact (h.sent k v hv).2.2.1)
    (by rw [card_support, h.retained]; exact h.size) hlt
  refine { h with base := ?_, sent := fun k v hv => ?_, size := ?_, unacknowledged := ?_ }
  · obtain ⟨v, hv⟩ := (mem_support_iff_get? _ _).1
      (hevicts.mem_keep (Finset.mem_insert_of_mem hmem))
    rcases get?_remember hv with ⟨heq, -⟩ | hold
    · exact absurd heq hlt.ne
    · rw [remember_base, hv, ← hold, h.base]
  · rw [remember_base, htop']
    rcases get?_remember hv with ⟨rfl, rfl⟩ | hold
    · exact ⟨rfl, hepoch, hlt.le, le_rfl⟩
    · obtain ⟨hkey, he, hle, hk⟩ := h.sent k v hold
      exact ⟨hkey, he, hle, hk.trans htop⟩
  · rw [← card_support, ← h.retained]
    exact hevicts.card_le
  · intro hfalse
    cases hacked.symm.trans hfalse

/-- Once the base has reached the latest target, nothing but the base is sent. -/
theorem Kept.only_base (hreached : ∀ t, w.latestTarget = some t →
      t.epoch = w.base.epoch ∧ t.generation ≤ w.base.generation) {k : Nat} {v : State}
    (hv : w.sent.get? k = some v) : v = w.base := by
  obtain ⟨-, -, hle, htop⟩ := h.sent k v hv
  rw [top_of_reached hreached] at htop
  rw [le_antisymm htop hle, h.base] at hv
  exact (Option.some.inj hv).symm

/-- The latest target of a window that has sent nothing but its base does not matter. -/
theorem Kept.setLatest (honly : ∀ k v, w.sent.get? k = some v → v = w.base) (latest : Option State)
    (acked : Bool) : Kept { w with latestTarget := latest, baseAcknowledged := acked } := by
  refine { h with sent := fun k v hv => ?_, unacknowledged := fun _ => honly }
  obtain ⟨hkey, he, hle, -⟩ := h.sent k v hv
  refine ⟨hkey, he, hle, ?_⟩
  rw [← hkey, honly k v hv]
  exact base_le_top { w with latestTarget := latest, baseAcknowledged := acked }

theorem Kept.sends {candidate : Option State} {update : Option StreamingUpdate}
    (hsends : w.Sends lib candidate update w') : Kept w' := by
  cases hsends with
  | unchanged => exact h
  | pend latest hcandidate hnews hacked => exact h.setLatest (h.unacknowledged hacked) _ _
  | clear latest hlatest hreached =>
    refine h.setLatest (fun k v hv => h.only_base (fun t ht => ?_) hv) _ _
    cases hlatest.symm.trans ht
    exact hreached
  | delta latest update d hcandidate hnews hacked hepoch => exact h.remember hnews hacked hepoch
  | keyframe latest hcandidate hnews hacked hvalid => exact h.installed
  | resend hacked hlatest => exact h.setLatest (fun k v hv => h.only_base hlatest hv) _ _

theorem Kept.acknowledges {ack : TerminalStateAck} (hack : w.Acknowledges ack w') : Kept w' := by
  cases hack with
  | retired hretired => exact h
  | old hepoch hgen =>
    refine { h with sent := fun k v hv => ?_, unacknowledged := fun hfalse => ?_ }
    · obtain ⟨hkey, he, hle, htop⟩ := h.sent k v hv
      refine ⟨hkey, he, hle, htop.trans ?_⟩
      rw [top_latestAfterAck w { w with
        baseAcknowledged := w.baseAcknowledged || ack.generation = w.base.generation
        latestTarget := w.latestAfterAck ack } hepoch rfl le_rfl hgen rfl]
      exact le_max_right _ _
    · exact h.unacknowledged (Bool.or_eq_false_iff.1 hfalse).1
  | evicted hepoch hsent => exact h
  | advance acknowledged hepoch hgen hsent =>
    obtain ⟨hkey, he, -, -⟩ := h.sent _ _ hsent
    have hretain : ∀ k v, (w.sent.retain fun g => ack.generation ≤ g).get? k = some v →
        ack.generation ≤ k ∧ w.sent.get? k = some v := by
      intro k v hv
      exact (get?_of_get?_retain hv).imp_left of_decide_eq_true
    refine ⟨h.retained, ?_, fun k v hv => ?_, ?_, h.retired, by simp⟩
    · rw [hkey, get?_retain, if_pos (by simp)]
      exact hsent
    · obtain ⟨hle, hv⟩ := hretain k v hv
      obtain ⟨hkey', he', -, htop⟩ := h.sent k v hv
      refine ⟨hkey', he'.trans he.symm, hkey.trans_le hle, htop.trans ?_⟩
      rw [top_latestAfterAck w { w with
          base := acknowledged
          baseAcknowledged := true
          sent := w.sent.retain fun generation => ack.generation ≤ generation
          latestTarget := w.latestAfterAck ack }
        hepoch he (by rw [hkey]; exact hgen.le) hkey.ge rfl]
      exact le_max_right _ _
    · refine le_trans ?_ h.size
      rw [← card_support, ← card_support, support_retain]
      exact Finset.card_filter_le _ _

end

end Kept

/-! ## Every sequence of calls -/

namespace Sender

open Effect

/-- A method on the window, and the update it emits. -/
def through {α : Type} (s : Sender) (method : InPlace.Method α)
    (update? : α → Option StreamingUpdate) : Except String Unit × Sender :=
  match method s.window with
  | (.ok a, window) => (.ok (), s.emit (update? a) window)
  | (.error e, window) => (.error e, { s with window := window })

/-- A call in place: what it answers and the sender it leaves. -/
def call (lib : External) (s : Sender) : Operation → Except String Unit × Sender
  | .prepare latest budget => s.through (InPlace.prepareUpdate lib latest budget) id
  | .retry budget => s.through (InPlace.retryLatest lib budget) id
  | .rekey => s.through (InPlace.rekeyLatest lib) id
  | .repair request => s.through (InPlace.repair lib request) id
  | .acknowledge ack => s.through (InPlace.acknowledge ack) fun _ => none

def attempt (lib : External) (s : Sender) (op : Operation) : Sender := (s.call lib op).2

def attemptAll (lib : External) (s : Sender) (ops : List Operation) : Sender :=
  ops.foldl (attempt lib) s

variable {lib : External} {s : Sender}

theorem kept_start {initialKeyframe : State} {terminalId attachmentId : String} {version : Nat}
    (h : start lib initialKeyframe terminalId attachmentId version = .ok s) : Kept s.window := by
  simp only [start, withRouteVersion, withRoute, withRetainedGenerations, bind_eq_ok_iff,
    pure_eq_ok_iff] at h
  obtain ⟨_, ⟨-, -, _, ⟨-, -, -, -, -, -, rfl⟩, rfl⟩, rfl⟩ := h
  exact .of_single rfl rfl (Nat.zero_le _)

/-- What a call leaves: a window well kept, and after a failure the sender as it was. -/
def Leaves (s : Sender) (r : Except String Unit × Sender) : Prop :=
  Kept r.2.window ∧ ∀ e, r.1 = .error e → r.2 = s

theorem through_leaves {α : Type} {method : InPlace.Method α}
    {update? : α → Option StreamingUpdate} (h : Kept s.window)
    (hmethod : wp method (fun _ => Kept) s.window.Refuses s.window) :
    s.Leaves (s.through method update?) := by
  revert hmethod
  rw [wp, through]
  rcases method s.window with ⟨e | a, window⟩
  · rintro ⟨rfl, -⟩
    exact ⟨h, fun _ _ => rfl⟩
  · exact fun hkept => ⟨hkept, fun _ herror => by cases herror⟩

theorem call_leaves (h : Kept s.window) (op : Operation) : s.Leaves (s.call lib op) := by
  cases op with
  | prepare latest budget =>
    exact through_leaves h (wp_mono prepareUpdate_spec (fun _ _ hp => h.sends hp.2.1) fun _ _ => id)
  | retry budget =>
    exact through_leaves h (wp_mono retryLatest_spec (fun _ _ => h.sends) fun _ _ => id)
  | rekey =>
    exact through_leaves h (wp_mono rekeyLatest_spec (fun _ _ hp => h.sends hp.1) fun _ _ => id)
  | repair request =>
    exact through_leaves h (wp_mono repair_spec (fun _ _ => h.sends) fun _ _ => id)
  | acknowledge ack =>
    exact through_leaves h (wp_mono acknowledge_spec (fun _ _ => h.acknowledges) fun _ _ => id)

/-- Whatever the calls are, and whatever a client sends, each call finds the window well kept, and
one that fails leaves it as it was. -/
theorem window_kept (lib : External) (initialKeyframe : State) (terminalId attachmentId : String)
    (version : Nat) (s : Sender)
    (hstart : start lib initialKeyframe terminalId attachmentId version = .ok s)
    (ops : List Operation) :
    Kept (s.attemptAll lib ops).window ∧
      ∀ op e, ((s.attemptAll lib ops).call lib op).1 = .error e →
        ((s.attemptAll lib ops).call lib op).2 = s.attemptAll lib ops := by
  have hkept : Kept (s.attemptAll lib ops).window :=
    List.foldlRecOn ops _ (motive := fun s : Sender => Kept s.window) (kept_start hstart)
      fun _ h op _ => (call_leaves h op).1
  exact ⟨hkept, fun op => (call_leaves hkept op).2⟩

/-- The smallest terminal at its fifth generation, for a client of the second version. -/
def deltaSender : Sender :=
  okValue (start plainLibrary (blankState 0 5) "t" "a" 2) (by decide +kernel)

/-- The keyframe is acknowledged, a delta is sent, and the client names a generation that was never
sent. -/
def forgedCalls : List Operation :=
  [.acknowledge ⟨List.replicate epochBytes 0, 5⟩, .prepare (blankState 0 6) 1200,
    .acknowledge ⟨List.replicate epochBytes 0, 9⟩]

theorem window_kept_forged :
    (deltaSender.attemptAll plainLibrary forgedCalls).window.base = blankState 0 5 ∧
      (deltaSender.attemptAll plainLibrary forgedCalls).window.latestTarget =
        some (blankState 0 6) ∧
      Kept (deltaSender.attemptAll plainLibrary forgedCalls).window :=
  ⟨by decide +kernel, by decide +kernel,
    (window_kept plainLibrary (blankState 0 5) "t" "a" 2 deltaSender (eq_ok_okValue _ _)
      forgedCalls).1⟩

end Sender

end AstraShell.Streaming
