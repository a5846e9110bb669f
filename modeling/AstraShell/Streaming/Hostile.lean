import AstraShell.Streaming.Safety

/-!
# The replica and a hostile server

Keyframes and datagrams as a peer may send them: any values in any order. `Receives` says all that
an update can do to a replica. `Retains` is what a replica keeps true of its states, and
`replica_robust` puts the two together along every sequence of updates.
-/

set_option autoImplicit false

namespace AstraShell.Streaming

open Lib Effect TerminalState TerminalSync OrdMap

namespace StreamingReplica

/-- What a peer sends. -/
inductive Update where
  | keyframe (state : State)
  | datagram (delta : TerminalViewportDatagram)

def receive (lib : External) (r : StreamingReplica) :
    Update → Except String ApplyDisposition × StreamingReplica
  | .keyframe state => InPlace.applyKeyframe lib state r
  | .datagram delta => InPlace.applyDatagram lib delta r

def receiveAll (lib : External) (r : StreamingReplica) (updates : List Update) :
    StreamingReplica :=
  updates.foldl (fun r update => (r.receive lib update).2) r

/-! ## What an update can do -/

section Decode

variable {graphemeCount : String → Nat} {base target : State}
  {delta : TerminalViewportDatagram} {diff : TerminalStateDiff}

theorem applyTerminalStateDiff_identity
    (h : applyTerminalStateDiff graphemeCount base diff = .ok target) :
    target.epoch = diff.epoch ∧ target.generation = diff.targetGeneration := by
  simp only [applyTerminalStateDiff, bind_eq_ok_iff, ensure_eq_ok_iff, context_eq_ok_iff,
    withContext_eq_ok_iff, pure_eq_ok_iff] at h
  obtain ⟨-, -, -, -, -, -, -, -, -, -, metadata, -, -, hepoch, -, hgeneration, -, -, -, -, -, -, -,
    -, -, -, -, -, rfl⟩ := h
  exact ⟨hepoch, hgeneration⟩

/-- A delta that is decoded gives the state it names. -/
theorem applyCompactViewportDelta_identity (hdiff : delta.diff = some diff)
    (h : applyCompactViewportDelta graphemeCount base delta = .ok target) :
    target.epoch = diff.epoch ∧ target.generation = diff.targetGeneration := by
  simp only [applyCompactViewportDelta, TerminalViewportDatagram.getDiff, hdiff, bind_eq_ok_iff,
    ensure_eq_ok_iff, context_eq_ok_iff] at h
  obtain ⟨-, -, _, hsome, encoded, -, metadata, -, hrest⟩ := h
  cases hsome
  split at hrest
  next =>
    simp only [bind_eq_ok_iff, ensure_eq_ok_iff] at hrest
    obtain ⟨-, -, happly⟩ := hrest
    have hidentity := applyTerminalStateDiff_identity happly
    exact hidentity
  next =>
    simp only [bind_eq_ok_iff, ensure_eq_ok_iff, pure_eq_ok_iff] at hrest
    obtain ⟨-, -, -, -, -, ⟨hepoch, hgeneration, -⟩, primary, -, alternate, -, -, -, rfl⟩ := hrest
    exact ⟨hepoch, hgeneration⟩

end Decode

/-- Everything an update can do to a replica, with the answer. -/
inductive Receives (lib : External) (r : StreamingReplica) :
    Update → Except String ApplyDisposition × StreamingReplica → Prop
  | refused (update : Update) (e : String) : Receives lib r update (.error e, r)
  | stale (update : Update) : Receives lib r update (.ok .stale, r)
  | missingBase (update : Update) : Receives lib r update (.ok .missingBase, r)
  | keyframe (state : State) (hvalid : validateViewportState lib.graphemeCount state = .ok ())
      (hnew : ¬ r.covers state.epoch state.generation) :
      Receives lib r (.keyframe state) (.ok .applied, r.rebased state)
  | datagram (delta : TerminalViewportDatagram) (diff : TerminalStateDiff) (base target : State)
      (hdiff : delta.diff = some diff) (hepoch : ¬ r.otherEpoch diff.epoch)
      (hnew : ¬ r.covers diff.epoch diff.targetGeneration)
      (hbase : r.retained.get? diff.baseGeneration = some base)
      (hvalid : validateViewportState lib.graphemeCount target = .ok ())
      (hidentity : target.epoch = diff.epoch ∧ target.generation = diff.targetGeneration) :
      Receives lib r (.datagram delta) (.ok .applied, r.advance diff.baseGeneration target)

theorem receive_cases (lib : External) (r : StreamingReplica) (update : Update) :
    Receives lib r update (r.receive lib update) := by
  cases update with
  | keyframe state =>
    refine wp_iff_run.1 (wp_mono applyKeyframe_spec ?_ ?_)
    · rintro _ _ ⟨hvalid, ⟨-, rfl, rfl⟩ | ⟨hnew, rfl, rfl⟩⟩
      · exact .stale _
      · exact .keyframe state hvalid hnew
    · rintro e _ rfl
      exact .refused _ e
  | datagram delta =>
    refine wp_iff_run.1 (wp_bind.2 (wp_require (fun _ => ?_) fun _ => .refused _ _))
    rw [wp_bind, wp_gets, id_eq]
    refine wp_bind.2 (wp_require (fun _ => ?_) fun _ => .refused _ _)
    refine wp_bind.2 (wp_check (fun diff hdiff => ?_) fun e _ => .refused _ e)
    split
    · exact .stale _
    next hepoch =>
      split
      · exact .stale _
      next hnew =>
        cases hbase : r.retained.get? diff.baseGeneration with
        | none => exact .missingBase _
        | some base =>
          dsimp only
          split
          · exact .missingBase _
          · refine wp_bind.2 (wp_check (fun target happly => ?_) fun e _ => .refused _ e)
            refine wp_bind.2 (wp_check (fun _ hvalid => ?_) fun e _ => .refused _ e)
            have hdiff := context_eq_ok_iff.1 hdiff
            exact .datagram delta diff base target hdiff hepoch hnew hbase hvalid
              (applyCompactViewportDelta_identity hdiff happly)

/-! ## What is retained -/

/-- What is true of the states a replica holds. -/
structure Retains (lib : External) (r : StreamingReplica) : Prop where
  valid : ∀ k v, r.retained.get? k = some v →
    validateViewportState lib.graphemeCount v = .ok () ∧ v.generation = k
  epoch : ∀ k v, r.retained.get? k = some v → ∃ c, r.current = some c ∧ v.epoch = c.epoch
  current : ∀ c, r.current = some c → r.retained.get? c.generation = some c
  pinned : ∀ c, r.current = some c →
    ∃ p v, r.pinnedBaseGeneration = some p ∧ r.retained.get? p = some v
  newest : ∀ c k v, r.current = some c → r.retained.get? k = some v → k ≤ c.generation
  limit : r.retainedGenerations = defaultRetainedGenerations
  size : r.retained.size ≤ defaultRetainedGenerations

section Retains

variable {lib : External} {r : StreamingReplica}

theorem Retains.of_empty (hcurrent : r.current = none) (hretained : r.retained = empty)
    (hlimit : r.retainedGenerations = defaultRetainedGenerations) : Retains lib r := by
  have hnone : ∀ k v, r.retained.get? k ≠ some v := by
    intro k v hv
    rw [hretained, get?_empty] at hv
    cases hv
  refine ⟨?_, ?_, ?_, ?_, ?_, hlimit, by simp [hretained]⟩
  · exact fun k v hv => absurd hv (hnone k v)
  · exact fun k v hv => absurd hv (hnone k v)
  · exact fun c hc => by simp [hcurrent] at hc
  · exact fun c hc => by simp [hcurrent] at hc
  · exact fun c k v _ hv => absurd hv (hnone k v)

/-- A new state that is built on a retained one of its epoch, or on itself. -/
theorem Retains.advance {state : State} {pinned : Nat} (h : Retains lib r)
    (hvalid : validateViewportState lib.graphemeCount state = .ok ())
    (hepoch : ∀ k v, r.retained.get? k = some v → v.epoch = state.epoch ∧ k < state.generation)
    (hpinned : pinned ∈ insert state.generation r.retained.support) :
    Retains lib (r.advance pinned state) := by
  have hpos : 0 < r.retainedGenerations := by
    rw [h.limit]
    decide
  have hcard : r.retained.support.card ≤ r.retainedGenerations := by
    rw [card_support, h.limit]
    exact h.size
  have hevicts := advance_evicts r state pinned hcard hpos
  -- The newest state stays: the one that goes is the oldest but the pinned one.
  have hnewest : state.generation ∈ (r.advance pinned state).retained.support := by
    by_cases heq : state.generation = pinned
    · rw [heq]
      exact hevicts.mem_keep hpinned
    · apply hevicts.mem_of_newer (Finset.mem_insert_self _ _)
      have hnone : ((insert state.generation r.retained.support).filter
          fun j => state.generation < j) = ∅ := by
        apply Finset.filter_false_of_mem
        intro j hj
        rcases Finset.mem_insert.1 hj with rfl | hj
        · exact lt_irrefl _
        · obtain ⟨v, hv⟩ := (mem_support_iff_get? _ _).1 hj
          exact (hepoch j v hv).2.asymm
      rw [hnone, h.limit]
      decide
  have hstate : (r.advance pinned state).retained.get? state.generation = some state := by
    obtain ⟨v, hv⟩ := (mem_support_iff_get? _ _).1 hnewest
    rcases get?_advance hv with ⟨-, rfl⟩ | hold
    · exact hv
    · exact absurd (hepoch _ v hold).2 (lt_irrefl _)
  refine ⟨?_, ?_, ?_, ?_, ?_, h.limit, ?_⟩
  · intro k v hv
    rcases get?_advance hv with ⟨rfl, rfl⟩ | hold
    · exact ⟨hvalid, rfl⟩
    · exact h.valid k v hold
  · intro k v hv
    refine ⟨state, rfl, ?_⟩
    rcases get?_advance hv with ⟨-, rfl⟩ | hold
    · rfl
    · exact (hepoch k v hold).1
  · rintro c hc
    cases hc
    exact hstate
  · intro c hc
    obtain ⟨v, hv⟩ := (mem_support_iff_get? _ _).1 (hevicts.mem_keep hpinned)
    exact ⟨pinned, v, rfl, hv⟩
  · intro c k v hc hv
    cases hc
    rcases get?_advance hv with ⟨rfl, -⟩ | hold
    · exact le_rfl
    · exact (hepoch k v hold).2.le
  · rw [← card_support, ← h.limit]
    exact hevicts.card_le

/-- The retained states of a replica that does not cover a state are of its epoch and older. -/
theorem Retains.older {epoch : Bytes} {generation : Nat} (h : Retains lib r)
    (hepoch : ¬ r.otherEpoch epoch) (hnew : ¬ r.covers epoch generation) {k : Nat} {v : State}
    (hv : r.retained.get? k = some v) : v.epoch = epoch ∧ k < generation := by
  obtain ⟨c, hc, hvepoch⟩ := h.epoch k v hv
  have hsame : c.epoch = epoch := by
    by_contra hne
    exact hepoch ⟨c, hc, hne⟩
  have hlt : c.generation < generation := by
    by_contra hge
    exact hnew ⟨c, hc, hsame, not_lt.1 hge⟩
  exact ⟨hvepoch.trans hsame, (h.newest c k v hc hv).trans_lt hlt⟩

theorem Retains.receives {update : Update}
    {result : Except String ApplyDisposition × StreamingReplica} (h : Retains lib r)
    (hstep : Receives lib r update result) : Retains lib result.2 := by
  cases hstep with
  | refused => exact h
  | stale => exact h
  | missingBase => exact h
  | keyframe state hvalid hnew =>
    by_cases hother : r.otherEpoch state.epoch
    · -- A keyframe of another epoch comes to an empty map.
      rw [rebased, if_pos hother]
      have hempty : Retains lib { r with current := none, retained := empty } :=
        .of_empty rfl rfl h.limit
      refine hempty.advance hvalid ?_ (Finset.mem_insert_self _ _)
      intro k v hv
      cases hv
    · rw [rebased_of_not_otherEpoch hother]
      exact h.advance hvalid (fun k v hv => h.older hother hnew hv) (Finset.mem_insert_self _ _)
  | datagram delta diff base target hdiff hepoch hnew hbase hvalid hidentity =>
    refine h.advance hvalid ?_ ?_
    · intro k v hv
      rw [hidentity.1, hidentity.2]
      exact h.older hepoch hnew hv
    · exact Finset.mem_insert_of_mem (mem_support_of_get? hbase)

theorem Retains.receiveAll (h : Retains lib r) (updates : List Update) :
    Retains lib (r.receiveAll lib updates) := by
  induction updates generalizing r with
  | nil => exact h
  | cons update updates ih => exact ih (h.receives (receive_cases lib r update))

end Retains

/-! ## Robustness -/

/-- Inside an epoch a replica goes on, and only a keyframe takes it to another one. -/
def Advances (r r' : StreamingReplica) (update : Update) : Prop :=
  ∀ c, r.current = some c → ∃ c', r'.current = some c' ∧
    (c'.epoch = c.epoch → c' = c ∨ c.generation < c'.generation) ∧
    (c'.epoch ≠ c.epoch → ∃ state, update = .keyframe state)

theorem Receives.advances {lib : External} {r : StreamingReplica} {update : Update}
    {result : Except String ApplyDisposition × StreamingReplica}
    (h : Receives lib r update result) : Advances r result.2 update := by
  intro c hc
  cases h with
  | refused | stale | missingBase => exact ⟨c, hc, fun _ => .inl rfl, fun hne => absurd rfl hne⟩
  | keyframe state hvalid hnew =>
    refine ⟨state, rfl, fun hepoch => .inr ?_, fun _ => ⟨state, rfl⟩⟩
    by_contra hge
    exact hnew ⟨c, hc, hepoch.symm, not_lt.1 hge⟩
  | datagram delta diff base target hdiff hepoch hnew hbase hvalid hidentity =>
    have hsame : c.epoch = diff.epoch := by
      by_contra hne
      exact hepoch ⟨c, hc, hne⟩
    refine ⟨target, rfl, fun _ => .inr ?_, fun hne => absurd ?_ hne⟩
    · rw [hidentity.2]
      by_contra hge
      exact hnew ⟨c, hc, hsame, not_lt.1 hge⟩
    · rw [hidentity.1, hsame]

/-- The current state is the one that a datagram names. -/
def Shows (lib : External) (r : StreamingReplica) (delta : TerminalViewportDatagram) : Prop :=
  ∃ diff c, delta.diff = some diff ∧ r.current = some c ∧ c.epoch = diff.epoch ∧
    c.generation = diff.targetGeneration ∧ validateViewportState lib.graphemeCount c = .ok ()

/-- Whatever a server sends, in whatever order. -/
theorem replica_robust (lib : External) (terminalId attachmentId : String) (r : StreamingReplica)
    (hroute : forRoute terminalId attachmentId = .ok r) (updates : List Update) (update : Update) :
    Retains lib (r.receiveAll lib updates) ∧
      (((r.receiveAll lib updates).receive lib update).1 ≠ .ok .applied →
        ((r.receiveAll lib updates).receive lib update).2 = r.receiveAll lib updates) ∧
      (∀ delta, update = .datagram delta →
        ((r.receiveAll lib updates).receive lib update).1 = .ok .applied →
        Shows lib ((r.receiveAll lib updates).receive lib update).2 delta) ∧
      Advances (r.receiveAll lib updates) ((r.receiveAll lib updates).receive lib update).2
        update := by
  have hstart : Retains lib r := by
    obtain ⟨-, -, hpure⟩ := bind_eq_ok_iff.1 hroute
    cases hpure
    exact .of_empty rfl rfl rfl
  have hretains : Retains lib (r.receiveAll lib updates) := hstart.receiveAll updates
  have hstep := receive_cases lib (r.receiveAll lib updates) update
  refine ⟨hretains, ?_, ?_, hstep.advances⟩
  · intro hresult
    generalize (r.receiveAll lib updates).receive lib update = result at hstep hresult
    cases hstep with
    | refused => rfl
    | stale => rfl
    | missingBase => rfl
    | keyframe | datagram => exact absurd rfl hresult
  · rintro delta rfl hresult
    generalize (r.receiveAll lib updates).receive lib (.datagram delta) = result at hstep hresult
    cases hstep with
    | refused | stale | missingBase => cases hresult
    | datagram _ diff base target hdiff hepoch hnew hbase hvalid hidentity =>
      exact ⟨diff, target, hdiff, rfl, hidentity.1, hidentity.2, hvalid⟩

/-- A replica that no update has reached. -/
def freshReplica : StreamingReplica := okValue (forRoute "t" "a") (by decide +kernel)

/-- The datagram of the smallest terminal at its second generation. -/
def secondDatagram : TerminalViewportDatagram :=
  okValue (compactViewportDatagram "t" "a" (blankState 0 1) (blankState 0 2)) (by decide +kernel)

/-- A keyframe, its datagram, and a keyframe that is late. -/
def mixedUpdates : List Update :=
  [.keyframe (blankState 0 1), .datagram secondDatagram, .keyframe (blankState 0 1)]

theorem replica_robust_mixed :
    Retains plainLibrary (freshReplica.receiveAll plainLibrary mixedUpdates) ∧
      Advances (freshReplica.receiveAll plainLibrary mixedUpdates)
        ((freshReplica.receiveAll plainLibrary mixedUpdates).receive plainLibrary
          (.datagram secondDatagram)).2 (.datagram secondDatagram) := by
  obtain ⟨hretains, -, -, hadvances⟩ := replica_robust plainLibrary "t" "a" freshReplica
    (eq_ok_okValue _ _) mixedUpdates (.datagram secondDatagram)
  exact ⟨hretains, hadvances⟩

end StreamingReplica

end AstraShell.Streaming
