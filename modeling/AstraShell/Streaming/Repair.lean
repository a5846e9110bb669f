import AstraShell.Streaming.Safety

/-!
# Repair requests

A client that lacks the base of a delta asks for a keyframe. The window takes a request that names a
base it has never sent for a protocol error, and measures this by the generation of the latest
target. The latest target may be of another epoch, with generations of its own: then a request for a
base that was sent is refused (`pending_epoch_refuses_repair`).

A `Sender` is a window with the names of everything it has emitted. `Ledger` compares the two along
every run, and `honest_repair_answered` says that a request is answered unless the latest target is
of another epoch and its generation is too small.
-/

set_option autoImplicit false

namespace AstraShell.Streaming

open Lib TerminalState TerminalSync StreamingStateWindow
open Effect (of_wp_result result_bind result_gets_bind result_require_bind)

/-- The epoch and generation that an update leads to. -/
def StreamingUpdate.target? : StreamingUpdate → Option (Bytes × Nat)
  | .reliableKeyframe state => some (state.epoch, state.generation)
  | update => (update.delta?.bind fun delta => delta.diff).map fun diff =>
    (diff.epoch, diff.targetGeneration)

theorem StreamingUpdate.target?_of_delta {update : StreamingUpdate}
    {terminalId attachmentId : String} {b t : State} {d : TerminalViewportDatagram}
    (hupdate : update.delta? = some d)
    (hcompact : compactViewportDatagram terminalId attachmentId b t = .ok d) :
    update.target? = some (t.epoch, t.generation) := by
  obtain ⟨-, -, -, -, -, diff, hdiff, hepoch, -, hgeneration⟩ := Link.span_of_compact hcompact
  rw [← hepoch, ← hgeneration]
  cases update with
  | reliableKeyframe state => cases hupdate
  | datagramDelta delta | fragmentedDelta transfer => simp [target?, hupdate, hdiff]

/-- A window and what it has emitted so far. -/
structure Sender where
  window : StreamingStateWindow
  emitted : List (Bytes × Nat)

namespace Sender

inductive Operation where
  | prepare (latest : State) (budget : Nat)
  | retry (budget : Nat)
  | rekey
  | repair (request : TerminalStateRepairRequest)
  | acknowledge (ack : TerminalStateAck)

/-- The initial keyframe is emitted with the window. -/
def start (lib : External) (initialKeyframe : State) (terminalId attachmentId : String)
    (version : Nat) : Except String Sender := do
  let window ← StreamingStateWindow.withRouteVersion lib initialKeyframe terminalId attachmentId
    version
  return ⟨window, [(initialKeyframe.epoch, initialKeyframe.generation)]⟩

def emit (s : Sender) (update : Option StreamingUpdate) (window : StreamingStateWindow) : Sender :=
  ⟨window, (update.bind StreamingUpdate.target?).toList ++ s.emitted⟩

def perform (lib : External) (s : Sender) : Operation → Except String Sender
  | .prepare latest budget => do
    let (update, window) ← s.window.prepareUpdate lib latest budget
    return s.emit update window
  | .retry budget => do
    let (update, window) ← s.window.retryLatest lib budget
    return s.emit update window
  | .rekey => do
    let (update, window) ← s.window.rekeyLatest lib
    return s.emit update window
  | .repair request => do
    let (update, window) ← s.window.repair lib request
    return s.emit update window
  | .acknowledge ack => do
    let (_, window) ← s.window.acknowledge ack
    return { s with window := window }

/-- The state is of the base's epoch or of one that nothing was emitted of. -/
def Fresh (s : Sender) (state : State) : Prop :=
  state.epoch = s.window.base.epoch ∨ ∀ p ∈ s.emitted, p.1 ≠ state.epoch

/-- A terminal does not go back to an epoch it has left. -/
def Enabled (s : Sender) : Operation → Prop
  | .prepare latest _ => s.Fresh latest
  | _ => True

/-- The senders that some run leads to; an operation that fails changes nothing. -/
inductive Reachable (lib : External) : Sender → Prop
  | start {initialKeyframe : State} {terminalId attachmentId : String} {version : Nat} {s : Sender}
      (h : start lib initialKeyframe terminalId attachmentId version = .ok s) : Reachable lib s
  | next {s s' : Sender} (op : Operation) (h : Reachable lib s) (henabled : s.Enabled op)
      (hstep : s.perform lib op = .ok s') : Reachable lib s'

/-! ## The ledger -/

/-- What the window knows of what it has emitted. -/
structure Ledger (lib : External) (s : Sender) : Prop where
  base_valid : validateViewportState lib.graphemeCount s.window.base = .ok ()
  latest_valid : ∀ t, s.window.latestTarget = some t →
    validateViewportState lib.graphemeCount t = .ok () ∧ s.Fresh t
  ahead : ∀ t, s.window.latestTarget = some t → t.epoch = s.window.base.epoch →
    s.window.base.generation ≤ t.generation
  sent_valid : ∀ k v, s.window.sent.get? k = some v →
    validateViewportState lib.graphemeCount v = .ok () ∧ v.generation = k ∧
      v.epoch = s.window.base.epoch
  base_emitted : ∃ p ∈ s.emitted, p.1 = s.window.base.epoch
  retired : ∀ e ∈ s.window.retiredEpochs, e ≠ s.window.base.epoch ∧ ∃ p ∈ s.emitted, p.1 = e
  /-- The base or a latest target of its epoch is at least as new as what was emitted. -/
  covered : ∀ p ∈ s.emitted, p.1 = s.window.base.epoch → p.2 ≤ s.window.base.generation ∨
    ∃ t, s.window.latestTarget = some t ∧ t.epoch = s.window.base.epoch ∧ p.2 ≤ t.generation
  /-- A base that waits for its acknowledgement is the newest emitted. -/
  waiting : s.window.baseAcknowledged = false →
    ∀ p ∈ s.emitted, p.1 = s.window.base.epoch → p.2 ≤ s.window.base.generation

section Ledger

variable {lib : External} {s s' : Sender}

theorem Ledger.start {initialKeyframe : State} {terminalId attachmentId : String} {version : Nat}
    (h : start lib initialKeyframe terminalId attachmentId version = .ok s) : Ledger lib s := by
  simp only [Sender.start, withRouteVersion, withRoute,
    withRetainedGenerations, bind_eq_ok_iff, ensure_eq_ok_iff,
    pure_eq_ok_iff] at h
  obtain ⟨_, ⟨-, -, _, ⟨-, -, -, -, ⟨⟩, hvalid, rfl⟩, rfl⟩, rfl⟩ := h
  refine ⟨hvalid, by simp, by simp, ?_, ⟨_, List.mem_singleton_self _, rfl⟩, by simp, ?_, ?_⟩
  · intro k v hv
    obtain ⟨rfl, rfl⟩ | hnone := OrdMap.get?_insert_cases hv
    · exact ⟨hvalid, rfl, rfl⟩
    · cases hnone
  · intro p hp _
    rw [List.mem_singleton.1 hp]
    exact .inl le_rfl
  · intro _ p hp _
    rw [List.mem_singleton.1 hp]

/-- What is emitted of the base's epoch is not newer than a state that is news. -/
theorem Ledger.le_news (h : Ledger lib s) {latest : State} (hnews : s.window.IsNews latest)
    (hepoch : latest.epoch = s.window.base.epoch) {p : Bytes × Nat} (hp : p ∈ s.emitted)
    (hbase : p.1 = s.window.base.epoch) : p.2 ≤ latest.generation := by
  obtain ⟨hlt, hle⟩ := hnews hepoch
  rcases h.covered p hp hbase with hold | ⟨t, ht, -, hold⟩
  · omega
  · rw [latestGeneration, ht] at hle
    exact hold.trans hle

/-- A step of the window that sends at most the candidate. -/
theorem Ledger.sends {candidate : Option State} {update : Option StreamingUpdate}
    {window : StreamingStateWindow} (h : Ledger lib s)
    (hcandidate : ∀ t, candidate = some t →
      validateViewportState lib.graphemeCount t = .ok () ∧ s.Fresh t)
    (hsends : s.window.Sends lib candidate update window) : Ledger lib (s.emit update window) := by
  cases hsends with
  | unchanged => exact h
  | pend latest hlatest hnews hacked =>
    refine ⟨h.base_valid, ?_, ?_, h.sent_valid, h.base_emitted, h.retired, ?_, h.waiting⟩
    · intro t ht
      cases ht
      exact hcandidate latest hlatest
    · intro t ht hepoch
      cases ht
      exact (hnews hepoch).1.le
    · exact fun p hp hepoch => .inl (h.waiting hacked p hp hepoch)
  | clear latest hlatest hreached =>
    refine ⟨h.base_valid, fun _ ht => (nomatch ht), fun _ ht => (nomatch ht), h.sent_valid,
      h.base_emitted, h.retired, ?_, h.waiting⟩
    · intro p hp hepoch
      refine .inl ?_
      rcases h.covered p hp hepoch with hold | ⟨t, ht, -, hold⟩
      · exact hold
      · rw [hlatest] at ht
        cases ht
        exact hold.trans hreached.2
  | delta latest update d hlatest hnews hacked hepoch hgeometry hcompact hupdate =>
    obtain ⟨hvalid, -⟩ := hcandidate latest hlatest
    have hname : (s.emit (some update) (s.window.remember latest)).emitted =
        (latest.epoch, latest.generation) :: s.emitted := by
      simp [emit, StreamingUpdate.target?_of_delta hupdate hcompact]
    refine ⟨h.base_valid, ?_, ?_, ?_, ?_, ?_, ?_, ?_⟩
    · intro t ht
      cases ht
      exact ⟨hvalid, .inl hepoch⟩
    · intro t ht _
      cases ht
      exact (hnews hepoch).1.le
    · intro k v hv
      rcases get?_remember hv with ⟨rfl, rfl⟩ | hold
      · exact ⟨hvalid, rfl, hepoch⟩
      · exact h.sent_valid k v hold
    · rw [hname]
      exact ⟨_, List.mem_cons_self, hepoch⟩
    · intro e he
      obtain ⟨hne, p, hp, hpe⟩ := h.retired e he
      rw [hname]
      exact ⟨hne, p, List.mem_cons_of_mem _ hp, hpe⟩
    · intro p hp hbase
      refine .inr ⟨latest, rfl, hepoch, ?_⟩
      rw [hname] at hp
      rcases List.mem_cons.1 hp with rfl | hp
      · exact le_rfl
      · exact h.le_news hnews hepoch hp hbase
    · intro hfalse
      change s.window.baseAcknowledged = false at hfalse
      rw [hacked] at hfalse
      cases hfalse
  | keyframe latest hlatest hnews hacked hvalid =>
    obtain ⟨-, hfresh⟩ := hcandidate latest hlatest
    -- Nothing emitted of the keyframe's epoch is newer: it is the old epoch or a new one.
    have hnewest : ∀ p ∈ (latest.epoch, latest.generation) :: s.emitted, p.1 = latest.epoch →
        p.2 ≤ latest.generation := by
      intro p hp hepoch
      rcases List.mem_cons.1 hp with rfl | hp
      · exact le_rfl
      · rcases hfresh with hsame | hnew
        · exact h.le_news hnews hsame hp (hepoch.trans hsame)
        · exact absurd hepoch (hnew p hp)
    refine ⟨hvalid, ?_, ?_, ?_, ⟨_, List.mem_cons_self, rfl⟩, ?_, ?_, ?_⟩
    · intro t ht
      cases ht
      exact ⟨hvalid, .inl rfl⟩
    · intro t ht _
      cases ht
      exact le_rfl
    · intro k v hv
      rcases get?_remember hv with ⟨rfl, rfl⟩ | hold
      · exact ⟨hvalid, rfl, rfl⟩
      · cases hold
    · intro e he
      by_cases hsame : s.window.base.epoch = latest.epoch
      · change e ∈ (s.window.installed latest).retiredEpochs at he
        rw [installed_retiredEpochs_of_eq hsame] at he
        obtain ⟨hne, p, hp, hpe⟩ := h.retired e he
        exact ⟨fun heq => hne (heq.trans hsame.symm), p, List.mem_cons_of_mem _ hp, hpe⟩
      · have hnew := hfresh.resolve_left (Ne.symm hsame)
        obtain ⟨p, hp, hpe⟩ : ∃ p ∈ s.emitted, p.1 = e := by
          rcases installed_retiredEpochs_subset he with hold | rfl
          · exact (h.retired e hold).2
          · exact h.base_emitted
        exact ⟨fun heq => hnew p hp (hpe.trans heq), p, List.mem_cons_of_mem _ hp, hpe⟩
    · exact fun p hp hepoch => .inl (hnewest p hp hepoch)
    · exact fun _ p hp hepoch => hnewest p hp hepoch
  | resend hacked hreached =>
    have hnewest : ∀ p ∈ (s.window.base.epoch, s.window.base.generation) :: s.emitted,
        p.1 = s.window.base.epoch → p.2 ≤ s.window.base.generation := by
      intro p hp hepoch
      rcases List.mem_cons.1 hp with rfl | hp
      · exact le_rfl
      · rcases h.covered p hp hepoch with hold | ⟨t, ht, -, hold⟩
        · exact hold
        · exact hold.trans (hreached t ht).2
    refine ⟨h.base_valid, fun _ ht => (nomatch ht), fun _ ht => (nomatch ht), h.sent_valid,
      ⟨_, List.mem_cons_self, rfl⟩, ?_, ?_, ?_⟩
    · intro e he
      obtain ⟨hne, p, hp, hpe⟩ := h.retired e he
      exact ⟨hne, p, List.mem_cons_of_mem _ hp, hpe⟩
    · exact fun p hp hepoch => .inl (hnewest p hp hepoch)
    · exact fun _ p hp hepoch => hnewest p hp hepoch

/-- A latest target that an acknowledgement leaves is newer. -/
theorem latestAfterAck_eq_some {w : StreamingStateWindow} {ack : TerminalStateAck} {t : State}
    (h : w.latestAfterAck ack = some t) :
    w.latestTarget = some t ∧ (t.epoch = ack.epoch → ack.generation < t.generation) := by
  obtain ⟨hlatest, hkept⟩ := Option.filter_eq_some_iff.1 h
  refine ⟨hlatest, fun hepoch => ?_⟩
  by_contra hle
  exact of_decide_eq_true hkept ⟨hepoch, not_lt.1 hle⟩

/-- A latest target that an acknowledgement takes away has been reached. -/
theorem latestAfterAck_or {w : StreamingStateWindow} {t : State} (ack : TerminalStateAck)
    (h : w.latestTarget = some t) :
    w.latestAfterAck ack = some t ∨ t.generation ≤ ack.generation := by
  by_cases hreached : t.epoch = ack.epoch ∧ t.generation ≤ ack.generation
  · exact .inr hreached.2
  · refine .inl (Option.filter_eq_some_iff.2 ⟨h, ?_⟩)
    exact decide_eq_true hreached

theorem Ledger.acknowledges {ack : TerminalStateAck} {window : StreamingStateWindow}
    (h : Ledger lib s) (hack : s.window.Acknowledges ack window) :
    Ledger lib { s with window := window } := by
  cases hack with
  | retired hretired => exact h
  | evicted hepoch hsent => exact h
  | old hepoch hgen =>
    refine ⟨h.base_valid, ?_, ?_, h.sent_valid, h.base_emitted, h.retired, ?_, ?_⟩
    · exact fun t ht => h.latest_valid t (latestAfterAck_eq_some ht).1
    · exact fun t ht => h.ahead t (latestAfterAck_eq_some ht).1
    · intro p hp hbase
      rcases h.covered p hp hbase with hold | ⟨t, ht, htepoch, hold⟩
      · exact .inl hold
      · rcases latestAfterAck_or ack ht with hkept | hreached
        · exact .inr ⟨t, hkept, htepoch, hold⟩
        · exact .inl ((hold.trans hreached).trans hgen)
    · intro hfalse
      exact h.waiting (Bool.or_eq_false_iff.1 hfalse).1
  | advance acknowledged hepoch hgen hsent =>
    obtain ⟨hvalid, hkey, hsame⟩ := h.sent_valid _ _ hsent
    refine ⟨hvalid, ?_, ?_, ?_, ?_, ?_, ?_, nofun⟩
    · intro t ht
      obtain ⟨htvalid, hfresh⟩ := h.latest_valid t (latestAfterAck_eq_some ht).1
      refine ⟨htvalid, hfresh.imp_left fun heq => ?_⟩
      exact heq.trans hsame.symm
    · intro t ht htepoch
      have hlt := (latestAfterAck_eq_some ht).2 (htepoch.trans (hsame.trans hepoch.symm))
      dsimp only
      omega
    · intro k v hv
      obtain ⟨hv', hk, hepoch'⟩ := h.sent_valid k v (OrdMap.get?_of_get?_retain hv).2
      exact ⟨hv', hk, hepoch'.trans hsame.symm⟩
    · obtain ⟨p, hp, hpe⟩ := h.base_emitted
      exact ⟨p, hp, hpe.trans hsame.symm⟩
    · intro e he
      obtain ⟨hne, hold⟩ := h.retired e he
      exact ⟨fun heq => hne (heq.trans hsame), hold⟩
    · intro p hp hbase
      dsimp only at hbase ⊢
      rw [hsame] at hbase ⊢
      rcases h.covered p hp hbase with hold | ⟨t, ht, htepoch, hold⟩
      · exact .inl (by omega)
      · rcases latestAfterAck_or ack ht with hkept | hreached
        · exact .inr ⟨t, hkept, htepoch, hold⟩
        · exact .inl (by omega)

/-- A call that succeeds sends a new state or the latest target, or takes an acknowledgement. -/
theorem perform_cases {op : Operation} (h : s.perform lib op = .ok s') :
    (∃ candidate update window, s.window.Sends lib candidate update window ∧
      s' = s.emit update window ∧ (candidate = s.window.latestTarget ∨
        ∃ latest budget, op = .prepare latest budget ∧ candidate = some latest ∧
          validateViewportState lib.graphemeCount latest = .ok ())) ∨
    ∃ ack window, s.window.Acknowledges ack window ∧ s' = { s with window := window } := by
  cases op with
  | prepare latest budget =>
    obtain ⟨⟨update, window⟩, hop, ⟨⟩⟩ := bind_eq_ok_iff.1 h
    obtain ⟨hvalid, hsends, -⟩ := of_wp_result prepareUpdate_spec hop
    exact .inl ⟨_, _, _, hsends, rfl, .inr ⟨latest, budget, rfl, rfl, hvalid⟩⟩
  | retry budget =>
    obtain ⟨⟨update, window⟩, hop, ⟨⟩⟩ := bind_eq_ok_iff.1 h
    exact .inl ⟨_, _, _, of_wp_result retryLatest_spec hop, rfl, .inl rfl⟩
  | rekey =>
    obtain ⟨⟨update, window⟩, hop, ⟨⟩⟩ := bind_eq_ok_iff.1 h
    exact .inl ⟨_, _, _, (of_wp_result rekeyLatest_spec hop).1, rfl, .inl rfl⟩
  | repair request =>
    obtain ⟨⟨update, window⟩, hop, ⟨⟩⟩ := bind_eq_ok_iff.1 h
    exact .inl ⟨_, _, _, of_wp_result repair_spec hop, rfl, .inl rfl⟩
  | acknowledge ack =>
    obtain ⟨⟨disposition, window⟩, hop, ⟨⟩⟩ := bind_eq_ok_iff.1 h
    exact .inr ⟨_, _, acknowledge_cases hop, rfl⟩

theorem Reachable.ledger (h : Reachable lib s) : Ledger lib s := by
  induction h with
  | start h => exact .start h
  | next op _ henabled hstep ih =>
    rcases perform_cases hstep with
      ⟨candidate, update, window, hsends, rfl, hcandidate⟩ | ⟨ack, window, hack, rfl⟩
    · refine ih.sends ?_ hsends
      rcases hcandidate with rfl | ⟨latest, budget, rfl, rfl, hvalid⟩
      · exact ih.latest_valid
      · rintro t ⟨⟩
        exact ⟨hvalid, henabled⟩
    · exact ih.acknowledges hack

end Ledger

/-! ## Repairs -/

/-- The request names a base of the window's epoch that was emitted, and nothing older as newest. -/
structure Honest (s : Sender) (request : TerminalStateRepairRequest) : Prop where
  epoch : request.epoch = s.window.base.epoch
  emitted : ∃ p ∈ s.emitted, p.1 = request.epoch ∧ request.missingBaseGeneration ≤ p.2
  range : request.missingBaseGeneration ≤ request.newestSeenGeneration

/-- A latest target of another epoch has a generation that the missing base does not exceed. -/
def Comparable (s : Sender) (request : TerminalStateRepairRequest) : Prop :=
  ∀ t, s.window.latestTarget = some t → t.epoch ≠ s.window.base.epoch →
    request.missingBaseGeneration ≤ t.generation

/-- The answer to a repair is a keyframe, or nothing while one is in flight. -/
def Answers (lib : External) (w : StreamingStateWindow) (request : TerminalStateRepairRequest) :
    Prop :=
  ∃ update w', w.repair lib request = .ok (update, w') ∧
    ((∃ state, update = some (.reliableKeyframe state)) ∨
      update = none ∧ w.baseAcknowledged = false)

section Repairs

variable {lib : External} {s : Sender} {request : TerminalStateRepairRequest}

/-- An emitted base is not a future one, as far as generations can be compared. -/
theorem Ledger.not_future (h : Ledger lib s) (hhonest : Honest s request)
    (hcomparable : Comparable s request) :
    request.missingBaseGeneration ≤ s.window.latestGeneration := by
  obtain ⟨p, hp, hepoch, hle⟩ := hhonest.emitted
  unfold latestGeneration
  cases hlatest : s.window.latestTarget with
  | none =>
    rcases h.covered p hp (hepoch.trans hhonest.epoch) with hold | ⟨t, ht, -⟩
    · exact hle.trans hold
    · rw [hlatest] at ht
      cases ht
  | some t =>
    by_cases hother : t.epoch = s.window.base.epoch
    · have hahead := h.ahead t hlatest hother
      rcases h.covered p hp (hepoch.trans hhonest.epoch) with hold | ⟨t', ht', -, hold⟩
      · exact (hle.trans hold).trans hahead
      · rw [hlatest] at ht'
        cases ht'
        exact hle.trans hold
    · exact hcomparable t hlatest hother

/-- An acknowledged base is replaced by the latest target or sent again. -/
theorem rekey_answers (h : Ledger lib s) (hacked : s.window.baseAcknowledged = true) :
    ∃ update w', s.window.rekeyLatest lib = .ok (update, w') ∧
      (update = none ∨ ∃ state, update = some (.reliableKeyframe state)) := by
  rw [rekeyLatest, InPlace.rekeyLatest, result_gets_bind, id_eq, if_neg (by simp [hacked])]
  cases hlatest : s.window.latestTarget with
  | none => exact ⟨none, _, rfl, .inl rfl⟩
  | some t =>
    dsimp only
    split
    next => exact ⟨none, _, rfl, .inl rfl⟩
    next =>
      rw [installKeyframe_result (h.latest_valid t hlatest).1 hacked]
      exact ⟨_, _, rfl, .inr ⟨t, rfl⟩⟩

/-- A request for a base that was emitted is answered. -/
theorem honest_repair_answered (h : Reachable lib s) (hhonest : Honest s request)
    (hpositive : 0 < request.missingBaseGeneration) (hcomparable : Comparable s request) :
    Answers lib s.window request := by
  have hledger := h.ledger
  obtain ⟨hlength, -⟩ := Link.ack_well_formed hledger.base_valid
  have hretired : request.epoch ∉ s.window.retiredEpochs := by
    intro hmem
    exact (hledger.retired _ hmem).1 hhonest.epoch
  have hlength' : request.epoch.length = epochBytes := by
    rw [hhonest.epoch]
    exact hlength
  unfold Answers
  rw [StreamingStateWindow.repair, InPlace.repair, result_require_bind hlength',
    result_require_bind hpositive, result_require_bind hhonest.range, result_gets_bind, id_eq,
    if_neg hretired, result_require_bind hhonest.epoch,
    result_require_bind (hledger.not_future hhonest hcomparable)]
  cases hacked : s.window.baseAcknowledged with
  | false => exact ⟨none, s.window, rfl, .inr ⟨rfl, rfl⟩⟩
  | true =>
    obtain ⟨update, w', hrekey, rfl | ⟨state, rfl⟩⟩ := rekey_answers hledger hacked
    · rw [if_neg (by simp), result_bind hrekey]
      exact ⟨_, _, rfl, .inl ⟨w'.base, rfl⟩⟩
    · rw [if_neg (by simp), result_bind hrekey]
      exact ⟨_, _, rfl, .inl ⟨state, rfl⟩⟩

end Repairs

/-! ## A pending epoch -/

/-- The smallest terminal at its fifth generation; the keyframe is not acknowledged yet. -/
def fifthSender : Sender :=
  okValue (start plainLibrary (blankState 0 5) "t" "a" 3) (by decide +kernel)

/-- The terminal was reset: the first state of a new epoch waits. -/
def resetSender : Sender :=
  okValue (fifthSender.perform plainLibrary (.prepare (blankState 1 1) 1200)) (by decide +kernel)

/-- The terminal was reset, and the new epoch is already at its fifth generation. -/
def overtakenSender : Sender :=
  okValue (fifthSender.perform plainLibrary (.prepare (blankState 1 5) 1200)) (by decide +kernel)

/-- The client lacks the keyframe. -/
def fifthRequest : TerminalStateRepairRequest := ⟨List.replicate epochBytes 0, 5, 5⟩

theorem reachable_of_reset {generation : Nat} {s : Sender}
    (h : fifthSender.perform plainLibrary (.prepare (blankState 1 generation) 1200) = .ok s) :
    Reachable plainLibrary s := by
  have hstart : Reachable plainLibrary fifthSender := .start (eq_ok_okValue _ _)
  refine hstart.next (.prepare (blankState 1 generation) 1200) (.inr ?_) h
  have hemitted : fifthSender.emitted = [(List.replicate epochBytes 0, 5)] := by decide +kernel
  rw [hemitted]
  intro p hp
  rw [List.mem_singleton.1 hp]
  exact (by decide : List.replicate epochBytes (0 : UInt8) ≠ List.replicate epochBytes 1)

theorem honest_repair_answered_overtaken :
    overtakenSender.window.latestTarget = some (blankState 1 5) ∧
      Answers plainLibrary overtakenSender.window fifthRequest := by
  have hlatest : overtakenSender.window.latestTarget = some (blankState 1 5) := by decide +kernel
  refine ⟨hlatest, honest_repair_answered (reachable_of_reset (eq_ok_okValue _ _))
    ⟨by decide +kernel, ?_, by decide⟩ (by decide) ?_⟩
  · exact ⟨(List.replicate epochBytes 0, 5), by decide +kernel, by decide +kernel⟩
  · intro t ht _
    cases hlatest.symm.trans ht
    decide

/-- The base that was emitted is taken for a future one. -/
theorem pending_epoch_refuses_repair :
    Reachable plainLibrary resetSender ∧ Honest resetSender fifthRequest ∧
      resetSender.window.repair plainLibrary fifthRequest =
        .error "terminal state repair names a future base" := by
  refine ⟨?_, ⟨by decide +kernel, ?_, by decide⟩, ?_⟩
  · exact reachable_of_reset (eq_ok_okValue _ _)
  · exact ⟨(List.replicate epochBytes 0, 5), by decide +kernel, by decide +kernel⟩
  · have hanswer : (resetSender.window.repair plainLibrary fifthRequest).map Prod.fst =
        .error "terminal state repair names a future base" := by decide +kernel
    cases hrun : resetSender.window.repair plainLibrary fifthRequest with
    | error e =>
      rw [hrun] at hanswer
      cases hanswer
      rfl
    | ok result =>
      rw [hrun] at hanswer
      cases hanswer

end Sender

end AstraShell.Streaming
