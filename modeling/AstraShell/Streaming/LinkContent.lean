import AstraShell.Streaming.Link

/-!
# What the two ends of a link hold

Every state that the window, the network or the replica holds is one of the states the sender was
given, under its own generation (`Link.Content`). The newest given state is always the latest target
or, when there is none, the base. `Link.next_moves` uses this to say what a step does: in
particular a delta that finds its base rebuilds exactly the state it was made from.
-/

set_option autoImplicit false

namespace AstraShell.Streaming

open Lib TerminalState TerminalSync StreamingStateWindow StreamingReplica
open Effect (of_wp_result result_check_bind result_gets_bind result_require_bind)

namespace Link

/-- `state` is the newest given state: no other state of its epoch has a greater generation. -/
def IsNewest (given : List State) (state : State) : Prop :=
  given.head? = some state ∧
    ∀ s ∈ given, s.epoch = state.epoch → s.generation ≤ state.generation

/-- Where the states held on a link come from. -/
structure Content (lib : External) (l : Link) : Prop where
  route : l.window.terminalId = l.replica.terminalId ∧
    l.window.attachmentId = l.replica.attachmentId ∧ l.window.terminalId ≠ "" ∧
    l.window.attachmentId ≠ ""
  caps : l.window.retainedGenerations = defaultRetainedGenerations ∧
    l.replica.retainedGenerations = defaultRetainedGenerations
  unique : ∀ x ∈ l.given, ∀ y ∈ l.given, x.epoch = y.epoch → x.generation = y.generation → x = y
  valid : ∀ x ∈ l.given, validateViewportState lib.graphemeCount x = .ok ()
  newest : ∃ n, IsNewest l.given n ∧
    (l.window.latestTarget = some n ∨ l.window.latestTarget = none ∧ l.window.base = n)
  base : l.window.base ∈ l.given
  sent : ∀ k s, l.window.sent.get? k = some s →
    s ∈ l.given ∧ s.generation = k ∧ s.epoch = l.window.base.epoch
  keyframes : ∀ k ∈ l.keyframes, k ∈ l.given
  deltas : ∀ d ∈ l.deltas, ∃ b t, b ∈ l.given ∧ t ∈ l.given ∧
    (t.rows = b.rows ∧ t.cols = b.cols) ∧
    compactViewportDatagram l.window.terminalId l.window.attachmentId b t = .ok d
  current : l.replica.current = l.shown.head?
  shown : ∀ s ∈ l.shown, s ∈ l.given
  retained : ∀ k s, l.replica.retained.get? k = some s →
    s ∈ l.given ∧ s.generation = k ∧ ∃ c, l.replica.current = some c ∧ s.epoch = c.epoch
  acks : ∀ a ∈ l.acks, ∃ s ∈ l.shown, a = ⟨s.epoch, s.generation⟩

variable {lib : External} {l l' : Link}

theorem Content.current_given (h : Content lib l) {c : State} (hc : l.replica.current = some c) :
    c ∈ l.given := by
  rw [h.current] at hc
  exact h.shown c (List.mem_of_mem_head? hc)

/-- The latest target is the newest given state. -/
theorem Content.latestTarget_isNewest (h : Content lib l) {t : State}
    (ht : l.window.latestTarget = some t) : IsNewest l.given t := by
  obtain ⟨n, hn, hlatest | ⟨hnone, -⟩⟩ := h.newest
  · rw [ht] at hlatest
    cases hlatest
    exact hn
  · rw [ht] at hnone
    cases hnone

theorem isNewest_unique {given : List State} {m n : State} (hm : IsNewest given m)
    (hn : IsNewest given n) : m = n :=
  Option.some.inj (hm.1.symm.trans hn.1)

/-- The newest given state waits unless it is the base. -/
theorem Content.latestTarget_of_base_ne (h : Content lib l) {newest : State}
    (hnewest : IsNewest l.given newest) (hbase : l.window.base ≠ newest) :
    l.window.latestTarget = some newest := by
  obtain ⟨n, hn, hlatest⟩ := h.newest
  obtain rfl := isNewest_unique hn hnewest
  exact hlatest.resolve_right fun hnone => hbase hnone.2

/-! ## Deltas -/

/-- What a delta from `b` to `t` says. -/
theorem span_of_compact {terminalId attachmentId : String} {b t : State}
    {d : TerminalViewportDatagram}
    (h : compactViewportDatagram terminalId attachmentId b t = .ok d) :
    b.epoch = t.epoch ∧ b.generation < t.generation ∧ d.fragment = none ∧
      d.terminalId = terminalId ∧ d.attachmentId = attachmentId ∧
      ∃ diff, d.diff = some diff ∧ diff.epoch = t.epoch ∧ diff.baseGeneration = b.generation ∧
        diff.targetGeneration = t.generation := by
  obtain ⟨hepoch, hgen, pp, ap, rfl⟩ := compactViewportDatagram_eq_ok h
  exact ⟨hepoch, hgen, rfl, rfl, rfl, _, rfl, rfl, rfl, rfl⟩

/-- A replica that does not take an update for stale is in its epoch and behind it. -/
theorem behind_of_not_stale {r : StreamingReplica} {c t : State} (hc : r.current = some c)
    (hother : ¬ r.otherEpoch t.epoch) (hcovers : ¬ r.covers t.epoch t.generation) :
    c.epoch = t.epoch ∧ c.generation < t.generation := by
  have hepoch : c.epoch = t.epoch := by
    by_contra hne
    exact hother ⟨c, hc, hne⟩
  refine ⟨hepoch, ?_⟩
  by_contra hle
  exact hcovers ⟨c, hc, hepoch, not_lt.1 hle⟩

/-- The three things that can become of a delta. -/
theorem Content.applyDatagram_cases (h : Content lib l) {d : TerminalViewportDatagram}
    (hd : d ∈ l.deltas) :
    ∃ b t, b ∈ l.given ∧ t ∈ l.given ∧
      compactViewportDatagram l.window.terminalId l.window.attachmentId b t = .ok d ∧
      (((l.replica.otherEpoch t.epoch ∨ l.replica.covers t.epoch t.generation) ∧
          l.replica.applyDatagram lib d = .ok (.stale, l.replica)) ∨
        (¬ l.replica.otherEpoch t.epoch ∧ ¬ l.replica.covers t.epoch t.generation ∧
          ((l.replica.retained.get? b.generation = none ∧
              l.replica.applyDatagram lib d = .ok (.missingBase, l.replica)) ∨
            (l.replica.retained.get? b.generation = some b ∧
              l.replica.applyDatagram lib d =
                .ok (.applied, l.replica.advance b.generation t))))) := by
  obtain ⟨b, t, hb, ht, hgeometry, hcompact⟩ := h.deltas d hd
  refine ⟨b, t, hb, ht, hcompact, ?_⟩
  obtain ⟨hepoch, hgen, hfragment, htid, haid, diff, hdiff, hde, hdb, hdt⟩ :=
    span_of_compact hcompact
  have hroute : d.terminalId = l.replica.terminalId ∧ d.attachmentId = l.replica.attachmentId :=
    ⟨htid.trans h.route.1, haid.trans h.route.2.1⟩
  have hget : d.getDiff = .ok diff := by
    rw [TerminalViewportDatagram.getDiff, hdiff]
    rfl
  rw [applyDatagram, InPlace.applyDatagram, result_require_bind hfragment, result_gets_bind, id_eq,
    result_require_bind hroute, hget, result_check_bind, hde, hdb, hdt]
  by_cases hother : l.replica.otherEpoch t.epoch
  · exact .inl ⟨.inl hother, by rw [if_pos hother]; rfl⟩
  by_cases hcovers : l.replica.covers t.epoch t.generation
  · exact .inl ⟨.inr hcovers, by rw [if_neg hother, if_pos hcovers]; rfl⟩
  refine .inr ⟨hother, hcovers, ?_⟩
  rw [if_neg hother, if_neg hcovers]
  cases hget : l.replica.retained.get? b.generation with
  | none => exact .inl ⟨rfl, rfl⟩
  | some s =>
    -- The retained state is the one the delta was made from.
    obtain ⟨hs, hsgen, c, hc, hsepoch⟩ := h.retained _ _ hget
    have hcepoch := (behind_of_not_stale hc hother hcovers).1
    obtain rfl : s = b :=
      h.unique s hs b hb (hsepoch.trans (hcepoch.trans hepoch.symm)) hsgen
    obtain ⟨d', hd', happly⟩ := applyCompactViewportDelta_compactViewportDatagram
      h.route.2.2 (h.valid s hs) (h.valid t ht) hepoch hgeometry.1 hgeometry.2 hgen
    obtain rfl : d' = d := Except.ok.inj (hd'.symm.trans hcompact)
    refine .inr ⟨rfl, ?_⟩
    dsimp only
    rw [if_neg (not_ne_iff.2 hepoch), happly, result_check_bind, h.valid t ht]
    rfl

/-! ## Moves -/

/-- What a step does to a link whose contents are in order. -/
inductive Moves (lib : External) (l : Link) : Link → Prop
  | sender (given' : List State) (update : Option StreamingUpdate) (window : StreamingStateWindow)
      (h : SenderStep lib l given' update window) :
      Moves lib l (emit { l with given := given' } update window)
  | staleKeyframe (k : State) (keyframes : List State) (c : State)
      (hkeyframes : l.keyframes = k :: keyframes) (hc : l.replica.current = some c)
      (hcovers : c.epoch = k.epoch ∧ k.generation ≤ c.generation) :
      Moves lib l { l with
        keyframes := keyframes, acks := l.acks ++ [⟨c.epoch, c.generation⟩] }
  | keyframe (k : State) (keyframes : List State) (hkeyframes : l.keyframes = k :: keyframes)
      (hnew : ¬ l.replica.covers k.epoch k.generation) :
      Moves lib l { l with
        keyframes := keyframes
        replica := l.replica.rebased k
        acks := l.acks ++ [⟨k.epoch, k.generation⟩]
        shown := k :: l.shown }
  | ignored : Moves lib l l
  | delta (d : TerminalViewportDatagram) (b t c : State) (hd : d ∈ l.deltas) (ht : t ∈ l.given)
      (hcompact : compactViewportDatagram l.window.terminalId l.window.attachmentId b t = .ok d)
      (hc : l.replica.current = some c) (hepoch : c.epoch = t.epoch)
      (hlt : c.generation < t.generation)
      (hbase : l.replica.retained.get? b.generation = some b) :
      Moves lib l { l with
        replica := l.replica.advance b.generation t
        acks := l.acks ++ [⟨t.epoch, t.generation⟩]
        shown := t :: l.shown }
  | ack (a : TerminalStateAck) (acks : List TerminalStateAck) (window : StreamingStateWindow)
      (hacks : l.acks = a :: acks) (h : l.window.Acknowledges a window) :
      Moves lib l { l with window := window, acks := acks }

theorem next_moves (h : Content lib l) (hnext : Next lib l l') : Moves lib l l' := by
  rcases next_cases hnext with ⟨given', update, window, hsender, rfl⟩ |
    ⟨k, keyframes, disposition, replica, hkeyframes, hop, rfl⟩ |
    ⟨d, disposition, replica, hd, hop, rfl⟩ | ⟨a, acks, window, hacks, hack, rfl⟩
  · exact .sender given' update window hsender
  · obtain ⟨-, ⟨⟨c, hc, hce⟩, rfl, rfl⟩ | ⟨hcovers, rfl, rfl⟩⟩ :=
      of_wp_result applyKeyframe_spec hop
    · have hack : l.replica.stateAck = some ⟨c.epoch, c.generation⟩ := by
        rw [stateAck, show l.replica.current = some c from hc]
        rfl
      have hmove : Moves lib l _ := .staleKeyframe k keyframes c hkeyframes hc hce
      simpa [receive, hack] using hmove
    · exact .keyframe k keyframes hkeyframes hcovers
  · obtain ⟨b, t, -, ht, hcompact, hstale | ⟨hother, hcovers, hmissing | happlied⟩⟩ :=
      h.applyDatagram_cases hd
    · rw [hstale.2] at hop
      cases hop
      simpa [receive] using (Moves.ignored : Moves lib l l)
    · rw [hmissing.2] at hop
      cases hop
      simpa [receive] using (Moves.ignored : Moves lib l l)
    · rw [happlied.2] at hop
      cases hop
      obtain ⟨-, -, c, hc, -⟩ := h.retained _ _ happlied.1
      obtain ⟨hepoch, hlt⟩ := behind_of_not_stale hc hother hcovers
      exact .delta d b t c hd ht hcompact hc hepoch hlt happlied.1
  · exact .ack a acks window hacks hack

/-! ## The contents stay in order -/

section

variable {given' : List State} {update : Option StreamingUpdate} {window : StreamingStateWindow}

theorem SenderStep.given_mono (h : SenderStep lib l given' update window) :
    ∀ s ∈ l.given, s ∈ given' := by
  intro s hs
  obtain ⟨candidate, -, hoffered⟩ := h
  cases hoffered with
  | waiting => exact hs
  | passed latest _ _ _ => exact List.mem_cons_of_mem _ hs

section

variable (hc : Content lib l)

include hc

theorem SenderStep.unique (h : SenderStep lib l given' update window) :
    ∀ x ∈ given', ∀ y ∈ given', x.epoch = y.epoch → x.generation = y.generation → x = y := by
  obtain ⟨candidate, -, hoffered⟩ := h
  cases hoffered with
  | waiting => exact hc.unique
  | passed latest hadm _ _ =>
    intro x hx y hy hepoch hgen
    rcases List.mem_cons.1 hx with rfl | hxold <;> rcases List.mem_cons.1 hy with rfl | hyold
    · rfl
    · exact ((hadm.1 y hyold hepoch.symm).2 hgen.symm).symm
    · exact (hadm.1 x hxold hepoch).2 hgen
    · exact hc.unique x hxold y hyold hepoch hgen

theorem SenderStep.valid (h : SenderStep lib l given' update window) :
    ∀ x ∈ given', validateViewportState lib.graphemeCount x = .ok () := by
  obtain ⟨candidate, -, hoffered⟩ := h
  cases hoffered with
  | waiting => exact hc.valid
  | passed latest _ hvalid _ =>
    exact List.forall_mem_cons.2 ⟨hvalid, hc.valid⟩

/-- A latest target that the base has reached is the base. -/
theorem Content.base_eq_of_reached {n : State} (hn : IsNewest l.given n)
    (hreached : n.epoch = l.window.base.epoch ∧ n.generation ≤ l.window.base.generation) :
    l.window.base = n := by
  have hmem : n ∈ l.given := List.mem_of_mem_head? hn.1
  have hle := hn.2 _ hc.base hreached.1.symm
  exact hc.unique _ hc.base n hmem hreached.1.symm (by omega)

/-- The newest given state is the latest target or the base after every sender step. -/
theorem SenderStep.newest (h : SenderStep lib l given' update window) :
    ∃ n, IsNewest given' n ∧
      (window.latestTarget = some n ∨ window.latestTarget = none ∧ window.base = n) := by
  obtain ⟨n, hn, hlatest⟩ := hc.newest
  obtain ⟨candidate, hsends, hoffered⟩ := h
  rcases hoffered with _ | ⟨latest, hadm, -, hprepared⟩
  · -- The window keeps its latest target, or drops it once the base has reached it.
    refine ⟨n, hn, ?_⟩
    cases hsends with
    | unchanged => exact hlatest
    | pend latest hcandidate _ _
    | delta latest _ _ hcandidate _ _ _ _ _ _
    | keyframe latest hcandidate _ _ _ =>
      rw [hcandidate] at hlatest
      exact .inl (hlatest.resolve_right fun h => by cases h.1)
    | clear latest hcandidate hreached =>
      rw [hcandidate] at hlatest
      have heq : some latest = some n := hlatest.resolve_right fun h => by cases h.1
      cases heq
      exact .inr ⟨rfl, hc.base_eq_of_reached hn hreached⟩
    | resend _ hreached =>
      refine .inr ⟨rfl, ?_⟩
      rcases hlatest with hlatest | ⟨-, hbase⟩
      · exact hc.base_eq_of_reached hn (hreached n hlatest)
      · exact hbase
  · -- The state passed in is the newest one.
    have hnewest : IsNewest (latest :: l.given) latest := by
      refine ⟨rfl, fun s hs hepoch => ?_⟩
      rcases List.mem_cons.1 hs with rfl | hs
      · exact le_rfl
      · exact (hadm.1 s hs hepoch).1
    refine ⟨latest, hnewest, ?_⟩
    rcases hprepared with ⟨⟨hepoch, hstale⟩, rfl⟩ | hprepared
    · have hbase := hadm.1 _ hc.base hepoch.symm
      have hsame : n.epoch = latest.epoch := hadm.2 n hn.1 ⟨_, hc.base, hepoch.symm⟩
      have hnmem : n ∈ l.given := List.mem_of_mem_head? hn.1
      have hnle := hadm.1 n hnmem hsame
      rcases hlatest with hlatest | ⟨hnone, rfl⟩
      · have hgen : l.window.latestGeneration = n.generation := by
          rw [latestGeneration, hlatest]
        have hbn := hn.2 _ hc.base (hepoch.symm.trans hsame.symm)
        obtain rfl : n = latest := hnle.2 (by rw [hgen] at hstale; omega)
        exact .inl hlatest
      · have hgen : l.window.latestGeneration = l.window.base.generation := by
          rw [latestGeneration, hnone]
        exact .inr ⟨hnone, hbase.2 (by rw [hgen] at hstale; omega)⟩
    · exact .inl hprepared

/-- A state that can be sent is one of the given states. -/
theorem Offered.candidate_given {candidate : Option State} {latest : State}
    (h : Offered lib l window given' candidate) (hcandidate : candidate = some latest) :
    latest ∈ given' := by
  cases h with
  | waiting => exact List.mem_of_mem_head? (hc.latestTarget_isNewest hcandidate).1
  | passed latest' _ _ _ =>
    cases hcandidate
    exact List.mem_cons_self

theorem Content.sender (h : SenderStep lib l given' update window) :
    Content lib (emit { l with given := given' } update window) := by
  have hmono := h.given_mono
  obtain ⟨candidate, hsends, hoffered⟩ := id h
  have hcand : ∀ latest, candidate = some latest → latest ∈ given' := fun latest hl =>
    hoffered.candidate_given hc hl
  have hsent : ∀ k s, l.window.sent.get? k = some s →
      s ∈ given' ∧ s.generation = k ∧ s.epoch = l.window.base.epoch := by
    intro k s hs
    obtain ⟨h1, h2, h3⟩ := hc.sent k s hs
    exact ⟨hmono s h1, h2, h3⟩
  have hdeltas : ∀ d ∈ l.deltas, ∃ b t, b ∈ given' ∧ t ∈ given' ∧
      (t.rows = b.rows ∧ t.cols = b.cols) ∧
      compactViewportDatagram l.window.terminalId l.window.attachmentId b t = .ok d := by
    intro d hd
    obtain ⟨b, t, hb, ht, hrest⟩ := hc.deltas d hd
    exact ⟨b, t, hmono b hb, hmono t ht, hrest⟩
  have hwindow : window.terminalId = l.window.terminalId ∧
      window.attachmentId = l.window.attachmentId ∧
      window.retainedGenerations = l.window.retainedGenerations := by
    cases hsends <;> exact ⟨rfl, rfl, rfl⟩
  exact {
    route := by
      obtain ⟨h1, h2, h3, h4⟩ := hc.route
      simp only [emit, hwindow.1, hwindow.2.1]
      exact ⟨h1, h2, h3, h4⟩
    caps := ⟨hwindow.2.2.trans hc.caps.1, hc.caps.2⟩
    unique := h.unique hc
    valid := h.valid hc
    newest := h.newest hc
    base := by
      cases hsends with
      | keyframe latest hcandidate _ _ _ => exact hcand latest hcandidate
      | _ => exact hmono _ hc.base
    sent := by
      cases hsends with
      | delta latest _ _ hcandidate _ _ hepoch _ _ _ =>
        intro k s hs
        rcases get?_remember hs with ⟨rfl, rfl⟩ | hs
        · exact ⟨hcand _ hcandidate, rfl, hepoch⟩
        · exact hsent k s hs
      | keyframe latest hcandidate _ _ _ =>
        intro k s hs
        rcases get?_remember hs with ⟨rfl, rfl⟩ | hs
        · exact ⟨hcand _ hcandidate, rfl, rfl⟩
        · cases hs
      | _ => exact hsent
    keyframes := by
      intro k hk
      rcases List.mem_append.1 hk with hold | hnew
      · exact hmono k (hc.keyframes k hold)
      cases hsends with
      | keyframe latest hcandidate _ _ _ =>
        rw [List.mem_singleton.1 hnew]
        exact hcand latest hcandidate
      | resend _ _ =>
        rw [List.mem_singleton.1 hnew]
        exact hmono _ hc.base
      | delta latest u d _ _ _ _ _ _ hupdate =>
        cases u <;> simp_all [StreamingUpdate.keyframe?, StreamingUpdate.delta?]
      | _ => cases hnew
    deltas := by
      intro d hd
      rcases List.mem_append.1 hd with hnew | hold
      · clear hd
        cases hsends with
        | delta latest u d' hcandidate _ _ _ hgeometry hcompact hupdate =>
          have hdd : d = d' := by simpa [hupdate] using hnew
          exact ⟨l.window.base, latest, hmono _ hc.base, hcand latest hcandidate, hgeometry,
            hdd ▸ hcompact⟩
        | _ => cases hnew
      · simp only [emit, hwindow.1, hwindow.2.1]
        exact hdeltas d hold
    current := hc.current
    shown := fun s hs => hmono s (hc.shown s hs)
    retained := by
      intro k s hs
      obtain ⟨h1, h2, h3⟩ := hc.retained k s hs
      exact ⟨hmono s h1, h2, h3⟩
    acks := hc.acks }

end

end

/-- The latest target after an acknowledgement. -/
theorem Content.newest_ack (hc : Content lib l) {a : TerminalStateAck} {base : State}
    (hbase : base ∈ l.given) (hepoch : a.epoch = base.epoch) (hgen : a.generation ≤ base.generation)
    (hkeep : l.window.latestTarget = none → base = l.window.base) :
    ∃ n, IsNewest l.given n ∧ (l.window.latestAfterAck a = some n ∨
      l.window.latestAfterAck a = none ∧ base = n) := by
  obtain ⟨n, hn, hlatest | ⟨hnone, hbn⟩⟩ := hc.newest
  · refine ⟨n, hn, ?_⟩
    by_cases hreached : n.epoch = a.epoch ∧ n.generation ≤ a.generation
    · refine .inr ⟨?_, ?_⟩
      · rw [latestAfterAck, hlatest, Option.filter_some, if_neg]
        simpa using hreached
      · have hmem : n ∈ l.given := List.mem_of_mem_head? hn.1
        have hnb : n.epoch = base.epoch := hreached.1.trans hepoch
        have hle := hn.2 base hbase hnb.symm
        exact hc.unique base hbase n hmem hnb.symm (by omega)
    · refine .inl ?_
      rw [latestAfterAck, hlatest, Option.filter_some, if_pos]
      exact decide_eq_true hreached
  · refine ⟨n, hn, .inr ⟨?_, (hkeep hnone).trans hbn⟩⟩
    rw [latestAfterAck, hnone]
    rfl

theorem Content.ack (hc : Content lib l) {a : TerminalStateAck} {acks : List TerminalStateAck}
    {window : StreamingStateWindow} (hacks : l.acks = a :: acks)
    (h : l.window.Acknowledges a window) :
    Content lib { l with window := window, acks := acks } := by
  have hacks' : ∀ b ∈ acks, ∃ s ∈ l.shown, b = ⟨s.epoch, s.generation⟩ := fun b hb =>
    hc.acks b (hacks ▸ List.mem_cons_of_mem _ hb)
  cases h with
  | retired hretired | evicted hepoch hsent => exact { hc with acks := hacks' }
  | old hepoch hgen =>
    exact { hc with
      newest := hc.newest_ack hc.base hepoch hgen fun _ => rfl
      acks := hacks' }
  | advance acknowledged hepoch hgen hsent =>
    obtain ⟨hgiven, hagen, haepoch⟩ := hc.sent _ _ hsent
    exact { hc with
      newest := by
        refine hc.newest_ack hgiven (hepoch.trans haepoch.symm) hagen.ge fun hnone => ?_
        -- Without a latest target the base is the newest state.
        obtain ⟨n, hn, hlatest | ⟨-, hbase⟩⟩ := hc.newest
        · rw [hnone] at hlatest
          cases hlatest
        · have hle := hn.2 acknowledged hgiven (haepoch.trans (congrArg _ hbase))
          rw [hagen, ← hbase] at hle
          omega
      base := hgiven
      sent := by
        intro k s hs
        obtain ⟨h1, h2, h3⟩ := hc.sent k s (OrdMap.get?_of_get?_retain hs).2
        exact ⟨h1, h2, h3.trans haepoch.symm⟩
      acks := hacks' }

/-- The contents stay in order in every step. -/
theorem Content.moves (hc : Content lib l) (h : Moves lib l l') : Content lib l' := by
  cases h with
  | sender given' update window h => exact hc.sender h
  | staleKeyframe k keyframes c hkeyframes hcurrent hcovers =>
    exact { hc with
      keyframes := fun k' hk' => hc.keyframes k' (hkeyframes ▸ List.mem_cons_of_mem _ hk')
      acks := by
        intro a ha
        rcases List.mem_append.1 ha with ha | ha
        · exact hc.acks a ha
        · have hmem : c ∈ l.shown := List.mem_of_mem_head? (hc.current ▸ hcurrent)
          exact ⟨c, hmem, List.mem_singleton.1 ha⟩ }
  | keyframe k keyframes hkeyframes hnew =>
    have hk : k ∈ l.given := hc.keyframes k (hkeyframes ▸ List.mem_cons_self)
    obtain ⟨htid, haid, hretained⟩ := rebased_fixed l.replica k
    exact { hc with
      route := by
        obtain ⟨h1, h2, h3⟩ := hc.route
        exact ⟨h1.trans htid.symm, h2.trans haid.symm, h3⟩
      caps := ⟨hc.caps.1, hretained.trans hc.caps.2⟩
      keyframes := fun k' hk' => hc.keyframes k' (hkeyframes ▸ List.mem_cons_of_mem _ hk')
      current := rfl
      shown := by
        exact List.forall_mem_cons.2 ⟨hk, hc.shown⟩
      retained := by
        intro j s hs
        rcases get?_rebased hs with ⟨rfl, rfl⟩ | ⟨hother, hs⟩
        · exact ⟨hk, rfl, s, rfl, rfl⟩
        · obtain ⟨h1, h2, c, hcurrent, h3⟩ := hc.retained j s hs
          refine ⟨h1, h2, k, rfl, h3.trans ?_⟩
          by_contra hne
          exact hother ⟨c, hcurrent, hne⟩
      acks := by
        intro a ha
        rcases List.mem_append.1 ha with ha | ha
        · obtain ⟨s, hs, has⟩ := hc.acks a ha
          exact ⟨s, List.mem_cons_of_mem _ hs, has⟩
        · exact ⟨k, List.mem_cons_self, List.mem_singleton.1 ha⟩ }
  | ignored => exact hc
  | delta d b t c hd ht hcompact hcurrent hepoch hlt hbase =>
    exact { hc with
      current := rfl
      shown := by
        exact List.forall_mem_cons.2 ⟨ht, hc.shown⟩
      retained := by
        intro j s hs
        rcases get?_advance hs with ⟨rfl, rfl⟩ | hs
        · exact ⟨ht, rfl, s, rfl, rfl⟩
        · obtain ⟨h1, h2, c', hcurrent', h3⟩ := hc.retained j s hs
          rw [hcurrent] at hcurrent'
          cases hcurrent'
          exact ⟨h1, h2, t, rfl, h3.trans hepoch⟩
      acks := by
        intro a ha
        rcases List.mem_append.1 ha with ha | ha
        · obtain ⟨s, hs, has⟩ := hc.acks a ha
          exact ⟨s, List.mem_cons_of_mem _ hs, has⟩
        · exact ⟨t, List.mem_cons_self, List.mem_singleton.1 ha⟩ }
  | ack a acks window hacks h => exact hc.ack hacks h

/-- The link a run starts with. -/
theorem start_eq_ok {initial : State} {terminalId attachmentId : String} {version : Nat}
    (h : start lib initial terminalId attachmentId version = .ok l) :
    (terminalId ≠ "" ∧ attachmentId ≠ "") ∧
      validateViewportState lib.graphemeCount initial = .ok () ∧
      l = {
        window := {
          terminalId := terminalId
          attachmentId := attachmentId
          base := initial
          baseAcknowledged := false
          sent := OrdMap.empty.insert initial.generation initial
          latestTarget := none
          retainedGenerations := defaultRetainedGenerations
          retiredEpochs := []
          datagramVersion := version }
        replica := {
          terminalId := terminalId
          attachmentId := attachmentId
          current := none
          retained := OrdMap.empty
          pinnedBaseGeneration := none
          retainedGenerations := defaultRetainedGenerations }
        keyframes := [initial]
        deltas := []
        acks := []
        given := [initial]
        shown := [] } := by
  simp only [start, withRouteVersion, withRoute,
    withRetainedGenerations, forRoute, bind_eq_ok_iff,
    ensure_eq_ok_iff, pure_eq_ok_iff] at h
  obtain ⟨window, ⟨-, -, w, ⟨-, hroute, -, -, ⟨⟩, hvalid, rfl⟩, rfl⟩, replica,
    ⟨-, -, rfl⟩, rfl⟩ := h
  exact ⟨hroute, hvalid, rfl⟩

theorem Content.start {initial : State} {terminalId attachmentId : String} {version : Nat}
    (h : start lib initial terminalId attachmentId version = .ok l) : Content lib l := by
  obtain ⟨hroute, hvalid, rfl⟩ := start_eq_ok h
  exact {
    route := ⟨rfl, rfl, hroute⟩
    caps := ⟨rfl, rfl⟩
    unique := by
      intro x hx y hy _ _
      rw [List.mem_singleton.1 hx, List.mem_singleton.1 hy]
    valid := by
      intro x hx
      rw [List.mem_singleton.1 hx]
      exact hvalid
    newest := by
      refine ⟨initial, ⟨rfl, fun s hs _ => ?_⟩, .inr ⟨rfl, rfl⟩⟩
      rw [List.mem_singleton.1 hs]
    base := List.mem_singleton_self _
    sent := by
      intro k s hs
      obtain ⟨rfl, rfl⟩ | hnone := OrdMap.get?_insert_cases hs
      · exact ⟨List.mem_singleton_self _, rfl, rfl⟩
      · cases hnone
    keyframes := fun k hk => hk
    deltas := fun d hd => absurd hd List.not_mem_nil
    current := rfl
    shown := fun s hs => absurd hs List.not_mem_nil
    retained := by
      intro k s hs
      cases hs
    acks := fun a ha => absurd ha List.not_mem_nil }

end Link

end AstraShell.Streaming
