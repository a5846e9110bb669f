import AstraShell.Lib.Watch
import AstraShell.Streaming.Safety

/-!
# The datagram mailbox of a client

`DatagramMailbox` of `client.rs` stands between the router, which gets datagrams from the network,
and the attachment, which reads one slot. It keeps the newest datagram only and remembers the
generation of it, its watermark. A keyframe that the replica applies is committed to the mailbox.

An `Inbox` is a streaming link with the mailbox of its client. The router offers any datagram that
was sent, in any order and any number of times. A keyframe is applied and committed in one step, and
a datagram is read and applied in one step: the router does not look at the replica and the
attachment does not look at the mailbox in between, so a delivery there is one before or after.

`Watermarked` says how the mailbox follows the replica; `mailbox_loses_nothing` is what follows for
every run.
-/

set_option autoImplicit false

namespace AstraShell.Client

open Lib TerminalState TerminalSync Streaming

/-! ## The mailbox -/

structure DatagramMailbox where
  sender : Watch (Option TerminalViewportDatagram)
  epoch : Bytes
  generation : Nat

namespace DatagramMailbox

/-- The mailbox of a new route. -/
def register : DatagramMailbox := ⟨Watch.channel none, [], 0⟩

def deliver (m : DatagramMailbox) (datagram : TerminalViewportDatagram) : DatagramMailbox :=
  match datagram.diff with
  | none => m
  | some diff =>
    if diff.epoch ≠ m.epoch ∨ diff.targetGeneration ≤ m.generation then m
    else { m with
      generation := diff.targetGeneration
      sender := m.sender.send (some datagram) }

def commitKeyframe (m : DatagramMailbox) (state : State) : DatagramMailbox :=
  if m.epoch ≠ state.epoch then ⟨m.sender.send none, state.epoch, state.generation⟩
  else { m with generation := max m.generation state.generation }

end DatagramMailbox

/-- A link with the mailbox of its client, and the version of the slot that the client has seen. -/
structure Inbox where
  link : Link
  mailbox : DatagramMailbox
  seen : Nat

/-- What can happen to a client: something at the other end of the link, a datagram from the
network, a keyframe, or a look at the slot. -/
inductive Event where
  | remote (action : Streaming.Action)
  | route (datagram : TerminalViewportDatagram)
  | keyframe
  | read

/-- The actions of a link that its client takes no part in. -/
def isRemote : Streaming.Action → Bool
  | .deliverKeyframe => false
  | .deliverDelta _ => false
  | _ => true

namespace Inbox

def start (lib : External) (initialKeyframe : State) (terminalId attachmentId : String)
    (version : Nat) : Except String Inbox := do
  let link ← Link.start lib initialKeyframe terminalId attachmentId version
  return ⟨link, .register, 0⟩

/-- The datagram in the slot that the client has not read. -/
def unread (s : Inbox) : Option TerminalViewportDatagram :=
  if s.mailbox.sender.version ≠ s.seen then s.mailbox.sender.value else none

/-- The router has got a datagram. It is for this client when it names its route. -/
def arrive (s : Inbox) (datagram : TerminalViewportDatagram) : Inbox :=
  if datagram.terminalId = s.link.replica.terminalId ∧
      datagram.attachmentId = s.link.replica.attachmentId then
    { s with mailbox := s.mailbox.deliver datagram }
  else s

/-- A keyframe reaches the replica; one that is applied is committed. -/
def takeKeyframe (lib : External) (s : Inbox) : Except String Inbox :=
  match s.link.keyframes with
  | [] => .error "no keyframe is on the way"
  | keyframe :: _ => do
    let (disposition, replica) ← s.link.replica.applyKeyframe lib keyframe
    let link ← s.link.step lib .deliverKeyframe
    match disposition, replica.current with
    | .applied, some state =>
      return { s with link := link, mailbox := s.mailbox.commitKeyframe state }
    | .applied, none => .error "missing committed keyframe"
    | _, _ => return { s with link := link }

/-- The client looks at a slot that has changed. -/
def takeDatagram (lib : External) (s : Inbox) : Except String Inbox := do
  let s' := { s with seen := s.mailbox.sender.version }
  match s.mailbox.sender.value with
  | none => return s'
  | some datagram =>
    let link ← s.link.step lib (.deliverDelta datagram)
    return { s' with link := link }

def step (lib : External) (s : Inbox) : Event → Except String Inbox
  | .remote action => do
    let link ← s.link.step lib action
    return { s with link := link }
  | .route datagram => .ok (s.arrive datagram)
  | .keyframe => s.takeKeyframe lib
  | .read =>
    match s.mailbox.sender.changed s.seen with
    | none => .error "nothing has changed"
    | some (.error _) => .ok s
    | some (.ok _) => s.takeDatagram lib

/-- The sender keeps to the protocol, and the network delivers what was sent. -/
def Enabled (s : Inbox) : Event → Prop
  | .remote action => isRemote action = true ∧ s.link.Enabled action
  | .route datagram => datagram ∈ s.link.deltas
  | _ => True

inductive Reachable (lib : External) : Inbox → Prop
  | start {initialKeyframe : State} {terminalId attachmentId : String} {version : Nat} {s : Inbox}
      (h : start lib initialKeyframe terminalId attachmentId version = .ok s) : Reachable lib s
  | next {s s' : Inbox} (h : Reachable lib s) (event : Event) (henabled : s.Enabled event)
      (hstep : s.step lib event = .ok s') : Reachable lib s'

/-- The client reads what is in the slot, if anything is unread there. -/
def drain (lib : External) (s : Inbox) : Except String Inbox :=
  match s.unread with
  | none => .ok s
  | some _ => s.takeDatagram lib

end Inbox

/-! ## The watermark -/

/-- The mailbox is at the replica's state, or at the unread datagram when that is newer. -/
structure Inbox.Watermarked (s : Inbox) : Prop where
  seen : s.seen ≤ s.mailbox.sender.version
  fresh : s.link.replica.current = none →
    s.mailbox.generation = 0 ∧ s.mailbox.epoch = [] ∧ s.unread = none
  empty : ∀ c, s.link.replica.current = some c → s.unread = none →
    s.mailbox.epoch = c.epoch ∧ s.mailbox.generation = c.generation
  waiting : ∀ c d, s.link.replica.current = some c → s.unread = some d →
    d ∈ s.link.deltas ∧ ∃ diff, d.diff = some diff ∧ diff.epoch = c.epoch ∧
      s.mailbox.epoch = c.epoch ∧ s.mailbox.generation = max c.generation diff.targetGeneration

namespace Inbox

variable {lib : External} {s s' : Inbox} {c : State} {d : TerminalViewportDatagram}

theorem Watermarked.epoch (h : s.Watermarked) (hc : s.link.replica.current = some c) :
    s.mailbox.epoch = c.epoch := by
  cases hunread : s.unread with
  | none => exact (h.empty c hc hunread).1
  | some d =>
    obtain ⟨-, diff, -, -, hepoch, -⟩ := h.waiting c d hc hunread
    exact hepoch

/-- A step that leaves the replica and the mailbox alone, and loses no datagram. -/
theorem Watermarked.frame (h : s.Watermarked) {link : Link}
    (hreplica : link.replica.current = s.link.replica.current)
    (hdeltas : ∀ d ∈ s.link.deltas, d ∈ link.deltas) : Watermarked { s with link := link } where
  seen := h.seen
  fresh hnone := h.fresh (hreplica ▸ hnone)
  empty c hc hunread := h.empty c (hreplica ▸ hc) hunread
  waiting c d hc hunread := by
    obtain ⟨hd, hdiff⟩ := h.waiting c d (hreplica ▸ hc) hunread
    exact ⟨hdeltas d hd, hdiff⟩

/-- After a look at the slot nothing is unread. -/
theorem unread_seen (s : Inbox) (link : Link) :
    unread { s with link := link, seen := s.mailbox.sender.version } = none := by
  simp [unread]

theorem deliver_of_diff {m : DatagramMailbox} {diff : TerminalStateDiff}
    (hdiff : d.diff = some diff) :
    (diff.epoch ≠ m.epoch ∨ diff.targetGeneration ≤ m.generation) ∧ m.deliver d = m ∨
      diff.epoch = m.epoch ∧ m.generation < diff.targetGeneration ∧
        m.deliver d = { m with
          generation := diff.targetGeneration, sender := m.sender.send (some d) } := by
  unfold DatagramMailbox.deliver
  rw [hdiff]
  dsimp only
  split
  · next hold => exact .inl ⟨hold, rfl⟩
  · next hnew =>
      obtain ⟨hepoch, hlt⟩ := not_or.1 hnew
      exact .inr ⟨not_not.1 hepoch, not_le.1 hlt, rfl⟩

/-! ## The steps -/

/-- A datagram that was sent has a diff of the link's route. -/
theorem sent_diff (hlink : Link.Reachable lib s.link) (hd : d ∈ s.link.deltas) :
    (d.terminalId = s.link.replica.terminalId ∧ d.attachmentId = s.link.replica.attachmentId) ∧
      ∃ diff, d.diff = some diff := by
  obtain ⟨hcontent, -⟩ := hlink.inv
  obtain ⟨b, t, -, -, -, hcompact⟩ := hcontent.deltas d hd
  obtain ⟨-, -, -, hterminal, hattachment, diff, hdiff, -⟩ := Link.span_of_compact hcompact
  exact ⟨⟨hterminal.trans hcontent.route.1, hattachment.trans hcontent.route.2.1⟩, diff, hdiff⟩

/-- A datagram of the client's epoch brings the replica to its generation, if that is newer. -/
theorem deliverDelta_max (hlink : Link.Reachable lib s.link) (hd : d ∈ s.link.deltas)
    (hc : s.link.replica.current = some c) {diff : TerminalStateDiff} (hdiff : d.diff = some diff)
    (hepoch : diff.epoch = c.epoch) :
    ∃ link c', s.link.step lib (.deliverDelta d) = .ok link ∧ link.deltas = s.link.deltas ∧
      link.replica.current = some c' ∧ c'.epoch = c.epoch ∧
      c'.generation = max c.generation diff.targetGeneration := by
  obtain ⟨hcontent, hphase⟩ := hlink.inv
  obtain ⟨b, t, -, -, hcompact, hcases⟩ := hcontent.applyDatagram_cases hd
  obtain ⟨-, -, -, -, -, diff', hdiff', htepoch, -, htgen⟩ := Link.span_of_compact hcompact
  obtain rfl : diff' = diff := Option.some.inj (hdiff'.symm.trans hdiff)
  have hsame : c.epoch = t.epoch := hepoch.symm.trans htepoch
  have hstep : ∀ disposition replica, s.link.replica.applyDatagram lib d =
      .ok (disposition, replica) →
      s.link.step lib (.deliverDelta d) = .ok (s.link.receive disposition replica
        (disposition == .applied)) := by
    intro disposition replica happly
    simp only [Link.step, happly]
    rfl
  rcases hcases with ⟨hold, hstale⟩ | ⟨-, hcovers, ⟨-, hmissing⟩ | ⟨-, happlied⟩⟩
  · -- The replica has the generation already.
    have hle : t.generation ≤ c.generation := by
      rcases hold with ⟨c', hc', hne⟩ | ⟨c', hc', -, hle⟩
      · obtain rfl : c' = c := Option.some.inj (hc'.symm.trans hc)
        exact absurd hsame hne
      · obtain rfl : c' = c := Option.some.inj (hc'.symm.trans hc)
        exact hle
    refine ⟨_, c, hstep _ _ hstale, rfl, hc, rfl, ?_⟩
    rw [htgen, max_eq_left hle]
  · -- The base is there, because the replica is behind a datagram of its epoch.
    obtain ⟨disposition, replica, happly, hdisposition⟩ := Link.applied_or_stale hcontent hphase hd
    rw [hmissing] at happly
    cases happly
    rcases hdisposition with h | h
    · cases h
    · cases h
  · have hlt : c.generation < t.generation := by
      by_contra hle
      exact hcovers ⟨c, hc, hsame, not_lt.1 hle⟩
    refine ⟨_, t, hstep _ _ happlied, rfl, rfl, hsame.symm, ?_⟩
    rw [htgen, max_eq_right hlt.le]

/-- What a keyframe does to the two ends of the client. -/
theorem takeKeyframe_cases (h : s.takeKeyframe lib = .ok s') :
    s.link.step lib .deliverKeyframe = .ok s'.link ∧ s'.seen = s.seen ∧
      s'.link.deltas = s.link.deltas ∧
      (s'.link.replica.current = s.link.replica.current ∧ s'.mailbox = s.mailbox ∨
        ∃ k, ¬ s.link.replica.covers k.epoch k.generation ∧ s'.link.replica.current = some k ∧
          s'.mailbox = s.mailbox.commitKeyframe k) := by
  unfold takeKeyframe at h
  cases hkeyframes : s.link.keyframes with
  | nil =>
    rw [hkeyframes] at h
    cases h
  | cons k keyframes =>
    rw [hkeyframes] at h
    obtain ⟨⟨disposition, replica⟩, happly, h⟩ := bind_eq_ok_iff.1 h
    obtain ⟨link, hstep, h⟩ := bind_eq_ok_iff.1 h
    have hlink : link = (Link.receive { s.link with keyframes := keyframes } disposition replica
        (disposition == .applied || disposition == .stale)) := by
      simp only [Link.step, hkeyframes, happly] at hstep
      exact (Except.ok.inj hstep).symm
    obtain ⟨-, ⟨-, rfl, rfl⟩ | ⟨hcovers, rfl, rfl⟩⟩ :=
      Effect.of_wp_result StreamingReplica.applyKeyframe_spec happly
    · -- A stale keyframe is not committed.
      cases h
      subst hlink
      exact ⟨hstep, rfl, rfl, .inl ⟨rfl, rfl⟩⟩
    · cases h
      subst hlink
      exact ⟨hstep, rfl, rfl, .inr ⟨k, hcovers, rfl, rfl⟩⟩

theorem unread_send {m : DatagramMailbox} {seen : Nat} (hseen : seen ≤ m.sender.version)
    (link : Link) (value : Option TerminalViewportDatagram) (epoch : Bytes) (generation : Nat) :
    unread ⟨link, ⟨m.sender.send value, epoch, generation⟩, seen⟩ = value := by
  have hne : m.sender.version + 1 ≠ seen := by omega
  simp [unread, Watch.send, hne]

/-- A datagram that the router takes is newer than everything the client has. -/
theorem Watermarked.arrive (h : s.Watermarked) (hlink : Link.Reachable lib s.link)
    (hd : d ∈ s.link.deltas) : (s.arrive d).Watermarked := by
  obtain ⟨hroute, diff, hdiff⟩ := sent_diff hlink hd
  rw [Inbox.arrive, if_pos hroute]
  rcases deliver_of_diff (m := s.mailbox) hdiff with ⟨-, hsame⟩ | ⟨hepoch, hlt, hsent⟩
  · rw [hsame]
    exact h
  · rw [hsent]
    have hunread := unread_send h.seen s.link (some d) s.mailbox.epoch diff.targetGeneration
    refine ⟨Nat.le_succ_of_le h.seen, ?_, ?_, ?_⟩
    · -- Nothing has been sent to a client without a state.
      intro hnone
      rw [hlink.inv.2.started hnone] at hd
      cases hd
    · intro c _ hnone
      exact absurd (hunread.symm.trans hnone) (Option.some_ne_none d)
    · intro c d' hc hd'
      obtain rfl : d' = d := (Option.some.inj (hunread.symm.trans hd')).symm
      have hsync := h.epoch hc
      refine ⟨hd, diff, hdiff, hepoch.trans hsync, hsync, ?_⟩
      have hle : c.generation ≤ s.mailbox.generation := by
        cases hold : s.unread with
        | none => exact (h.empty c hc hold).2.ge
        | some e =>
          obtain ⟨-, _, -, -, -, hgeneration⟩ := h.waiting c e hc hold
          rw [hgeneration]
          exact le_max_left _ _
      exact (max_eq_right (hle.trans hlt.le)).symm

/-- A state that the replica does not cover is newer than its own of the same epoch. -/
theorem newer_of_not_covers {r : StreamingReplica} {k : State}
    (hnew : ¬ r.covers k.epoch k.generation) (hc : r.current = some c)
    (hepoch : c.epoch = k.epoch) : c.generation < k.generation := by
  by_contra hle
  exact hnew ⟨c, hc, hepoch, not_lt.1 hle⟩

/-- A keyframe that is committed. -/
theorem Watermarked.commit (h : s.Watermarked) {link : Link} {k : State}
    (hnew : ¬ s.link.replica.covers k.epoch k.generation) (hcurrent : link.replica.current = some k)
    (hdeltas : link.deltas = s.link.deltas) :
    Watermarked ⟨link, s.mailbox.commitKeyframe k, s.seen⟩ := by
  unfold DatagramMailbox.commitKeyframe
  split
  · -- The slot of another epoch is emptied.
    have hunread := unread_send h.seen link none k.epoch k.generation
    refine ⟨Nat.le_succ_of_le h.seen, ?_, ?_, ?_⟩
    · intro hnone
      exact absurd (hcurrent.symm.trans hnone) (Option.some_ne_none k)
    · intro c hc _
      obtain rfl : k = c := Option.some.inj (hcurrent.symm.trans hc)
      exact ⟨rfl, rfl⟩
    · intro c d _ hd
      exact absurd (hd.symm.trans hunread) (Option.some_ne_none d)
  · next hsame =>
      have hepoch : s.mailbox.epoch = k.epoch := not_not.1 hsame
      refine ⟨h.seen, ?_, ?_, ?_⟩
      · intro hnone
        exact absurd (hcurrent.symm.trans hnone) (Option.some_ne_none k)
      · intro c hc hunread
        obtain rfl : k = c := Option.some.inj (hcurrent.symm.trans hc)
        refine ⟨hepoch, max_eq_right ?_⟩
        cases hold : s.link.replica.current with
        | none =>
          rw [(h.fresh hold).1]
          exact Nat.zero_le _
        | some c =>
          obtain ⟨hce, hgeneration⟩ := h.empty c hold hunread
          rw [hgeneration]
          exact (newer_of_not_covers hnew hold (hce.symm.trans hepoch)).le
      · intro c d hc hd
        obtain rfl : k = c := Option.some.inj (hcurrent.symm.trans hc)
        cases hold : s.link.replica.current with
        | none =>
          have hnone := (h.fresh hold).2.2
          exact absurd (hd.symm.trans hnone) (Option.some_ne_none d)
        | some c =>
          obtain ⟨hmem, diff, hdiff, hdepoch, hce, hgeneration⟩ := h.waiting c d hold hd
          have hsync : c.epoch = k.epoch := hce.symm.trans hepoch
          have hlt := newer_of_not_covers hnew hold hsync
          refine ⟨hdeltas ▸ hmem, diff, hdiff, hdepoch.trans hsync, hepoch, ?_⟩
          show max s.mailbox.generation k.generation = _
          rw [hgeneration]
          omega

/-- A datagram that is read brings the replica to the watermark. -/
theorem Watermarked.takeDatagram (h : s.Watermarked) (hlink : Link.Reachable lib s.link)
    (hc : s.link.replica.current = some c) (hd : s.unread = some d) :
    ∃ s' c', s.takeDatagram lib = .ok s' ∧ s.link.step lib (.deliverDelta d) = .ok s'.link ∧
      s'.link.deltas = s.link.deltas ∧ s'.unread = none ∧ s'.Watermarked ∧
      s'.link.replica.current = some c' ∧ s.mailbox.epoch = c'.epoch ∧
      s.mailbox.generation = c'.generation := by
  obtain ⟨hmem, diff, hdiff, hdepoch, hepoch, hgeneration⟩ := h.waiting c d hc hd
  obtain ⟨link, c', hstep, hdeltas, hcurrent, hce, hcgen⟩ :=
    deliverDelta_max hlink hmem hc hdiff hdepoch
  have hvalue : s.mailbox.sender.value = some d := by
    unfold unread at hd
    split at hd
    · exact hd
    · cases hd
  have hsync : s.mailbox.epoch = c'.epoch ∧ s.mailbox.generation = c'.generation :=
    ⟨hepoch.trans hce.symm, hgeneration.trans hcgen.symm⟩
  have hunread := s.unread_seen link
  refine ⟨⟨link, s.mailbox, s.mailbox.sender.version⟩, c', ?_, hstep, hdeltas, hunread, ?_,
    hcurrent, hsync⟩
  · simp only [Inbox.takeDatagram, hvalue, hstep]
    rfl
  · refine ⟨le_refl _, ?_, ?_, ?_⟩
    · intro hnone
      exact absurd (hcurrent.symm.trans hnone) (Option.some_ne_none c')
    · intro x hx _
      obtain rfl : c' = x := Option.some.inj (hcurrent.symm.trans hx)
      exact hsync
    · intro x e _ he
      exact absurd (he.symm.trans hunread) (Option.some_ne_none e)

/-! ## Runs -/

/-- A step at the other end of the link leaves the replica alone and loses no datagram. -/
theorem remote_frame {link link' : Link} {action : Streaming.Action}
    (hremote : isRemote action = true) (hstep : link.step lib action = .ok link') :
    link'.replica = link.replica ∧ ∀ d ∈ link.deltas, d ∈ link'.deltas := by
  cases action with
  | deliverKeyframe | deliverDelta d => cases hremote
  | prepare latest budget | retry budget | rekey | repair request =>
    obtain ⟨⟨update, window⟩, -, hstep⟩ := bind_eq_ok_iff.1 hstep
    cases hstep
    exact ⟨rfl, fun d hd => List.mem_append_right _ hd⟩
  | deliverAck =>
    rw [Link.step] at hstep
    split at hstep
    · cases hstep
    · obtain ⟨⟨_, window⟩, -, hstep⟩ := bind_eq_ok_iff.1 hstep
      cases hstep
      exact ⟨rfl, fun d hd => hd⟩

section

variable (hlink : Link.Reachable lib s.link)

include hlink

/-- A look at a slot that has changed. -/
theorem Watermarked.read (h : s.Watermarked) (hchanged : s.mailbox.sender.version ≠ s.seen)
    (hread : s.takeDatagram lib = .ok s') : Link.Reachable lib s'.link ∧ s'.Watermarked := by
  cases hd : s.unread with
  | none =>
    -- The slot was emptied by a keyframe.
    have hvalue : s.mailbox.sender.value = none := by
      unfold unread at hd
      rwa [if_pos hchanged] at hd
    simp only [Inbox.takeDatagram, hvalue] at hread
    cases hread
    have hunread := s.unread_seen s.link
    refine ⟨hlink, le_refl _, fun hnone => ?_, fun c hc _ => h.empty c hc hd, fun c d _ hd' => ?_⟩
    · obtain ⟨hgeneration, hepoch, -⟩ := h.fresh hnone
      exact ⟨hgeneration, hepoch, hunread⟩
    · exact absurd (hd'.symm.trans hunread) (Option.some_ne_none d)
  | some d =>
    cases hc : s.link.replica.current with
    | none => exact absurd ((h.fresh hc).2.2.symm.trans hd) (Option.some_ne_none d).symm
    | some c =>
      obtain ⟨s'', c', htake, hdelta, -, -, hwater, -⟩ := h.takeDatagram hlink hc hd
      obtain rfl : s'' = s' := Except.ok.inj (htake.symm.trans hread)
      have hmem := (h.waiting c d hc hd).1
      exact ⟨hlink.next ⟨.deliverDelta d, hmem, hdelta⟩, hwater⟩

/-- The slot is read, if anything is in it. -/
theorem Watermarked.drain (h : s.Watermarked) (hc : s.link.replica.current = some c) :
    ∃ s' c', s.drain lib = .ok s' ∧ Link.Reachable lib s'.link ∧ s'.link.deltas = s.link.deltas ∧
      s'.unread = none ∧ s'.link.replica.current = some c' ∧ s.mailbox.epoch = c'.epoch ∧
      s.mailbox.generation = c'.generation := by
  unfold Inbox.drain
  cases hd : s.unread with
  | none => exact ⟨s, c, rfl, hlink, rfl, hd, hc, h.empty c hc hd⟩
  | some d =>
    obtain ⟨s', c', htake, hdelta, hdeltas, hunread, -, hcurrent, hsync⟩ :=
      h.takeDatagram hlink hc hd
    have hmem := (h.waiting c d hc hd).1
    exact ⟨s', c', htake, hlink.next ⟨.deliverDelta d, hmem, hdelta⟩, hdeltas, hunread, hcurrent,
      hsync⟩

/-- What the mailbox discards is of another epoch or not above the watermark, so it is stale to a
replica that has reached the watermark. -/
theorem stale_of_discarded (hd : d ∈ s.link.deltas)
    (hdiscard : s.arrive d = s) (hlink' : Link.Reachable lib s'.link)
    (hdeltas : s'.link.deltas = s.link.deltas) (hcurrent : s'.link.replica.current = some c)
    (hepoch : s.mailbox.epoch = c.epoch) (hgeneration : s.mailbox.generation = c.generation) :
    s'.link.replica.applyDatagram lib d = .ok (.stale, s'.link.replica) := by
  obtain ⟨hroute, diff, hdiff⟩ := sent_diff hlink hd
  have hkept : s.mailbox.deliver d = s.mailbox := by
    rw [Inbox.arrive, if_pos hroute] at hdiscard
    exact congrArg Inbox.mailbox hdiscard
  have hold : diff.epoch ≠ s.mailbox.epoch ∨ diff.targetGeneration ≤ s.mailbox.generation := by
    rcases deliver_of_diff (m := s.mailbox) hdiff with ⟨hold, -⟩ | ⟨-, hlt, hsent⟩
    · exact hold
    · have hmoved := congrArg DatagramMailbox.generation (hsent.symm.trans hkept)
      exact absurd hmoved hlt.ne'
  obtain ⟨hcontent, -⟩ := hlink'.inv
  obtain ⟨b, t, -, -, hcompact, ⟨-, hstale⟩ | ⟨hother, hcovers, -⟩⟩ :=
    hcontent.applyDatagram_cases (hdeltas ▸ hd)
  · exact hstale
  · exfalso
    obtain ⟨-, -, -, -, -, diff', hdiff', htepoch, -, htgen⟩ := Link.span_of_compact hcompact
    obtain rfl : diff' = diff := Option.some.inj (hdiff'.symm.trans hdiff)
    have hsame : c.epoch = t.epoch := by
      by_contra hne
      exact hother ⟨c, hcurrent, hne⟩
    rcases hold with hne | hle
    · exact hne (htepoch.trans (hsame.symm.trans hepoch.symm))
    · exact hcovers ⟨c, hcurrent, hsame, htgen ▸ hgeneration ▸ hle⟩

/-- One step keeps the link in its protocol and the mailbox at its watermark. -/
theorem Watermarked.step (h : s.Watermarked) {event : Event} (henabled : s.Enabled event)
    (hstep : s.step lib event = .ok s') : Link.Reachable lib s'.link ∧ s'.Watermarked := by
  cases event with
  | remote action =>
    obtain ⟨link, haction, hstep⟩ := bind_eq_ok_iff.1 hstep
    cases hstep
    obtain ⟨hreplica, hdeltas⟩ := remote_frame henabled.1 haction
    exact ⟨hlink.next ⟨action, henabled.2, haction⟩, h.frame (congrArg _ hreplica) hdeltas⟩
  | route d =>
    cases hstep
    refine ⟨?_, h.arrive hlink henabled⟩
    unfold Inbox.arrive
    split
    · exact hlink
    · exact hlink
  | keyframe =>
    obtain ⟨hkeyframe, hseen, hdeltas, hcases⟩ := takeKeyframe_cases hstep
    refine ⟨hlink.next ⟨.deliverKeyframe, trivial, hkeyframe⟩, ?_⟩
    obtain ⟨link, mailbox, seen⟩ := s'
    cases hseen
    rcases hcases with ⟨hcurrent, rfl⟩ | ⟨k, hnew, hcurrent, rfl⟩
    · exact h.frame hcurrent fun d hd => hdeltas ▸ hd
    · exact h.commit hnew hcurrent hdeltas
  | read =>
    simp only [Inbox.step] at hstep
    split at hstep
    · cases hstep
    · cases hstep
      exact ⟨hlink, h⟩
    · next hchanged => exact h.read hlink (Watch.ne_of_changed hchanged) hstep

end

theorem Reachable.inv (h : Reachable lib s) : Link.Reachable lib s.link ∧ s.Watermarked := by
  induction h with
  | start hstart =>
    obtain ⟨link, hlink, hstart⟩ := bind_eq_ok_iff.1 hstart
    cases hstart
    obtain ⟨-, -, rfl⟩ := Link.start_eq_ok hlink
    refine ⟨.start hlink, ⟨le_refl _, fun _ => ⟨rfl, rfl, rfl⟩, ?_, ?_⟩⟩
    · intro c hc
      cases hc
    · intro c d hc
      cases hc
  | next _ event henabled hstep ih => exact ih.2.step ih.1 henabled hstep

end Inbox

/-- In every run, once the client has a state: a slot without an unread datagram means that the
watermark is the replica's state; a datagram that the mailbox discards is stale to the replica as
soon as the slot is read; a datagram in the slot is of the replica's epoch; and reading the slot
brings the replica to the watermark, whatever was overwritten there. -/
theorem mailbox_loses_nothing (lib : External) {s : Inbox} (h : Inbox.Reachable lib s) {c : State}
    (hc : s.link.replica.current = some c) :
    (s.unread = none → s.mailbox.epoch = c.epoch ∧ s.mailbox.generation = c.generation) ∧
    (∀ d ∈ s.link.deltas, s.arrive d = s → ∃ s', s.drain lib = .ok s' ∧
      s'.link.replica.applyDatagram lib d = .ok (.stale, s'.link.replica)) ∧
    (∀ d, s.unread = some d → ∃ diff, d.diff = some diff ∧ diff.epoch = c.epoch) ∧
    ∃ s' c', s.drain lib = .ok s' ∧ s'.unread = none ∧ s'.link.replica.current = some c' ∧
      s.mailbox.epoch = c'.epoch ∧ s.mailbox.generation = c'.generation := by
  obtain ⟨hlink, hwater⟩ := h.inv
  obtain ⟨s', c', hdrain, hlink', hdeltas, hunread, hcurrent, hepoch, hgeneration⟩ :=
    hwater.drain hlink hc
  refine ⟨hwater.empty c hc, fun d hd hdiscard => ⟨s', hdrain, ?_⟩, fun d hd => ?_,
    s', c', hdrain, hunread, hcurrent, hepoch, hgeneration⟩
  · exact Inbox.stale_of_discarded hlink hd hdiscard hlink' hdeltas hcurrent hepoch hgeneration
  · obtain ⟨-, diff, hdiff, hdepoch, -⟩ := hwater.waiting c d hc hd
    exact ⟨diff, hdiff, hdepoch⟩

/-! ## A run -/

def firstInbox : Inbox :=
  okValue (Inbox.start plainLibrary (blankState 0 1) "t" "a" 2) (by decide +kernel)

/-- The initial keyframe is applied and committed. -/
def shownInbox : Inbox := okValue (firstInbox.step plainLibrary .keyframe) (by decide +kernel)

def acknowledgedInbox : Inbox :=
  okValue (shownInbox.step plainLibrary (.remote .deliverAck)) (by decide +kernel)

/-- The next state has been sent. -/
def sentInbox : Inbox :=
  okValue (acknowledgedInbox.step plainLibrary (.remote (.prepare (blankState 0 2) 1200)))
    (by decide +kernel)

def sentDatagram : TerminalViewportDatagram :=
  okValue (context sentInbox.link.deltas.head? "nothing was sent") (by decide +kernel)

/-- The datagram is in the slot. -/
def filledInbox : Inbox := sentInbox.arrive sentDatagram

theorem filledInbox_reachable : Inbox.Reachable plainLibrary filledInbox := by
  have hfirst : Inbox.Reachable plainLibrary firstInbox := .start (eq_ok_okValue _ _)
  have hshown : Inbox.Reachable plainLibrary shownInbox :=
    hfirst.next .keyframe trivial (eq_ok_okValue _ _)
  have hacknowledged : Inbox.Reachable plainLibrary acknowledgedInbox :=
    hshown.next (.remote .deliverAck) ⟨rfl, trivial⟩ (eq_ok_okValue _ _)
  have hgiven : acknowledgedInbox.link.given = [blankState 0 1] := by decide +kernel
  have hadmissible : Link.Admissible acknowledgedInbox.link.given (blankState 0 2) := by
    rw [hgiven]
    refine ⟨fun s hs _ => ?_, fun newest hnewest _ => ?_⟩
    · rw [List.mem_singleton.1 hs]
      exact ⟨by decide, fun h => absurd h (by decide)⟩
    · cases hnewest
      rfl
  have hsent : Inbox.Reachable plainLibrary sentInbox :=
    hacknowledged.next (.remote (.prepare (blankState 0 2) 1200)) ⟨rfl, hadmissible⟩
      (eq_ok_okValue _ _)
  have hhead : sentInbox.link.deltas.head? = some sentDatagram :=
    context_eq_ok_iff.1 (eq_ok_okValue _ _)
  exact hsent.next (.route sentDatagram) (List.mem_of_mem_head? hhead) rfl

theorem filledInbox_loses_nothing : filledInbox.unread = some sentDatagram ∧
    ∃ s' c', filledInbox.drain plainLibrary = .ok s' ∧ s'.unread = none ∧
      s'.link.replica.current = some c' ∧ filledInbox.mailbox.epoch = c'.epoch ∧
      filledInbox.mailbox.generation = c'.generation := by
  have hcurrent : filledInbox.link.replica.current = some (blankState 0 1) := by decide +kernel
  exact ⟨by decide +kernel,
    (mailbox_loses_nothing plainLibrary filledInbox_reachable hcurrent).2.2.2⟩

end AstraShell.Client
