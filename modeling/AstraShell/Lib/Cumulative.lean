import Mathlib.Data.Finset.Card
import Mathlib.Tactic.Common

/-!
# Cumulative updates between bounded windows

A sender numbers the versions of a document and brings a receiver up to date. It sends some versions
whole, in order, and it sends differences: a difference `(base, target)` can be applied by a
receiver that still holds `base`, and may be lost, repeated or delivered late. The receiver
acknowledges what it makes current, in order. The sender takes differences from its `base`, which
only an acknowledgement or a whole version advances. Both sides retain at most `cap` versions: the
sender forgets the oldest version other than its base, the receiver the oldest version other than
the one it last built on.

`Session.Inv` is an invariant of the exchange: for each event a lemma `Session.inv_…` says that it
is kept. Its consequence `Session.Inv.base_mem_retained` says that a difference which would advance
the receiver always finds its base: forgetting never loses a version that a difference in the
network still needs. The argument is a count: between the base and the newest version sent from an
older base there are at most `cap - 2` versions (`Session.Inv.crowd`), because the sender still held
all of them when the base was acknowledged.
-/

set_option autoImplicit false

namespace AstraShell.Lib.Cumulative

/-! ## Forgetting the oldest version -/

/-- `B` is `A`, without its smallest member other than `keep` if `A` has one member too many. -/
def Evicts (cap keep : ℕ) (A B : Finset ℕ) : Prop :=
  (A.card ≤ cap ∧ B = A) ∨
    (A.card = cap + 1 ∧ ∃ m ∈ A, m ≠ keep ∧ (∀ k ∈ A, k ≠ keep → m ≤ k) ∧ B = A.erase m)

variable {cap keep k j : ℕ} {A B : Finset ℕ}

section

variable (h : Evicts cap keep A B)

include h

theorem Evicts.subset : B ⊆ A := by
  rcases h with ⟨-, rfl⟩ | ⟨-, m, -, -, -, rfl⟩
  · exact Finset.Subset.refl _
  · exact Finset.erase_subset _ _

theorem Evicts.card_le : B.card ≤ cap := by
  rcases h with ⟨hcard, rfl⟩ | ⟨hcard, m, hm, -, -, rfl⟩
  · exact hcard
  · rw [Finset.card_erase_of_mem hm, hcard]
    omega

theorem Evicts.mem_keep (hk : keep ∈ A) : keep ∈ B := by
  rcases h with ⟨-, rfl⟩ | ⟨-, m, -, hne, -, rfl⟩
  · exact hk
  · exact Finset.mem_erase.2 ⟨hne.symm, hk⟩

/-- What is at least as new as a survivor survives. -/
theorem Evicts.mem_of_le (hk : k ∈ B) (hne : k ≠ keep) (hj : j ∈ A) (hle : k ≤ j) : j ∈ B := by
  rcases h with ⟨-, rfl⟩ | ⟨-, m, -, -, hmin, rfl⟩
  · exact hj
  · obtain ⟨hkm, hkA⟩ := Finset.mem_erase.1 hk
    have hmk := hmin k hkA hne
    refine Finset.mem_erase.2 ⟨?_, hj⟩
    rintro rfl
    exact hkm (le_antisymm hle hmk)

/-- A version survives when few versions are newer than it. -/
theorem Evicts.mem_of_newer (hk : k ∈ A)
    (hfew : (A.filter fun j => k < j).card + 2 ≤ cap) : k ∈ B := by
  rcases h with ⟨-, rfl⟩ | ⟨hcard, m, hm, -, hmin, rfl⟩
  · exact hk
  · refine Finset.mem_erase.2 ⟨?_, hk⟩
    rintro rfl
    -- If `k` is the one forgotten, then all of `A` is newer than `k` except `k` and `keep`.
    have hsub : A ⊆ insert k (insert keep (A.filter fun j => k < j)) := by
      intro j hj
      by_cases hkeep : j = keep
      · simp [hkeep]
      · have hle := hmin j hj hkeep
        rcases Nat.eq_or_lt_of_le hle with rfl | hlt
        · simp
        · simp [hj, hlt]
    have h1 := Finset.card_le_card hsub
    have h2 := Finset.card_insert_le k (insert keep (A.filter fun j => k < j))
    have h3 := Finset.card_insert_le keep (A.filter fun j => k < j)
    omega

end

/-! ## The exchange -/

/-- What the receiver holds: the current version, the version it was last built on, and the versions
it retains. -/
structure Receiver where
  current : ℕ
  pinned : ℕ
  retained : Finset ℕ

/-- A sender, a receiver and the messages between them. `top` is the newest version the sender has
announced or is about to announce. A difference once sent stays in `deltas`. The receiver is absent
until the first whole version arrives. -/
structure Session where
  base : ℕ
  top : ℕ
  acked : Bool
  sent : Finset ℕ
  deltas : Set (ℕ × ℕ)
  keyframes : List ℕ
  acks : List ℕ
  receiver : Option Receiver

/-- A session that has sent its first whole version. -/
def Session.start (base : ℕ) : Session where
  base := base
  top := base
  acked := false
  sent := {base}
  deltas := ∅
  keyframes := [base]
  acks := []
  receiver := none

/-! ## The invariant -/

/-- What holds of the receiver. -/
structure Receiver.Inv (cap : ℕ) (s : Session) (r : Receiver) : Prop where
  current_mem : r.current ∈ r.retained
  pinned_mem : r.pinned ∈ r.retained
  retained_le : ∀ k ∈ r.retained, k ≤ r.current
  card_le : r.retained.card ≤ cap
  pinned_le : r.pinned ≤ s.base
  current_le_top : r.current ≤ s.top
  current_le_base : s.acked = false → r.current ≤ s.base
  base_le_current : s.acked = true → s.base ≤ r.current
  delta_base_le : ∀ d ∈ s.deltas, d.1 ≤ r.current
  ack_le : ∀ k ∈ s.acks, k ≤ r.current
  /-- A retained version newer than the pinned one came with a difference from an older base. -/
  origin : ∀ k ∈ r.retained, r.pinned < k → ∃ d ∈ s.deltas, d.1 ≤ r.pinned ∧ d.2 = k
  /-- A difference from a base before the pinned one has nothing new. -/
  stale : ∀ d ∈ s.deltas, d.1 < r.pinned → d.2 ≤ r.current
  /-- The bases that are or may yet be built on are retained. -/
  held_delta : ∀ d ∈ s.deltas, r.current < d.2 → r.pinned < d.1 → d.1 ∈ r.retained
  held_base : s.acked = true → r.pinned < s.base → s.base ∈ r.retained
  held_ack : ∀ k ∈ s.acks, k ∈ s.sent → r.pinned < k → k ∈ r.retained

/-- What holds of the sender, the network and the receiver together. -/
structure Session.Inv (cap : ℕ) (s : Session) : Prop where
  base_mem : s.base ∈ s.sent
  base_le_sent : ∀ k ∈ s.sent, s.base ≤ k
  sent_card : s.sent.card ≤ cap
  base_le_top : s.base ≤ s.top
  delta_base_le : ∀ d ∈ s.deltas, d.1 ≤ s.base
  delta_le_top : ∀ d ∈ s.deltas, d.2 ≤ s.top
  delta_mono : ∀ d ∈ s.deltas, ∀ d' ∈ s.deltas, d.1 < d'.1 → d.2 ≤ d'.2
  delta_le_base : s.acked = false → ∀ d ∈ s.deltas, d.2 ≤ s.base
  /-- The sender still holds every target newer than a version it holds besides the base. -/
  sent_upward : ∀ k ∈ s.sent, k ≠ s.base → ∀ d ∈ s.deltas, k ≤ d.2 → d.2 ∈ s.sent
  /-- Few targets newer than a base were sent from an older base. -/
  crowd : ∀ b, (b = s.base ∨ ∃ d ∈ s.deltas, d.1 = b) → ∀ F : Finset ℕ,
    (∀ j ∈ F, b < j ∧ ∃ d ∈ s.deltas, d.1 < b ∧ d.2 = j) → F.card + 2 ≤ cap
  keyframe_le : ∀ k ∈ s.keyframes, k ≤ s.base
  keyframe_covers : ∀ k ∈ s.keyframes, ∀ d ∈ s.deltas, d.1 < k → d.2 ≤ k
  fresh : s.receiver = none →
    s.deltas = ∅ ∧ s.acked = false ∧ s.keyframes = [s.base] ∧ s.acks = []
  receiver : ∀ r ∈ s.receiver, r.Inv cap s

namespace Session.Inv

variable {s : Session} {r : Receiver}

/-- The bound of `crowd` for a version the sender holds besides its base. -/
theorem crowd_of_mem_sent (h : s.Inv cap) (hk : k ∈ s.sent) (hne : k ≠ s.base) (F : Finset ℕ)
    (hF : ∀ j ∈ F, k < j ∧ ∃ d ∈ s.deltas, d.1 < k ∧ d.2 = j) : F.card + 2 ≤ cap := by
  have hlt : s.base < k := lt_of_le_of_ne (h.base_le_sent k hk) hne.symm
  -- The versions of `F`, `k` and the base are all held.
  have hsub : insert s.base (insert k F) ⊆ s.sent := by
    intro j hj
    rcases Finset.mem_insert.1 hj with rfl | hj
    · exact h.base_mem
    rcases Finset.mem_insert.1 hj with rfl | hj
    · exact hk
    obtain ⟨hkj, d, hd, -, rfl⟩ := hF j hj
    exact h.sent_upward k hk hne d hd hkj.le
  have hkF : k ∉ F := fun hmem => lt_irrefl _ (hF k hmem).1
  have hbF : s.base ∉ insert k F := by
    intro hmem
    rcases Finset.mem_insert.1 hmem with heq | hmem
    · exact hne heq.symm
    · exact absurd (hF _ hmem).1 (by omega)
  have hcard := Finset.card_le_card hsub
  rw [Finset.card_insert_of_notMem hbF, Finset.card_insert_of_notMem hkF] at hcard
  exact hcard.trans h.sent_card

/-- A difference that would advance the receiver finds its base. -/
theorem base_mem_retained (h : s.Inv cap) (hr : s.receiver = some r) {d : ℕ × ℕ}
    (hd : d ∈ s.deltas) (hlt : r.current < d.2) : d.1 ∈ r.retained := by
  have hinv := h.receiver r hr
  rcases lt_trichotomy d.1 r.pinned with hbefore | heq | hafter
  · exact absurd (hinv.stale d hd hbefore) (by omega)
  · exact heq ▸ hinv.pinned_mem
  · exact hinv.held_delta d hd hlt hafter

theorem receiver_ne_none_of_acks (h : s.Inv cap) {acks : List ℕ} (hacks : s.acks = k :: acks) :
    s.receiver ≠ none := by
  intro hnone
  have hempty := (h.fresh hnone).2.2.2
  rw [hacks] at hempty
  cases hempty

theorem receiver_ne_none (h : s.Inv cap) (hacked : s.acked = true) : s.receiver ≠ none := by
  intro hnone
  have hfalse := (h.fresh hnone).2.1
  rw [hacked] at hfalse
  cases hfalse

end Session.Inv

theorem Session.inv_start (hcap : 2 ≤ cap) (base : ℕ) : (Session.start base).Inv cap where
  base_mem := Finset.mem_singleton_self base
  base_le_sent := by
    intro k hk
    exact (Finset.mem_singleton.1 hk).ge
  sent_card := by
    rw [Session.start, Finset.card_singleton]
    omega
  base_le_top := le_rfl
  delta_base_le := fun d hd => absurd hd (Set.notMem_empty d)
  delta_le_top := fun d hd => absurd hd (Set.notMem_empty d)
  delta_mono := fun d hd => absurd hd (Set.notMem_empty d)
  delta_le_base := fun _ d hd => absurd hd (Set.notMem_empty d)
  sent_upward := fun _ _ _ d hd => absurd hd (Set.notMem_empty d)
  crowd := by
    intro b _ F hF
    have hempty : F = ∅ := by
      refine Finset.eq_empty_of_forall_notMem fun j hj => ?_
      obtain ⟨-, d, hd, -⟩ := hF j hj
      exact Set.notMem_empty d hd
    rw [hempty, Finset.card_empty]
    omega
  keyframe_le := by
    intro k hk
    exact (List.mem_singleton.1 hk).le
  keyframe_covers := fun _ _ d hd => absurd hd (Set.notMem_empty d)
  fresh := fun _ => ⟨rfl, rfl, rfl, rfl⟩
  receiver := by
    intro r hr
    cases hr

/-! ## Preservation -/

section

variable {s : Session}

section

variable (h : s.Inv cap)

include h

theorem Session.inv_pend {t : ℕ} (hacked : s.acked = false) (ht : s.base ≤ t) :
    Session.Inv cap { s with top := t } :=
  { h with
    base_le_top := ht
    delta_le_top := fun d hd => (h.delta_le_base hacked d hd).trans ht
    receiver := fun r hr =>
      { h.receiver r hr with
        current_le_top := ((h.receiver r hr).current_le_base hacked).trans ht } }

theorem Session.inv_emit {t : ℕ} {sent : Finset ℕ} (hacked : s.acked = true)
    (ht : s.base < t) (htop : s.top ≤ t) (hsent : Evicts cap s.base (insert t s.sent) sent) :
    Session.Inv cap { s with top := t, sent := sent, deltas := insert (s.base, t) s.deltas } where
  base_mem := hsent.mem_keep (Finset.mem_insert_of_mem h.base_mem)
  base_le_sent := by
    intro k hk
    rcases Finset.mem_insert.1 (hsent.subset hk) with rfl | hk
    · exact ht.le
    · exact h.base_le_sent k hk
  sent_card := hsent.card_le
  base_le_top := ht.le
  delta_base_le := by
    rintro d (rfl | hd)
    · exact le_rfl
    · exact h.delta_base_le d hd
  delta_le_top := by
    rintro d (rfl | hd)
    · exact le_rfl
    · exact (h.delta_le_top d hd).trans htop
  delta_mono := by
    rintro d (rfl | hd) d' (rfl | hd') hlt
    · exact le_rfl
    · exact absurd (h.delta_base_le d' hd') (not_le.2 hlt)
    · exact (h.delta_le_top d hd).trans htop
    · exact h.delta_mono d hd d' hd' hlt
  delta_le_base := by
    intro hfalse
    rw [hacked] at hfalse
    cases hfalse
  sent_upward := by
    rintro k hk hne d hd hle
    have htarget : d.2 ∈ insert t s.sent := by
      rcases hd with rfl | hd
      · exact Finset.mem_insert_self _ _
      · rcases Finset.mem_insert.1 (hsent.subset hk) with rfl | hk
        · have heq : d.2 = k := le_antisymm ((h.delta_le_top d hd).trans htop) hle
          rw [heq]
          exact Finset.mem_insert_self _ _
        · exact Finset.mem_insert_of_mem (h.sent_upward k hk hne d hd hle)
    exact hsent.mem_of_le hk hne htarget hle
  crowd := by
    intro b hb F hF
    have hbase : b ≤ s.base := by
      rcases hb with rfl | ⟨d, rfl | hd, rfl⟩
      · exact le_rfl
      · exact le_rfl
      · exact h.delta_base_le d hd
    refine h.crowd b ?_ F fun j hj => ?_
    · rcases hb with rfl | ⟨d, rfl | hd, rfl⟩
      · exact .inl rfl
      · exact .inl rfl
      · exact .inr ⟨d, hd, rfl⟩
    · -- The new difference is from the base, which is not older than `b`.
      obtain ⟨hbj, d, rfl | hd, hlt, hdj⟩ := hF j hj
      · exact absurd hlt (not_lt.2 hbase)
      · exact ⟨hbj, d, hd, hlt, hdj⟩
  keyframe_le := h.keyframe_le
  keyframe_covers := by
    rintro k hk d (rfl | hd) hlt
    · exact absurd hlt (not_lt.2 (h.keyframe_le k hk))
    · exact h.keyframe_covers k hk d hd hlt
  fresh := fun hnone => absurd hnone (h.receiver_ne_none hacked)
  receiver := by
    intro r hr
    have hinv := h.receiver r hr
    exact { hinv with
      current_le_top := hinv.current_le_top.trans htop
      delta_base_le := by
        rintro d (rfl | hd)
        · exact hinv.base_le_current hacked
        · exact hinv.delta_base_le d hd
      origin := by
        intro k hk hlt
        obtain ⟨d, hd, hd'⟩ := hinv.origin k hk hlt
        exact ⟨d, .inr hd, hd'⟩
      stale := by
        rintro d (rfl | hd) hlt
        · exact absurd hlt (not_lt.2 hinv.pinned_le)
        · exact hinv.stale d hd hlt
      held_delta := by
        rintro d (rfl | hd) hlt hpinned
        · exact hinv.held_base hacked hpinned
        · exact hinv.held_delta d hd hlt hpinned
      held_ack := by
        intro k hk hmem hpinned
        rcases Finset.mem_insert.1 (hsent.subset hmem) with rfl | hmem
        · -- Only the current version can be acknowledged and be the newest.
          have hle := hinv.ack_le k hk
          have heq : k = r.current := le_antisymm hle (hinv.current_le_top.trans htop)
          rw [heq]
          exact hinv.current_mem
        · exact hinv.held_ack k hk hmem hpinned }

theorem Session.inv_rekey (hcap : 2 ≤ cap) {t : ℕ} (hacked : s.acked = true)
    (ht : s.base < t) (htop : s.top ≤ t) :
    Session.Inv cap { s with
      base := t, top := t, acked := false, sent := {t}, keyframes := s.keyframes ++ [t] } where
  base_mem := Finset.mem_singleton_self t
  base_le_sent := fun k hk => (Finset.mem_singleton.1 hk).ge
  sent_card := by
    rw [Finset.card_singleton]
    omega
  base_le_top := le_rfl
  delta_base_le := fun d hd => (h.delta_base_le d hd).trans ht.le
  delta_le_top := fun d hd => (h.delta_le_top d hd).trans htop
  delta_mono := h.delta_mono
  delta_le_base := fun _ d hd => (h.delta_le_top d hd).trans htop
  sent_upward := fun k hk hne => absurd (Finset.mem_singleton.1 hk) hne
  crowd := by
    intro b hb F hF
    rcases hb with rfl | hb
    · have hempty : F = ∅ := by
        refine Finset.eq_empty_of_forall_notMem fun j hj => ?_
        obtain ⟨hlt, d, hd, -, rfl⟩ := hF j hj
        exact absurd ((h.delta_le_top d hd).trans htop) (not_le.2 hlt)
      rw [hempty, Finset.card_empty]
      omega
    · exact h.crowd b (.inr hb) F hF
  keyframe_le := by
    intro k hk
    rcases List.mem_append.1 hk with hk | hk
    · exact (h.keyframe_le k hk).trans ht.le
    · exact (List.mem_singleton.1 hk).le
  keyframe_covers := by
    intro k hk d hd hlt
    rcases List.mem_append.1 hk with hk | hk
    · exact h.keyframe_covers k hk d hd hlt
    · rw [List.mem_singleton.1 hk]
      exact (h.delta_le_top d hd).trans htop
  fresh := fun hnone => absurd hnone (h.receiver_ne_none hacked)
  receiver := by
    intro r hr
    have hinv := h.receiver r hr
    exact { hinv with
      pinned_le := hinv.pinned_le.trans ht.le
      current_le_top := hinv.current_le_top.trans htop
      current_le_base := fun _ => hinv.current_le_top.trans htop
      base_le_current := nofun
      held_base := nofun
      held_ack := by
        intro k hk hmem _
        have heq : k = r.current :=
          le_antisymm (hinv.ack_le k hk)
            ((Finset.mem_singleton.1 hmem).symm ▸ hinv.current_le_top.trans htop)
        rw [heq]
        exact hinv.current_mem }

theorem Session.inv_resend (hacked : s.acked = true) (htop : s.top = s.base) :
    Session.Inv cap { s with acked := false, keyframes := s.keyframes ++ [s.base] } :=
  { h with
    delta_le_base := fun _ d hd => htop ▸ h.delta_le_top d hd
    keyframe_le := by
      exact List.forall_mem_append.2 ⟨h.keyframe_le, List.forall_mem_singleton.2 le_rfl⟩
    keyframe_covers := by
      intro k hk d hd hlt
      rcases List.mem_append.1 hk with hk | hk
      · exact h.keyframe_covers k hk d hd hlt
      · rw [List.mem_singleton.1 hk, ← htop]
        exact h.delta_le_top d hd
    fresh := fun hnone => absurd hnone (h.receiver_ne_none hacked)
    receiver := by
      intro r hr
      have hinv := h.receiver r hr
      exact { hinv with
        current_le_base := fun _ => htop ▸ hinv.current_le_top
        base_le_current := nofun
        held_base := nofun } }

theorem Session.inv_ackIgnored {acks : List ℕ} (hacks : s.acks = k :: acks) :
    Session.Inv cap { s with acks := acks } := by
  have hsub : ∀ j ∈ acks, j ∈ s.acks := fun j hj => hacks ▸ List.mem_cons_of_mem _ hj
  exact { h with
    fresh := fun hnone => absurd hnone (h.receiver_ne_none_of_acks hacks)
    receiver := fun r hr =>
      { h.receiver r hr with
        ack_le := fun j hj => (h.receiver r hr).ack_le j (hsub j hj)
        held_ack := fun j hj => (h.receiver r hr).held_ack j (hsub j hj) } }

theorem Session.inv_ackBase {acks : List ℕ} (hacks : s.acks = s.base :: acks) :
    Session.Inv cap { s with acked := true, acks := acks } := by
  have hmem : s.base ∈ s.acks := hacks ▸ List.mem_cons_self
  have h' := Session.inv_ackIgnored h hacks
  exact { h' with
    delta_le_base := nofun
    fresh := fun hnone => absurd hnone (h.receiver_ne_none_of_acks hacks)
    receiver := fun r hr =>
      { h'.receiver r hr with
        current_le_base := nofun
        base_le_current := fun _ => (h.receiver r hr).ack_le _ hmem
        held_base := fun _ => (h.receiver r hr).held_ack _ hmem h.base_mem } }

theorem Session.inv_ackSent {acks : List ℕ} (hacks : s.acks = k :: acks)
    (hk : s.base < k) (hmem : k ∈ s.sent) :
    Session.Inv cap { s with
      base := k, top := max k s.top, acked := true, sent := s.sent.filter (k ≤ ·), acks :=
        acks } := by
  have hack : k ∈ s.acks := hacks ▸ List.mem_cons_self
  have hsub : ∀ j ∈ acks, j ∈ s.acks := fun j hj => hacks ▸ List.mem_cons_of_mem _ hj
  exact {
    base_mem := Finset.mem_filter.2 ⟨hmem, le_rfl⟩
    base_le_sent := fun j hj => (Finset.mem_filter.1 hj).2
    sent_card := (Finset.card_filter_le _ _).trans h.sent_card
    base_le_top := le_max_left _ _
    delta_base_le := fun d hd => (h.delta_base_le d hd).trans hk.le
    delta_le_top := fun d hd => (h.delta_le_top d hd).trans (le_max_right _ _)
    delta_mono := h.delta_mono
    delta_le_base := nofun
    sent_upward := by
      intro j hj _ d hd hle
      obtain ⟨hj, hkj⟩ := Finset.mem_filter.1 hj
      have hne : j ≠ s.base := (hk.trans_le hkj).ne'
      exact Finset.mem_filter.2 ⟨h.sent_upward j hj hne d hd hle, hkj.trans hle⟩
    crowd := by
      intro b hb F hF
      rcases hb with rfl | hb
      · exact h.crowd_of_mem_sent hmem hk.ne' F hF
      · exact h.crowd b (.inr hb) F hF
    keyframe_le := fun j hj => (h.keyframe_le j hj).trans hk.le
    keyframe_covers := h.keyframe_covers
    fresh := fun hnone => absurd hnone (h.receiver_ne_none_of_acks hacks)
    receiver := by
      intro r hr
      have hinv := h.receiver r hr
      exact { hinv with
        pinned_le := hinv.pinned_le.trans hk.le
        current_le_top := hinv.current_le_top.trans (le_max_right _ _)
        current_le_base := nofun
        base_le_current := fun _ => hinv.ack_le k hack
        ack_le := fun j hj => hinv.ack_le j (hsub j hj)
        held_base := fun _ hlt => hinv.held_ack k hack hmem hlt
        held_ack := fun j hj hj' hlt =>
          hinv.held_ack j (hsub j hj) (Finset.mem_filter.1 hj').1 hlt } }

theorem Session.inv_first (hcap : 2 ≤ cap) {keyframes : List ℕ}
    (hnone : s.receiver = none) (hkeyframes : s.keyframes = k :: keyframes) :
    Session.Inv cap { s with
      keyframes := keyframes, acks := s.acks ++ [k], receiver := some ⟨k, k, {k}⟩ } := by
  obtain ⟨hdeltas, hacked, hone, hacks⟩ := h.fresh hnone
  rw [hone] at hkeyframes
  obtain ⟨rfl, rfl⟩ : s.base = k ∧ keyframes = [] := by simpa using hkeyframes
  have hnodelta : ∀ d, d ∉ s.deltas := fun d hd => Set.notMem_empty d (hdeltas ▸ hd)
  exact { h with
    keyframe_le := fun j hj => absurd hj List.not_mem_nil
    keyframe_covers := fun j hj => absurd hj List.not_mem_nil
    fresh := nofun
    receiver := by
      intro r hr
      cases hr
      exact {
        current_mem := Finset.mem_singleton_self _
        pinned_mem := Finset.mem_singleton_self _
        retained_le := fun j hj => (Finset.mem_singleton.1 hj).le
        card_le := by
          rw [Finset.card_singleton]
          omega
        pinned_le := le_rfl
        current_le_top := h.base_le_top
        current_le_base := fun _ => le_rfl
        base_le_current := fun _ => le_rfl
        delta_base_le := fun d hd => absurd hd (hnodelta d)
        ack_le := by
          intro j hj
          rw [hacks] at hj
          exact (List.mem_singleton.1 hj).le
        origin := fun j hj hlt => absurd (Finset.mem_singleton.1 hj) hlt.ne'
        stale := fun d hd => absurd hd (hnodelta d)
        held_delta := fun d hd => absurd hd (hnodelta d)
        held_base := fun _ hlt => absurd hlt (lt_irrefl _)
        held_ack := by
          intro j hj _ hlt
          rw [hacks] at hj
          exact absurd (List.mem_singleton.1 hj) hlt.ne' } }

theorem Session.inv_staleKeyframe {r : Receiver} {keyframes : List ℕ}
    (hr : s.receiver = some r) (hkeyframes : s.keyframes = k :: keyframes) :
    Session.Inv cap { s with keyframes := keyframes, acks := s.acks ++ [r.current] } := by
  have hsub : ∀ j ∈ keyframes, j ∈ s.keyframes := fun j hj =>
    hkeyframes ▸ List.mem_cons_of_mem _ hj
  exact { h with
    keyframe_le := fun j hj => h.keyframe_le j (hsub j hj)
    keyframe_covers := fun j hj => h.keyframe_covers j (hsub j hj)
    fresh := fun hnone => absurd (hr.symm.trans hnone) (by simp)
    receiver := by
      intro r' hr'
      obtain rfl : r = r' := Option.some.inj (hr.symm.trans hr')
      have hinv := h.receiver r hr
      exact { hinv with
        ack_le := by
          exact List.forall_mem_append.2 ⟨hinv.ack_le, List.forall_mem_singleton.2 le_rfl⟩
        held_ack := by
          intro j hj hmem hlt
          rcases List.mem_append.1 hj with hj | hj
          · exact hinv.held_ack j hj hmem hlt
          · rw [List.mem_singleton.1 hj]
            exact hinv.current_mem } }

theorem Session.inv_keyframe {r : Receiver} {keyframes : List ℕ}
    {retained : Finset ℕ} (hr : s.receiver = some r) (hkeyframes : s.keyframes = k :: keyframes)
    (hk : r.current < k) (hretained : Evicts cap k (insert k r.retained) retained) :
    Session.Inv cap { s with
      keyframes := keyframes, acks := s.acks ++ [k], receiver := some ⟨k, k, retained⟩ } := by
  have hsub : ∀ j ∈ keyframes, j ∈ s.keyframes := fun j hj =>
    hkeyframes ▸ List.mem_cons_of_mem _ hj
  have hmem : k ∈ s.keyframes := hkeyframes ▸ List.mem_cons_self
  have hinv := h.receiver r hr
  have hle := h.keyframe_le k hmem
  have hretained_le : ∀ j ∈ retained, j ≤ k := by
    intro j hj
    rcases Finset.mem_insert.1 (hretained.subset hj) with rfl | hj
    · exact le_rfl
    · exact (hinv.retained_le j hj).trans hk.le
  have hack_le : ∀ j ∈ s.acks ++ [k], j ≤ k := by
    intro j hj
    rcases List.mem_append.1 hj with hj | hj
    · exact (hinv.ack_le j hj).trans hk.le
    · exact (List.mem_singleton.1 hj).le
  exact { h with
    keyframe_le := fun j hj => h.keyframe_le j (hsub j hj)
    keyframe_covers := fun j hj => h.keyframe_covers j (hsub j hj)
    fresh := nofun
    receiver := by
      intro r' hr'
      cases hr'
      exact {
        current_mem := hretained.mem_keep (Finset.mem_insert_self _ _)
        pinned_mem := hretained.mem_keep (Finset.mem_insert_self _ _)
        retained_le := hretained_le
        card_le := hretained.card_le
        pinned_le := hle
        current_le_top := hle.trans h.base_le_top
        current_le_base := fun _ => hle
        base_le_current := fun hacked => (hinv.base_le_current hacked).trans hk.le
        delta_base_le := fun d hd => (hinv.delta_base_le d hd).trans hk.le
        ack_le := hack_le
        origin := fun j hj hlt => absurd (hretained_le j hj) (not_le.2 hlt)
        stale := h.keyframe_covers k hmem
        held_delta := fun d hd _ hlt =>
          absurd (hinv.delta_base_le d hd) (not_le.2 (hk.trans hlt))
        held_base := fun hacked hlt =>
          absurd (hinv.base_le_current hacked) (not_le.2 (hk.trans hlt))
        held_ack := fun j hj _ hlt => absurd (hack_le j hj) (not_le.2 hlt) } }

/-- A base newer than the one just built on survives: its newer versions are few. -/
theorem Session.Inv.mem_retained_of_crowd {r : Receiver} {b t : ℕ}
    {retained : Finset ℕ} (hr : s.receiver = some r) (hmem : (b, t) ∈ s.deltas)
    (hpinned : r.pinned ≤ b) (hretained : Evicts cap b (insert t r.retained) retained)
    (hk : k ∈ r.retained) (hlt : b < k)
    (hcrowd : ∀ F : Finset ℕ, (∀ j ∈ F, k < j ∧ ∃ d ∈ s.deltas, d.1 < k ∧ d.2 = j) →
      F.card + 2 ≤ cap) : k ∈ retained := by
  refine hretained.mem_of_newer (Finset.mem_insert_of_mem hk) (hcrowd _ fun j hj => ?_)
  obtain ⟨hj, hkj⟩ := Finset.mem_filter.1 hj
  refine ⟨hkj, ?_⟩
  rcases Finset.mem_insert.1 hj with rfl | hj
  · exact ⟨(b, j), hmem, hlt, rfl⟩
  · have hnewer : r.pinned < j := hpinned.trans_lt (hlt.trans hkj)
    obtain ⟨d, hd, hdp, hdj⟩ := (h.receiver r hr).origin j hj hnewer
    exact ⟨d, hd, (hdp.trans hpinned).trans_lt hlt, hdj⟩

theorem Session.inv_delta (hcap : 2 ≤ cap) {r : Receiver} {b t : ℕ} {retained : Finset ℕ}
    (hr : s.receiver = some r) (hmem : (b, t) ∈ s.deltas) (ht : r.current < t) (hb : b ∈ r.retained)
    (hretained : Evicts cap b (insert t r.retained) retained) :
    Session.Inv cap { s with acks := s.acks ++ [t], receiver := some ⟨t, b, retained⟩ } := by
  have hinv := h.receiver r hr
  have hpinned : r.pinned ≤ b := by
    by_contra hlt
    exact absurd (hinv.stale _ hmem (not_le.1 hlt)) (not_le.2 ht)
  have hold_le : ∀ j ∈ insert t r.retained, j ≤ t := by
    intro j hj
    rcases Finset.mem_insert.1 hj with rfl | hj
    · exact le_rfl
    · exact (hinv.retained_le j hj).trans ht.le
  have hcurrent : t ∈ retained := by
    refine hretained.mem_of_newer (Finset.mem_insert_self _ _) ?_
    have hempty : (insert t r.retained).filter (fun j => t < j) = ∅ :=
      Finset.filter_eq_empty_iff.2 fun j hj => not_lt.2 (hold_le j hj)
    rw [hempty, Finset.card_empty]
    omega
  exact { h with
    fresh := nofun
    receiver := by
      intro r' hr'
      cases hr'
      exact {
        current_mem := hcurrent
        pinned_mem := hretained.mem_keep (Finset.mem_insert_of_mem hb)
        retained_le := fun j hj => hold_le j (hretained.subset hj)
        card_le := hretained.card_le
        pinned_le := h.delta_base_le _ hmem
        current_le_top := h.delta_le_top _ hmem
        current_le_base := fun hacked => h.delta_le_base hacked _ hmem
        base_le_current := fun hacked => (hinv.base_le_current hacked).trans ht.le
        delta_base_le := fun d hd => (hinv.delta_base_le d hd).trans ht.le
        ack_le := by
          intro j hj
          rcases List.mem_append.1 hj with hj | hj
          · exact (hinv.ack_le j hj).trans ht.le
          · exact (List.mem_singleton.1 hj).le
        origin := by
          intro j hj hlt
          rcases Finset.mem_insert.1 (hretained.subset hj) with rfl | hj
          · exact ⟨(b, j), hmem, le_rfl, rfl⟩
          · obtain ⟨d, hd, hdp, hdj⟩ := hinv.origin j hj (hpinned.trans_lt hlt)
            exact ⟨d, hd, hdp.trans hpinned, hdj⟩
        stale := fun d hd hlt => h.delta_mono d hd _ hmem hlt
        held_delta := by
          intro d hd hlt hpd
          refine h.mem_retained_of_crowd hr hmem hpinned hretained ?_ hpd
            (h.crowd d.1 (.inr ⟨d, hd, rfl⟩))
          exact hinv.held_delta d hd (ht.trans hlt) (hpinned.trans_lt hpd)
        held_base := by
          intro hacked hpd
          refine h.mem_retained_of_crowd hr hmem hpinned hretained ?_ hpd
            (h.crowd s.base (.inl rfl))
          exact hinv.held_base hacked (hpinned.trans_lt hpd)
        held_ack := by
          intro j hj hsent hpd
          rcases List.mem_append.1 hj with hj | hj
          · refine h.mem_retained_of_crowd hr hmem hpinned hretained ?_ hpd ?_
            · exact hinv.held_ack j hj hsent (hpinned.trans_lt hpd)
            · by_cases hbase : j = s.base
              · exact h.crowd j (.inl hbase)
              · exact h.crowd_of_mem_sent hsent hbase
          · rw [List.mem_singleton.1 hj]
            exact hcurrent } }

end

end

end AstraShell.Lib.Cumulative
