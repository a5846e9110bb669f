import Mathlib.Data.List.Basic
import Mathlib.Data.List.GetD
import Mathlib.Order.Filter.AtTopBot.Basic

/-!
# Progress along infinite runs

A run is observed at the times `0, 1, 2, …`, and a property of its states is a predicate on times.
`P` leads to `Q` when `Q` holds at or after every time at which `P` holds. The rules derive this
from facts about single steps and from a fairness hypothesis, which says that a helpful event is
never put off for ever: by a measure that helpful events decrease (`leadsTo_of_variant`), and for a
member of a first-in first-out queue (`leadsTo_of_queue`).

A schedule of actions drives a system whose actions may fail (`run`); a failed action changes
nothing. "Infinitely often" and "from some time on" are `∃ᶠ n in atTop` and `∀ᶠ n in atTop`.
-/

set_option autoImplicit false

namespace AstraShell.Lib.Temporal

open Filter

variable {P Q R : ℕ → Prop}

/-- Whenever `P` holds, `Q` holds then or later. -/
def LeadsTo (P Q : ℕ → Prop) : Prop := ∀ n, P n → ∃ m, n ≤ m ∧ Q m

theorem LeadsTo.trans (hPQ : LeadsTo P Q) (hQR : LeadsTo Q R) : LeadsTo P R := by
  intro n hn
  obtain ⟨m, hnm, hm⟩ := hPQ n hn
  obtain ⟨k, hmk, hk⟩ := hQR m hm
  exact ⟨k, hnm.trans hmk, hk⟩

/-- What leads to something does so from any time on. -/
theorem LeadsTo.from (h : LeadsTo P Q) (k : ℕ) :
    LeadsTo (fun n => P (k + n)) (fun n => Q (k + n)) := by
  intro n hn
  obtain ⟨m, hnm, hm⟩ := h (k + n) hn
  have hsplit : k + (m - k) = m := by omega
  refine ⟨m - k, by omega, ?_⟩
  dsimp only
  rw [hsplit]
  exact hm

/-- A property that holds at some time and is kept by every step holds from some time on. -/
theorem eventually_of_stable (h : ∃ n, P n) (hstep : ∀ n, P n → P (n + 1)) :
    ∀ᶠ n in atTop, P n := by
  obtain ⟨n, hn⟩ := h
  refine eventually_atTop.2 ⟨n, fun m hm => ?_⟩
  induction m, hm using Nat.le_induction with
  | base => exact hn
  | succ m _ ih => exact hstep m ih

/-- Until `Q` is reached, `P` holds and the measure does not grow. -/
theorem reached_or_kept {f : ℕ → ℕ} (hstep : ∀ n, P n → Q (n + 1) ∨ P (n + 1) ∧ f (n + 1) ≤ f n)
    {n : ℕ} (hn : P n) (m : ℕ) (hm : n ≤ m) : (∃ k, n ≤ k ∧ Q k) ∨ P m ∧ f m ≤ f n := by
  induction m, hm using Nat.le_induction with
  | base => exact .inr ⟨hn, le_rfl⟩
  | succ m hnm ih =>
    rcases ih with hreached | ⟨hP, hle⟩
    · exact .inl hreached
    · rcases hstep m hP with hQ | ⟨hP', hle'⟩
      · exact .inl ⟨m + 1, by omega, hQ⟩
      · exact .inr ⟨hP', hle'.trans hle⟩

/-- Steps reach `Q` or keep `P` without growing the measure; the steps that help at its present
value come, and reach `Q` or decrease it. -/
theorem leadsTo_of_phases (f : ℕ → ℕ) (helpful : ℕ → ℕ → Prop)
    (hstep : ∀ n, P n → Q (n + 1) ∨ P (n + 1) ∧ f (n + 1) ≤ f n)
    (hfair : ∀ n, P n → ∃ m, n ≤ m ∧ helpful (f n) m)
    (hhelp : ∀ n, P n → helpful (f n) n → Q (n + 1) ∨ f (n + 1) < f n) : LeadsTo P Q := by
  intro n hn
  -- By induction on the measure at `n`.
  induction hk : f n using Nat.strong_induction_on generalizing n with
  | _ k ih =>
    obtain ⟨m, hnm, hm⟩ := hfair n hn
    rcases reached_or_kept hstep hn m hnm with hreached | ⟨hP, hle⟩
    · exact hreached
    rcases hle.lt_or_eq with hlt | heq
    · obtain ⟨j, hj, hQ⟩ := ih (f m) (by omega) m hP rfl
      exact ⟨j, by omega, hQ⟩
    rcases hstep m hP with hQ | ⟨hP', -⟩
    · exact ⟨m + 1, by omega, hQ⟩
    rcases hhelp m hP (heq ▸ hm) with hQ | hlt
    · exact ⟨m + 1, by omega, hQ⟩
    · obtain ⟨j, hj, hQ⟩ := ih (f (m + 1)) (by omega) (m + 1) hP' rfl
      exact ⟨j, by omega, hQ⟩

/-- The helpful steps are the same at every value of the measure. -/
theorem leadsTo_of_variant (f : ℕ → ℕ) (helpful : ℕ → Prop)
    (hstep : ∀ n, P n → Q (n + 1) ∨ P (n + 1) ∧ f (n + 1) ≤ f n)
    (hfair : ∀ n, P n → ∃ m, n ≤ m ∧ helpful m)
    (hhelp : ∀ n, P n → helpful n → Q (n + 1) ∨ P (n + 1) ∧ f (n + 1) < f n) : LeadsTo P Q :=
  leadsTo_of_phases f (fun _ => helpful) hstep hfair fun n hn hm =>
    (hhelp n hn hm).imp_right And.right

/-- `P` is kept until a helpful step, which comes, reaches `Q`. -/
theorem leadsTo_of_helpful (helpful : ℕ → Prop)
    (hstep : ∀ n, P n → ¬ helpful n → Q (n + 1) ∨ P (n + 1))
    (hfair : ∀ n, P n → ∃ m, n ≤ m ∧ helpful m) (hhelp : ∀ n, P n → helpful n → Q (n + 1)) :
    LeadsTo P Q := by
  refine leadsTo_of_variant (fun _ => 0) helpful (fun n hn => ?_) hfair
    fun n hn hm => .inl (hhelp n hn hm)
  by_cases hm : helpful n
  · exact .inl (hhelp n hn hm)
  · exact (hstep n hn hm).imp_right fun h => ⟨h, le_rfl⟩

/-- `P` is kept until `Q` is reached, and does not hold for ever. -/
theorem leadsTo_of_escape (hstep : ∀ n, P n → Q (n + 1) ∨ P (n + 1))
    (hescape : ∀ n, P n → ∃ m, n ≤ m ∧ ¬ P m) : LeadsTo P Q := by
  intro n hn
  obtain ⟨m, hnm, hm⟩ := hescape n hn
  have hkept := reached_or_kept (f := fun _ => 0)
    (fun k hk => (hstep k hk).imp_right fun h => ⟨h, le_rfl⟩) hn m hnm
  exact hkept.resolve_right fun h => hm h.1

/-! ## Schedules -/

section

universe u

variable {σ α : Type*} {ε : Type u}

/-- The state after an action; an action that fails changes nothing. -/
def attempt (step : σ → α → Except ε σ) (s : σ) (a : α) : σ :=
  match step s a with
  | .ok s' => s'
  | .error _ => s

/-- The state at each time of a schedule of actions. -/
def run (next : σ → α → σ) (s : σ) (act : ℕ → α) : ℕ → σ
  | 0 => s
  | n + 1 => next (run next s act n) (act n)

variable {step : σ → α → Except ε σ} {next : σ → α → σ} {s s' : σ} {a : α} {act : ℕ → α}

theorem attempt_of_ok (h : step s a = .ok s') : attempt step s a = s' := by
  rw [attempt, h]

theorem attempt_cases (step : σ → α → Except ε σ) (s : σ) (a : α) :
    step s a = .ok (attempt step s a) ∨ attempt step s a = s := by
  rw [attempt]
  cases step s a with
  | ok s' => exact .inl rfl
  | error e => exact .inr rfl

/-- What every action of the schedule keeps holds at every time. -/
theorem run_invariant {I : σ → Prop} (h : I s)
    (hstep : ∀ n, I (run next s act n) → I (next (run next s act n) (act n))) (n : ℕ) :
    I (run next s act n) := by
  induction n with
  | zero => exact h
  | succ n ih => exact hstep n ih

/-- A run goes on from each of its states by the rest of the schedule. -/
theorem run_add (next : σ → α → σ) (s : σ) (act : ℕ → α) (k n : ℕ) :
    run next s act (k + n) = run next (run next s act k) (fun m => act (k + m)) n := by
  induction n with
  | zero => rfl
  | succ n ih =>
    rw [← Nat.add_assoc, run, ih]
    rfl

/-- A state that every later action leaves alone is the state from then on. -/
theorem run_of_fixed {k : ℕ} (h : ∀ n, k ≤ n → next (run next s act k) (act n) = run next s act k)
    {n : ℕ} (hn : k ≤ n) : run next s act n = run next s act k := by
  induction n, hn using Nat.le_induction with
  | base => rfl
  | succ n hkn ih =>
    rw [run, ih]
    exact h n hkn

/-- What every successful action of the schedule keeps holds at every time. -/
theorem run_attempt_invariant {I : σ → Prop} (h : I s)
    (hstep : ∀ n s', I (run (attempt step) s act n) →
      step (run (attempt step) s act n) (act n) = .ok s' → I s')
    (n : ℕ) : I (run (attempt step) s act n) := by
  refine run_invariant h (fun n hn => ?_) n
  rcases attempt_cases step (run (attempt step) s act n) (act n) with hok | hsame
  · exact hstep n _ hn hok
  · rw [hsame]
    exact hn

end

/-! ## Queues -/

/-- From `queue` to `queue'` members are added at the end. -/
def Grows {α : Type*} (queue queue' : List α) : Prop := ∃ more, queue' = queue ++ more

/-- From `queue` to `queue'` the first member is removed. -/
def Pops {α : Type*} (head : α) (queue queue' : List α) : Prop := queue = head :: queue'

/-- A queue that is served again and again loses its head. -/
theorem pops_of_serve {α : Type*} (queue : ℕ → List α) (serve : ℕ → Prop)
    (hqueue : ∀ n, Grows (queue n) (queue (n + 1)) ∨ ∃ head, Pops head (queue n) (queue (n + 1)))
    (hfair : ∀ n, queue n ≠ [] → ∃ m, n ≤ m ∧ serve m)
    (hserve : ∀ n, queue n ≠ [] → serve n → ∃ head, Pops head (queue n) (queue (n + 1))) {n : ℕ}
    (hn : queue n ≠ []) : ∃ m, n ≤ m ∧ ∃ head, Pops head (queue m) (queue (m + 1)) := by
  obtain ⟨k, hnk, hk⟩ := hfair n hn
  -- Until then the queue only grows, or has lost its head before.
  have hkept : (∃ m, n ≤ m ∧ ∃ head, Pops head (queue m) (queue (m + 1))) ∨ queue k ≠ [] := by
    clear hk
    induction k, hnk using Nat.le_induction with
    | base => exact .inr hn
    | succ k hnk ih =>
      rcases ih with hpopped | hne
      · exact .inl hpopped
      · rcases hqueue k with ⟨more, hmore⟩ | hpops
        · refine .inr fun hnil => hne ?_
          rw [hmore] at hnil
          exact (List.append_eq_nil_iff.1 hnil).1
        · exact .inl ⟨k, hnk, hpops⟩
  rcases hkept with hpopped | hne
  · exact hpopped
  · exact ⟨k, hnk, hserve k hne hk⟩

/-- While `P` holds a member `x` of the queue comes to its turn: the queue is served again and
again, and serving `x` reaches `Q`. -/
theorem leadsTo_of_queue {α : Type*} [DecidableEq α] (queue : ℕ → List α) (x : α)
    (serve : ℕ → Prop)
    (hkeep : ∀ n, P n → x ∈ queue n → Q (n + 1) ∨ P (n + 1))
    (hqueue : ∀ n, P n → x ∈ queue n → Grows (queue n) (queue (n + 1)) ∨
      ∃ head, Pops head (queue n) (queue (n + 1)) ∧ (head = x → Q (n + 1)))
    (hfair : ∀ n, queue n ≠ [] → ∃ m, n ≤ m ∧ serve m)
    (hserve : ∀ n, P n → x ∈ queue n → serve n → ∃ head, Pops head (queue n) (queue (n + 1))) :
    LeadsTo (fun n => P n ∧ x ∈ queue n) Q := by
  -- The measure is the number of members before `x`.
  have hgrow : ∀ n, x ∈ queue n → Grows (queue n) (queue (n + 1)) →
      x ∈ queue (n + 1) ∧ (queue (n + 1)).idxOf x ≤ (queue n).idxOf x := by
    rintro n hx ⟨more, hmore⟩
    rw [hmore]
    exact ⟨List.mem_append_left _ hx, (List.idxOf_append_of_mem hx).le⟩
  have hpop : ∀ n head, x ∈ queue n → Pops head (queue n) (queue (n + 1)) → head ≠ x →
      x ∈ queue (n + 1) ∧ (queue (n + 1)).idxOf x < (queue n).idxOf x := by
    intro n head hx hpops hne
    rw [hpops] at hx ⊢
    refine ⟨(List.mem_cons.1 hx).resolve_left hne.symm, ?_⟩
    rw [List.idxOf_cons_ne _ hne]
    exact Nat.lt_succ_self _
  refine leadsTo_of_variant (fun n => (queue n).idxOf x) serve ?_ ?_ ?_
  · rintro n ⟨hP, hx⟩
    rcases hkeep n hP hx with hQ | hP'
    · exact .inl hQ
    rcases hqueue n hP hx with hgrows | ⟨head, hpops, hQ⟩
    · obtain ⟨hx', hle⟩ := hgrow n hx hgrows
      exact .inr ⟨⟨hP', hx'⟩, hle⟩
    · by_cases hhead : head = x
      · exact .inl (hQ hhead)
      · obtain ⟨hx', hlt⟩ := hpop n head hx hpops hhead
        exact .inr ⟨⟨hP', hx'⟩, hlt.le⟩
  · rintro n ⟨-, hx⟩
    exact hfair n (List.ne_nil_of_mem hx)
  · rintro n ⟨hP, hx⟩ hm
    rcases hkeep n hP hx with hQ | hP'
    · exact .inl hQ
    obtain ⟨head, hpops⟩ := hserve n hP hx hm
    rcases hqueue n hP hx with ⟨more, hmore⟩ | ⟨head', hpops', hQ⟩
    · -- A queue that loses its head does not grow.
      have hlength := congrArg List.length hpops
      rw [hmore, List.length_cons, List.length_append] at hlength
      omega
    · by_cases hhead : head' = x
      · exact .inl (hQ hhead)
      · obtain ⟨hx', hlt⟩ := hpop n head' hx hpops' hhead
        exact .inr ⟨⟨hP', hx'⟩, hlt⟩

end AstraShell.Lib.Temporal
