import AstraShell.Lib.Temporal
import Mathlib.Data.List.Nodup
import Mathlib.Logic.Function.Basic

/-!
# Threads and mutexes

Threads run straight-line programs of three kinds of instruction: take a mutex, give it back, or
work on shared data. A mutex is granted in the order of requests. Work may replace the rest of the
program of its thread, and it may block.

A mutex has a rank, and a program takes mutexes in the order of their ranks and gives them back in
the opposite order (`Ordered`). `FairRun.finishes`: when every thread gets its turn again and again
and no work blocks for ever, every program comes to its end. The argument goes down the ranks:
whoever holds a mutex waits only for mutexes of higher rank.
-/

set_option autoImplicit false

namespace AstraShell.Lib.Locks

open Temporal Function

variable {σ T M I E : Type*} [DecidableEq T] [DecidableEq M]

inductive Instr (M I : Type*) where
  | lock (mutex : M)
  | unlock (mutex : M)
  | work (task : I)
  deriving DecidableEq

/-- What a thread still has to do. -/
abbrev Program (M I : Type*) := List (Instr M I)

/-- What work does to the shared data and to the program of its thread, or that it blocks; and what
the surroundings do to the data. -/
structure Machine (σ M I E : Type*) where
  exec : σ → I → Program M I → Option (σ × Program M I)
  outside : σ → E → σ

structure State (σ T M I : Type*) where
  data : σ
  rest : T → Program M I
  holder : M → Option T
  /-- The threads that wait for a mutex, in the order of their requests. -/
  queue : M → List T

inductive Event (T M I E : Type*) where
  /-- A thread without a program is given one. -/
  | spawn (t : T) (program : Program M I)
  /-- A thread has its turn. -/
  | run (t : T)
  | outside (e : E)

namespace State

/-- The turn of a thread. At a mutex it first joins the queue, and then waits until it is the first
there and the mutex is free. -/
def turn (machine : Machine σ M I E) (s : State σ T M I) (t : T) : State σ T M I :=
  match s.rest t with
  | [] => s
  | .lock m :: rest =>
    if t ∈ s.queue m then
      if s.holder m = none ∧ (s.queue m).head? = some t then
        { s with
          rest := Function.update s.rest t rest
          holder := Function.update s.holder m (some t)
          queue := Function.update s.queue m (s.queue m).tail }
      else s
    else { s with queue := Function.update s.queue m (s.queue m ++ [t]) }
  | .unlock m :: rest =>
    { s with
      rest := Function.update s.rest t rest
      holder := Function.update s.holder m none }
  | .work i :: rest =>
    match machine.exec s.data i rest with
    | none => s
    | some (data, rest) => { s with data := data, rest := Function.update s.rest t rest }

def step (machine : Machine σ M I E) (s : State σ T M I) : Event T M I E → State σ T M I
  | .spawn t program =>
    if (s.rest t).isEmpty then { s with rest := Function.update s.rest t program } else s
  | .run t => s.turn machine t
  | .outside e => { s with data := machine.outside s.data e }

end State

/-! ## Programs -/

/-- The mutexes a thread holds when `program` is what it still has to do: those it gives back
without taking them first, the last taken first. -/
def pending : Program M I → List M
  | [] => []
  | .lock _ :: rest => (pending rest).tail
  | .unlock m :: rest => m :: pending rest
  | .work _ :: rest => pending rest

/-- Mutexes are taken in the order of their ranks and given back in the opposite order. -/
def Ordered (rank : M → ℕ) : Program M I → Prop
  | [] => True
  | .lock m :: rest =>
    (pending rest).head? = some m ∧ (∀ held ∈ (pending rest).tail, rank held < rank m) ∧
      Ordered rank rest
  | .unlock m :: rest => m ∉ pending rest ∧ Ordered rank rest
  | .work _ :: rest => Ordered rank rest

omit [DecidableEq M] in
/-- What is left of an ordered program is ordered. -/
theorem Ordered.of_suffix {rank : M → ℕ} {program rest : Program M I} (hsuffix : rest <:+ program)
    (h : Ordered rank program) : Ordered rank rest := by
  obtain ⟨done, rfl⟩ := hsuffix
  induction done with
  | nil => exact h
  | cons i done ih =>
    apply ih
    cases i with
    | lock m => exact h.2.2
    | unlock m => exact h.2
    | work i => exact h

/-- The programs in `legal` are ordered, and running one leaves one. -/
structure Discipline (machine : Machine σ M I E) (rank : M → ℕ) (legal : Program M I → Prop) :
    Prop where
  ordered : ∀ program, legal program → Ordered rank program
  nil : legal []
  lock : ∀ m rest, legal (.lock m :: rest) → legal rest
  unlock : ∀ m rest, legal (.unlock m :: rest) → legal rest
  work : ∀ data data' i rest rest', legal (.work i :: rest) →
    machine.exec data i rest = some (data', rest') → legal rest' ∧ pending rest' = pending rest

/-! ## What a step can do -/

section Steps

variable {machine : Machine σ M I E} {s s' : State σ T M I} {event : Event T M I E}

/-- Everything a step can do. -/
inductive Steps (machine : Machine σ M I E) (s : State σ T M I) :
    Event T M I E → State σ T M I → Prop
  | idle (event : Event T M I E) : Steps machine s event s
  | spawn (t : T) (program : Program M I) (hrest : s.rest t = []) :
      Steps machine s (.spawn t program) { s with rest := Function.update s.rest t program }
  | outside (e : E) : Steps machine s (.outside e) { s with data := machine.outside s.data e }
  | join (t : T) (m : M) (rest : Program M I) (hrest : s.rest t = .lock m :: rest)
      (hnew : t ∉ s.queue m) :
      Steps machine s (.run t) { s with queue := Function.update s.queue m (s.queue m ++ [t]) }
  | grant (t : T) (m : M) (rest : Program M I) (waiting : List T)
      (hrest : s.rest t = .lock m :: rest) (hfree : s.holder m = none)
      (hqueue : s.queue m = t :: waiting) :
      Steps machine s (.run t)
        { s with
          rest := Function.update s.rest t rest
          holder := Function.update s.holder m (some t)
          queue := Function.update s.queue m waiting }
  | unlock (t : T) (m : M) (rest : Program M I) (hrest : s.rest t = .unlock m :: rest) :
      Steps machine s (.run t)
        { s with
          rest := Function.update s.rest t rest
          holder := Function.update s.holder m none }
  | work (t : T) (i : I) (rest rest' : Program M I) (data : σ)
      (hrest : s.rest t = .work i :: rest)
      (hexec : machine.exec s.data i rest = some (data, rest')) :
      Steps machine s (.run t) { s with data := data, rest := Function.update s.rest t rest' }

theorem step_cases (machine : Machine σ M I E) (s : State σ T M I) (event : Event T M I E) :
    Steps machine s event (s.step machine event) := by
  cases event with
  | spawn t program =>
    rw [State.step]
    split
    next hempty => exact .spawn t program (List.isEmpty_iff.1 hempty)
    · exact .idle _
  | outside e => exact .outside e
  | run t =>
    rw [State.step, State.turn]
    split
    · exact .idle _
    next m rest hrest =>
      split_ifs with hmem hgrant
      · obtain ⟨waiting, hqueue⟩ := List.head?_eq_some_iff.1 hgrant.2
        rw [hqueue]
        exact .grant t m rest waiting hrest hgrant.1 hqueue
      · exact .idle _
      · exact .join t m rest hrest hmem
    next m rest hrest => exact .unlock t m rest hrest
    next i rest hrest =>
      split
      · exact .idle _
      next data rest' hexec => exact .work t i rest rest' data hrest hexec

section

variable (h : Steps machine s event s')

include h

/-- A thread that has something left to do does it at its own turns only. -/
theorem Steps.rest_of_ne {t : T} (hrest : s.rest t ≠ [])
    (hevent : event ≠ .run t) : s'.rest t = s.rest t := by
  cases h with
  | idle | outside | join => rfl
  | spawn u program hu =>
    have hne : t ≠ u := by
      rintro rfl
      exact hrest hu
    exact update_of_ne hne _ _
  | grant u | unlock u | work u =>
    have hne : t ≠ u := by
      rintro rfl
      exact hevent rfl
    exact update_of_ne hne _ _

/-- A thread that waits for a mutex goes on waiting or gets it. -/
theorem Steps.rest_of_lock {t : T} {m : M} {rest : Program M I}
    (hrest : s.rest t = .lock m :: rest) : s'.rest t = rest ∨ s'.rest t = .lock m :: rest := by
  by_cases hevent : event = .run t
  · subst hevent
    cases h with
    | idle | join => exact .inr hrest
    | grant _ m' rest' waiting hrest' =>
      rw [hrest] at hrest'
      cases hrest'
      exact .inl (update_self _ _ _)
    | unlock _ m' rest' hrest' | work _ i rest' rest'' data hrest' =>
      rw [hrest] at hrest'
      cases hrest'
  · refine .inr ?_
    rw [h.rest_of_ne _ hevent, hrest]
    rw [hrest]
    exact List.cons_ne_nil _ rest

/-- The queue of a mutex grows at its end or loses its head, which then has the mutex. -/
theorem Steps.queue (m : M) :
    Grows (s.queue m) (s'.queue m) ∨
      s.holder m = none ∧ ∃ t rest, Pops t (s.queue m) (s'.queue m) ∧ event = .run t ∧
        s.rest t = .lock m :: rest ∧ s'.rest t = rest := by
  cases h with
  | idle | spawn | outside | unlock | work => exact .inl ⟨[], by simp⟩
  | join t m' rest hrest hnew =>
    refine .inl ?_
    by_cases hm : m = m'
    · subst hm
      exact ⟨[t], by simp⟩
    · exact ⟨[], by simp [hm]⟩
  | grant t m' rest waiting hrest hfree hqueue =>
    by_cases hm : m = m'
    · subst hm
      exact .inr ⟨hfree, t, rest, by simpa [Pops] using hqueue, rfl, hrest, by simp⟩
    · exact .inl ⟨[], by simp [hm]⟩

/-- A mutex that changes hands is free in between: it is granted to the head of its queue, and given
back. -/
theorem Steps.holder (m : M) :
    s'.holder m = s.holder m ∨ s'.holder m = none ∨
      s.holder m = none ∧ ∃ t, (s.queue m).head? = some t ∧ event = .run t := by
  cases h with
  | idle | spawn | outside | join | work => exact .inl rfl
  | grant t m' rest waiting hrest hfree hqueue =>
    by_cases hm : m = m'
    · subst hm
      exact .inr (.inr ⟨hfree, t, by rw [hqueue, List.head?_cons], rfl⟩)
    · exact .inl (update_of_ne hm _ _)
  | unlock t m' rest hrest =>
    by_cases hm : m = m'
    · subst hm
      exact .inr (.inl (update_self _ _ _))
    · exact .inl (update_of_ne hm _ _)

end

end Steps

/-! ## The invariant -/

/-- A thread holds the mutexes its program still has to give back, and waits for one mutex at a
time. -/
structure Inv (legal : Program M I → Prop) (s : State σ T M I) : Prop where
  legal : ∀ t, legal (s.rest t)
  holder : ∀ m t, s.holder m = some t ↔ m ∈ pending (s.rest t)
  queued : ∀ m, ∀ t ∈ s.queue m, ∃ rest, s.rest t = .lock m :: rest
  nodup : ∀ m, (s.queue m).Nodup

section Invariant

variable {machine : Machine σ M I E} {rank : M → ℕ} {legal : Program M I → Prop}
  {s : State σ T M I}

omit [DecidableEq T] [DecidableEq M] in
/-- A thread that waits for no mutex is in no queue. -/
theorem Inv.not_queued (hinv : Inv legal s) {t : T}
    (hrest : ∀ m rest, s.rest t ≠ .lock m :: rest) (m : M) : t ∉ s.queue m := by
  intro hmem
  obtain ⟨rest, hlock⟩ := hinv.queued m t hmem
  exact hrest m rest hlock

omit [DecidableEq M] in
/-- What a thread does with its program alone keeps the invariant: it is in no queue, and gives back
the same mutexes. -/
theorem Inv.update_rest (hinv : Inv legal s) {t : T} {program : Program M I} (data : σ)
    (hrest : ∀ m rest, s.rest t ≠ .lock m :: rest) (hlegal : legal program)
    (hpending : pending program = pending (s.rest t)) :
    Inv legal { s with data := data, rest := update s.rest t program } where
  legal := (forall_update_iff s.rest fun _ => legal).2 ⟨hlegal, fun u _ => hinv.legal u⟩
  holder := by
    intro m u
    by_cases hu : u = t
    · subst hu
      simpa [hpending] using hinv.holder m u
    · simpa [hu] using hinv.holder m u
  queued := by
    intro m u hmem
    have hu : u ≠ t := by
      rintro rfl
      exact hinv.not_queued hrest m hmem
    simpa [hu] using hinv.queued m u hmem
  nodup := hinv.nodup

omit [DecidableEq T] in
theorem Inv.join (hinv : Inv legal s) {t : T} {m : M} {rest : Program M I}
    (hrest : s.rest t = .lock m :: rest) (hnew : t ∉ s.queue m) :
    Inv legal { s with queue := update s.queue m (s.queue m ++ [t]) } where
  legal := hinv.legal
  holder := hinv.holder
  queued := by
    intro m' u hmem
    dsimp only at hmem ⊢
    by_cases hm : m' = m
    · subst hm
      rw [update_self, List.mem_append, List.mem_singleton] at hmem
      rcases hmem with hmem | rfl
      · exact hinv.queued m' u hmem
      · exact ⟨rest, hrest⟩
    · rw [update_of_ne hm] at hmem
      exact hinv.queued m' u hmem
  nodup := by
    intro m'
    dsimp only
    by_cases hm : m' = m
    · subst hm
      rw [update_self]
      rw [List.nodup_append]
      refine ⟨hinv.nodup m', List.nodup_singleton t, ?_⟩
      rintro u hu v hv rfl
      rw [List.mem_singleton] at hv
      exact hnew (hv ▸ hu)
    · rw [update_of_ne hm]
      exact hinv.nodup m'

section

variable (hd : Discipline machine rank legal) (hinv : Inv legal s)

include hd hinv

theorem Inv.grant {t : T} {m : M}
    {rest : Program M I} {waiting : List T} (hrest : s.rest t = .lock m :: rest)
    (hfree : s.holder m = none) (hqueue : s.queue m = t :: waiting) :
    Inv legal
      { s with
        rest := update s.rest t rest
        holder := update s.holder m (some t)
        queue := update s.queue m waiting } := by
  have hlegal := hinv.legal t
  rw [hrest] at hlegal
  -- The mutexes to give back after the grant are this one and those held before.
  obtain ⟨hhead, -, -⟩ := hd.ordered _ hlegal
  obtain ⟨held, hpending⟩ := List.head?_eq_some_iff.1 hhead
  have hheld : pending (s.rest t) = held := by
    rw [hrest, pending, hpending, List.tail_cons]
  have hnodup := hinv.nodup m
  rw [hqueue, List.nodup_cons] at hnodup
  refine ⟨?_, ?_, ?_, ?_⟩
  · exact (forall_update_iff s.rest fun _ => legal).2
      ⟨hd.lock m rest hlegal, fun u _ => hinv.legal u⟩
  · intro m' u
    by_cases hm : m' = m
    · subst hm
      by_cases hu : u = t
      · subst hu
        simp [hpending]
      · -- Nobody held the mutex.
        have hnot : m' ∉ pending (s.rest u) := by
          intro hmem
          have hholder := (hinv.holder m' u).2 hmem
          rw [hfree] at hholder
          cases hholder
        simp only [update_self, update_of_ne hu, Option.some.injEq]
        exact ⟨fun h => absurd h.symm hu, fun h => absurd h hnot⟩
    · have hother := hinv.holder m' u
      by_cases hu : u = t
      · subst hu
        rw [hheld] at hother
        simp [hm, hpending, hother]
      · simpa [hm, hu] using hother
  · intro m' u hmem
    dsimp only at hmem ⊢
    have hu : u ≠ t := by
      rintro rfl
      by_cases hm : m' = m
      · subst hm
        rw [update_self] at hmem
        exact hnodup.1 hmem
      · rw [update_of_ne hm] at hmem
        obtain ⟨rest', hrest'⟩ := hinv.queued m' u hmem
        rw [hrest] at hrest'
        cases hrest'
        exact hm rfl
    rw [update_of_ne hu]
    apply hinv.queued m' u
    by_cases hm : m' = m
    · subst hm
      rw [update_self] at hmem
      rw [hqueue]
      exact List.mem_cons_of_mem t hmem
    · rwa [update_of_ne hm] at hmem
  · intro m'
    dsimp only
    by_cases hm : m' = m
    · subst hm
      rw [update_self]
      exact hnodup.2
    · rw [update_of_ne hm]
      exact hinv.nodup m'

theorem Inv.unlock {t : T} {m : M} {rest : Program M I} (hrest : s.rest t = .unlock m :: rest) :
    Inv legal
      { s with
        rest := update s.rest t rest
        holder := update s.holder m none } := by
  have hlegal := hinv.legal t
  rw [hrest] at hlegal
  obtain ⟨hnot, -⟩ := hd.ordered _ hlegal
  have hpending : pending (s.rest t) = m :: pending rest := by
    rw [hrest, pending]
  have hmine : s.holder m = some t := by
    apply (hinv.holder m t).2
    rw [hpending]
    exact List.mem_cons_self
  refine ⟨?_, ?_, ?_, hinv.nodup⟩
  · exact (forall_update_iff s.rest fun _ => legal).2
      ⟨hd.unlock m rest hlegal, fun u _ => hinv.legal u⟩
  · intro m' u
    have hother := hinv.holder m' u
    by_cases hm : m' = m
    · subst hm
      by_cases hu : u = t
      · subst hu
        simp [hnot]
      · rw [hmine, Option.some.injEq] at hother
        simp only [update_self, update_of_ne hu, reduceCtorEq, false_iff]
        exact fun h => hu (hother.2 h).symm
    · by_cases hu : u = t
      · subst hu
        rw [hpending, List.mem_cons, or_iff_right hm] at hother
        simpa [hm] using hother
      · simpa [hm, hu] using hother
  · intro m' u hmem
    dsimp only at hmem ⊢
    have hu : u ≠ t := by
      rintro rfl
      refine hinv.not_queued ?_ m' hmem
      intro m'' rest' hlock
      rw [hrest] at hlock
      cases hlock
    rw [update_of_ne hu]
    exact hinv.queued m' u hmem

/-- Every step keeps the invariant. The programs that are spawned are legal and give back no mutex
they have not taken. -/
theorem Inv.step {event : Event T M I E}
    (hspawn : ∀ t program, event = .spawn t program → legal program ∧ pending program = []) :
    Inv legal (s.step machine event) := by
  generalize hnext : s.step machine event = s'
  have hsteps := step_cases machine s event
  rw [hnext] at hsteps
  cases hsteps with
  | idle => exact hinv
  | outside e => exact ⟨hinv.legal, hinv.holder, hinv.queued, hinv.nodup⟩
  | spawn t program hrest =>
    obtain ⟨hlegal, hpending⟩ := hspawn t program rfl
    apply hinv.update_rest s.data _ hlegal
    · rw [hpending, hrest, pending]
    · simp [hrest]
  | join t m rest hrest hnew => exact hinv.join hrest hnew
  | grant t m rest waiting hrest hfree hqueue => exact hinv.grant hd hrest hfree hqueue
  | unlock t m rest hrest => exact hinv.unlock hd hrest
  | work t i rest rest' data hrest hexec =>
    have hlegal := hinv.legal t
    rw [hrest] at hlegal
    obtain ⟨hlegal', hpending⟩ := hd.work s.data data i rest rest' hlegal hexec
    apply hinv.update_rest data _ hlegal'
    · rw [hpending, hrest, pending]
    · simp [hrest]

end

end Invariant

/-! ## Fair runs -/

/-- A run in which every thread has its turn again and again. -/
structure FairRun (T : Type*) [DecidableEq T] (machine : Machine σ M I E)
    (legal : Program M I → Prop) where
  state : ℕ → State σ T M I
  event : ℕ → Event T M I E
  next : ∀ n, state (n + 1) = (state n).step machine (event n)
  inv : ∀ n, Inv legal (state n)
  fair : ∀ t n, ∃ m, n ≤ m ∧ event m = .run t

namespace FairRun

variable {machine : Machine σ M I E} {rank : M → ℕ} {legal : Program M I → Prop}
  (r : FairRun T machine legal)

theorem next_cases (n : ℕ) : Steps machine (r.state n) (r.event n) (r.state (n + 1)) := by
  rw [r.next n]
  exact step_cases machine (r.state n) (r.event n)

/-- Whoever has `program` left has less left later. -/
def Advances (program : Program M I) : Prop :=
  ∀ t, LeadsTo (fun n => (r.state n).rest t = program)
    (fun n => ((r.state n).rest t).length < program.length)

/-- A program is advanced at the turns of its thread when each of these turns advances it. -/
theorem advances_of_turn {i : Instr M I} {rest : Program M I}
    (hturn : ∀ n t, (r.state n).rest t = i :: rest → r.event n = .run t →
      ((r.state (n + 1)).rest t).length < (i :: rest).length) : r.Advances (i :: rest) := by
  intro t
  apply leadsTo_of_helpful fun n => r.event n = .run t
  · intro n hrest hevent
    refine .inr ?_
    rw [(r.next_cases n).rest_of_ne _ hevent]
    · exact hrest
    · rw [hrest]
      exact List.cons_ne_nil i rest
  · exact fun n _ => r.fair t n
  · exact fun n hrest hevent => hturn n t hrest hevent

theorem advances_unlock (m : M) (rest : Program M I) : r.Advances (.unlock m :: rest) := by
  apply r.advances_of_turn
  intro n t hrest hevent
  have hnext : (r.state (n + 1)).rest t = rest := by
    rw [r.next n, hevent]
    simp [State.step, State.turn, hrest]
  simp [hnext]

/-! ### Mutexes -/

/-- A held mutex stays with its holder or becomes free, and nobody leaves its queue. -/
theorem held_next {n : ℕ} {m : M} {u : T} (hheld : (r.state n).holder m = some u) :
    ((r.state (n + 1)).holder m = some u ∨ (r.state (n + 1)).holder m = none) ∧
      Grows ((r.state n).queue m) ((r.state (n + 1)).queue m) := by
  have hnot : (r.state n).holder m ≠ none := by
    rw [hheld]
    exact Option.some_ne_none u
  constructor
  · rcases (r.next_cases n).holder m with hsame | hfree | ⟨hfree, -⟩
    · exact .inl (hsame.trans hheld)
    · exact .inr hfree
    · exact absurd hfree hnot
  · rcases (r.next_cases n).queue m with hgrows | ⟨hfree, -⟩
    · exact hgrows
    · exact absurd hfree hnot

/-- A free mutex that is waited for stays so until the first of its queue has its turn. -/
theorem free_next {n : ℕ} {m : M} {t : T} (hfree : (r.state n).holder m = none)
    (hhead : ((r.state n).queue m).head? = some t) (hevent : r.event n ≠ .run t) :
    (r.state (n + 1)).holder m = none ∧ ((r.state (n + 1)).queue m).head? = some t := by
  constructor
  · rcases (r.next_cases n).holder m with hsame | hfree' | ⟨-, u, hu, hrun⟩
    · exact hsame.trans hfree
    · exact hfree'
    · rw [hhead, Option.some.injEq] at hu
      exact absurd (hu ▸ hrun) hevent
  · rcases (r.next_cases n).queue m with ⟨more, hmore⟩ | ⟨-, u, rest, hpops, hrun, -⟩
    · rw [hmore, List.head?_append, hhead, Option.some_or]
    · rw [hpops, List.head?_cons, Option.some.injEq] at hhead
      exact absurd (hhead ▸ hrun) hevent

/-- The first of the queue of a free mutex has its turn. -/
def Serves (m : M) (n : ℕ) : Prop :=
  (r.state n).holder m = none ∧
    ∃ t, ((r.state n).queue m).head? = some t ∧ r.event n = .run t

theorem serves_of_free {n : ℕ} {m : M} (hfree : (r.state n).holder m = none)
    (hqueue : (r.state n).queue m ≠ []) : ∃ k, n ≤ k ∧ r.Serves m k := by
  obtain ⟨t, waiting, hcons⟩ := List.exists_cons_of_ne_nil hqueue
  have hhead : ((r.state n).queue m).head? = some t := by
    rw [hcons, List.head?_cons]
  have hserved : LeadsTo
      (fun k => n ≤ k ∧ (r.state k).holder m = none ∧ ((r.state k).queue m).head? = some t)
      (fun _ => ∃ k, n ≤ k ∧ r.Serves m k) := by
    apply leadsTo_of_helpful fun k => r.event k = .run t
    · rintro k ⟨hnk, hfree, hhead⟩ hevent
      exact .inr ⟨by omega, r.free_next hfree hhead hevent⟩
    · exact fun k _ => r.fair t k
    · rintro k ⟨hnk, hfree, hhead⟩ hevent
      exact ⟨k, hnk, hfree, t, hhead, hevent⟩
  obtain ⟨-, -, hk⟩ := hserved n ⟨le_rfl, hfree, hhead⟩
  exact hk

section

variable (hd : Discipline machine rank legal) (hwork : ∀ i rest, r.Advances (.work i :: rest))

include hd hwork

section

variable {m : M} (hhigher : ∀ m', rank m < rank m' → ∀ rest, r.Advances (.lock m' :: rest)) {n : ℕ}

include hhigher

/-- Who holds a mutex gives it back, when the mutexes of higher rank are granted in the end. -/
theorem released {u : T}
    (hheld : (r.state n).holder m = some u) : ∃ k, n ≤ k ∧ (r.state k).holder m ≠ some u := by
  -- By induction on what the holder has left.
  induction hlength : ((r.state n).rest u).length using Nat.strong_induction_on generalizing n with
  | _ length ih =>
    have hmem := ((r.inv n).holder m u).1 hheld
    have hadvances : r.Advances ((r.state n).rest u) := by
      cases hrest : (r.state n).rest u with
      | nil =>
        rw [hrest] at hmem
        cases hmem
      | cons i rest =>
        cases i with
        | unlock m' => exact r.advances_unlock m' rest
        | work i => exact hwork i rest
        | lock m' =>
          have hordered := hd.ordered _ ((r.inv n).legal u)
          rw [hrest] at hordered hmem
          exact hhigher m' (hordered.2.1 m hmem) rest
    obtain ⟨k, hnk, hlt⟩ := hadvances u n rfl
    by_cases hstill : (r.state k).holder m = some u
    · obtain ⟨j, hkj, hj⟩ := ih _ (hlength ▸ hlt) hstill rfl
      exact ⟨j, by omega, hj⟩
    · exact ⟨k, hnk, hstill⟩

theorem serves_of_waiting (hqueue : (r.state n).queue m ≠ []) : ∃ k, n ≤ k ∧ r.Serves m k := by
  cases hholder : (r.state n).holder m with
  | none => exact r.serves_of_free hholder hqueue
  | some u =>
    have hfreed : LeadsTo
        (fun k => (r.state k).holder m = some u ∧ (r.state k).queue m ≠ [])
        (fun k => (r.state k).holder m = none ∧ (r.state k).queue m ≠ []) := by
      apply leadsTo_of_escape
      · rintro k ⟨hheld, hqueue⟩
        obtain ⟨hnext, more, hmore⟩ := r.held_next hheld
        have hqueue' : (r.state (k + 1)).queue m ≠ [] := by
          rw [hmore]
          exact List.append_ne_nil_of_left_ne_nil hqueue more
        rcases hnext with hheld' | hfree
        · exact .inr ⟨hheld', hqueue'⟩
        · exact .inl ⟨hfree, hqueue'⟩
      · rintro k ⟨hheld, -⟩
        obtain ⟨j, hkj, hj⟩ := r.released hd hwork hhigher hheld
        exact ⟨j, hkj, fun h => hj h.1⟩
    obtain ⟨k, hnk, hfree, hqueue'⟩ := hfreed n ⟨hholder, hqueue⟩
    obtain ⟨j, hkj, hj⟩ := r.serves_of_free hfree hqueue'
    exact ⟨j, by omega, hj⟩

end

omit hd hwork in
theorem pops_of_serves {n : ℕ} {m : M} (hserves : r.Serves m n) :
    ∃ t, Pops t ((r.state n).queue m) ((r.state (n + 1)).queue m) := by
  obtain ⟨hfree, t, hhead, hevent⟩ := hserves
  obtain ⟨waiting, hqueue⟩ := List.head?_eq_some_iff.1 hhead
  have hmem : t ∈ (r.state n).queue m := by
    rw [hqueue]
    exact List.mem_cons_self
  obtain ⟨rest, hrest⟩ := (r.inv n).queued m t hmem
  refine ⟨t, ?_⟩
  rw [r.next n, hevent, State.step]
  simp [Pops, State.turn, hrest, hfree, hqueue]

/-- Who waits for a mutex gets it. -/
theorem advances_lock {bound : ℕ} (hbound : ∀ m, rank m ≤ bound) (m : M) (rest : Program M I) :
    r.Advances (.lock m :: rest) := by
  -- The mutexes of higher rank first.
  induction hheight : bound - rank m using Nat.strong_induction_on generalizing m rest with
  | _ height ih =>
    have hhigher : ∀ m', rank m < rank m' → ∀ rest, r.Advances (.lock m' :: rest) := by
      intro m' hlt rest'
      have hle := hbound m'
      exact ih (bound - rank m') (by omega) m' rest' rfl
    intro t
    have hstay : ∀ n, (r.state n).rest t = .lock m :: rest →
        ((r.state (n + 1)).rest t).length < (Instr.lock m :: rest).length ∨
          (r.state (n + 1)).rest t = .lock m :: rest := by
      intro n hrest
      rcases (r.next_cases n).rest_of_lock hrest with hgranted | hsame
      · exact .inl (by simp [hgranted])
      · exact .inr hsame
    -- The thread joins the queue at its next turn, and then the queue brings it to the mutex.
    have hjoins : LeadsTo
        (fun n => (r.state n).rest t = .lock m :: rest ∧ t ∉ (r.state n).queue m)
        (fun n => ((r.state n).rest t).length < (Instr.lock m :: rest).length ∨
          (r.state n).rest t = .lock m :: rest ∧ t ∈ (r.state n).queue m) := by
      apply leadsTo_of_helpful fun n => r.event n = .run t
      · rintro n ⟨hrest, -⟩ -
        rcases hstay n hrest with hless | hsame
        · exact .inl (.inl hless)
        · by_cases hmem : t ∈ (r.state (n + 1)).queue m
          · exact .inl (.inr ⟨hsame, hmem⟩)
          · exact .inr ⟨hsame, hmem⟩
      · exact fun n _ => r.fair t n
      · rintro n ⟨hrest, hnew⟩ hevent
        refine (hstay n hrest).imp_right fun hsame => ⟨hsame, ?_⟩
        rw [r.next n, hevent]
        simp [State.step, State.turn, hrest, hnew]
    have hserved : LeadsTo
        (fun n => (r.state n).rest t = .lock m :: rest ∧ t ∈ (r.state n).queue m)
        (fun n => ((r.state n).rest t).length < (Instr.lock m :: rest).length) := by
      apply leadsTo_of_queue (fun n => (r.state n).queue m) t (r.Serves m)
      · exact fun n hrest _ => hstay n hrest
      · intro n hrest _
        rcases (r.next_cases n).queue m with hgrows | ⟨-, u, rest', hpops, -, hu, hu'⟩
        · exact .inl hgrows
        · refine .inr ⟨u, hpops, ?_⟩
          rintro rfl
          rw [hrest] at hu
          cases hu
          simp [hu']
      · exact fun n hqueue => r.serves_of_waiting hd hwork hhigher hqueue
      · exact fun n _ _ hserves => r.pops_of_serves hserves
    intro n hrest
    by_cases hmem : t ∈ (r.state n).queue m
    · exact hserved n ⟨hrest, hmem⟩
    obtain ⟨k, hnk, hless | hqueued⟩ := hjoins n ⟨hrest, hmem⟩
    · exact ⟨k, hnk, hless⟩
    · obtain ⟨j, hkj, hless⟩ := hserved k hqueued
      exact ⟨j, by omega, hless⟩

/-- Every thread comes to the end of its program. -/
theorem finishes {bound : ℕ} (hbound : ∀ m, rank m ≤ bound) (t : T) (n : ℕ) :
    ∃ m, n ≤ m ∧ (r.state m).rest t = [] := by
  induction hlength : ((r.state n).rest t).length using Nat.strong_induction_on generalizing n with
  | _ length ih =>
    cases hrest : (r.state n).rest t with
    | nil => exact ⟨n, le_rfl, hrest⟩
    | cons i rest =>
      have hadvances : r.Advances (i :: rest) := by
        cases i with
        | lock m => exact r.advances_lock hd hwork hbound m rest
        | unlock m => exact r.advances_unlock m rest
        | work i => exact hwork i rest
      obtain ⟨k, hnk, hless⟩ := hadvances t n hrest
      rw [← hrest, hlength] at hless
      obtain ⟨j, hkj, hj⟩ := ih _ hless k rfl
      exact ⟨j, by omega, hj⟩

end

end FairRun

end AstraShell.Lib.Locks
