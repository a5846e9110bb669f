import AstraShell.Resources.Accounting
import AstraShell.Terminal.Resize

/-!
# The memory of terminals

A terminal reserves memory when it is spawned: `ResourceClaim::terminal` takes the larger of a base
amount and the cells of the grid. The reservation is a field of the terminal, so it is given back
when the last owner of a terminal that was removed from the registry lets go of it.
`Terminal::resize` changes the grid and leaves the reservation as it is.

`terminal_memory_covered`: what the terminals of the registry need is reserved in every pool of the
account, and so within its limits, as long as no terminal grows beyond its reservation.
`grown_terminal_uncovered`: a terminal that does grow needs more than is reserved, and more than the
limit allows.
-/

set_option autoImplicit false

namespace AstraShell.Resources.ResourceClaim

open Lib

/-- `ResourceClaim::terminal`. -/
def terminal (rows columns : Nat) (policy : ResourcePolicy) : Except String ResourceClaim := do
  let cells ← context (checkedMul 64 rows columns) "terminal cell count overflow"
  let gridBytes ← context (checkedMul 64 cells policy.terminalCellMemoryBytes)
    "terminal memory claim overflow"
  return fun
    | .terminals => 1
    | .terminalMemoryBytes => max gridBytes policy.terminalBaseMemoryBytes
    | .historyBytes => policy.terminalHistoryBytes
    | _ => 0

end AstraShell.Resources.ResourceClaim

namespace AstraShell.Terminal

open Lib Resources

/-- The memory a terminal of this geometry needs. -/
def requiredMemory (policy : ResourcePolicy) (size : Nat × Nat) : Nat :=
  max policy.terminalBaseMemoryBytes (size.1 * size.2 * policy.terminalCellMemoryBytes)

theorem terminal_claim_memory {policy : ResourcePolicy} {rows columns : Nat}
    {claim : ResourceClaim} (h : ResourceClaim.terminal rows columns policy = .ok claim) :
    claim .terminalMemoryBytes = requiredMemory policy (rows, columns) := by
  obtain ⟨cells, hcells, hrest⟩ := bind_eq_ok_iff.1 h
  obtain ⟨gridBytes, hgrid, hclaim⟩ := bind_eq_ok_iff.1 hrest
  rw [context_eq_ok_iff, checkedMul_eq_some_iff] at hcells hgrid
  obtain ⟨-, rfl⟩ := hcells
  obtain ⟨-, rfl⟩ := hgrid
  cases hclaim
  exact max_comm _ _

/-- A terminal with its reservation. -/
structure HeldTerminal where
  terminal : SizedTerminal
  resources : ResourceClaim

/-- `TerminalManager`, with the pools of its account. A spawn has its reservation before the
terminal is in the registry, and a terminal that was removed from it may still be in use. -/
structure TerminalManager where
  pools : List ResourcePool
  spawning : List HeldTerminal
  terminals : OrdMap String HeldTerminal
  detached : List HeldTerminal

namespace TerminalManager

def new (pools : List ResourcePool) : TerminalManager := ⟨pools, [], .empty, []⟩

/-- The part of `spawn` that ends with the reservation. -/
def startSpawn (policy : ResourcePolicy) (s : TerminalManager) (rows cols : Nat) :
    Except String TerminalManager := do
  let rows := if rows = 0 then 24 else rows
  let cols := if cols = 0 then 80 else cols
  ensure ((1 ≤ rows ∧ rows ≤ 1000) ∧ 1 ≤ cols ∧ cols ≤ 1000)
    "terminal dimensions must be between 1 and 1000"
  let claim ← ResourceClaim.terminal rows cols policy
  let pools ← (ResourceAccount.reserve claim s.pools).mapError QuotaExceeded.text
  return { s with pools := pools, spawning := s.spawning ++ [⟨.spawned rows cols, claim⟩] }

/-- What the terminals of this account hold of a resource. -/
def held (s : TerminalManager) (r : Resource) : Nat :=
  (s.spawning.map fun t => t.resources r).sum + s.terminals.total (fun t => t.resources r) +
    (s.detached.map fun t => t.resources r).sum

/-- The memory that the terminals of the registry need for their grids. -/
def required (policy : ResourcePolicy) (s : TerminalManager) : Nat :=
  s.terminals.total fun t => requiredMemory policy t.terminal.gridSize

section Steps

variable (policy : ResourcePolicy) (admitted : HeldTerminal → ResizeRequest → Prop)

/-- A step of the terminals of one account. The resizes are those that are accepted and admitted. -/
inductive Step (s : TerminalManager) : TerminalManager → Prop
  | startSpawn (rows cols : Nat) (s' : TerminalManager)
      (hstart : s.startSpawn policy rows cols = .ok s') : Step s s'
  /-- The terminal is registered under a new UUID. -/
  | finishSpawn (before after : List HeldTerminal) (t : HeldTerminal) (id : String)
      (hspawning : s.spawning = before ++ t :: after) (hnew : s.terminals.get? id = none) :
      Step s { s with spawning := before ++ after, terminals := s.terminals.insert id t }
  /-- The PTY cannot be opened, or the program not be started. -/
  | failSpawn (before after : List HeldTerminal) (t : HeldTerminal)
      (hspawning : s.spawning = before ++ t :: after) :
      Step s { s with
        spawning := before ++ after
        pools := ResourceAccount.release t.resources s.pools }
  | resize (id : String) (t : HeldTerminal) (r : ResizeRequest) (now : Nat)
      (pty : Except String Unit) (hget : s.terminals.get? id = some t)
      (haccepted : (t.terminal.resize r now pty).1 = .ok ()) (hadmitted : admitted t r) :
      Step s { s with
        terminals := s.terminals.insert id { t with terminal := (t.terminal.resize r now pty).2 } }
  | lease (id : String) (t : HeldTerminal) (input : InputState)
      (hget : s.terminals.get? id = some t) :
      Step s { s with
        terminals := s.terminals.insert id { t with terminal.input := input } }
  | remove (id : String) (t : HeldTerminal) (hget : s.terminals.get? id = some t) :
      Step s { s with terminals := s.terminals.erase id, detached := s.detached ++ [t] }
  /-- The last owner of a removed terminal lets go of it. -/
  | drop (before after : List HeldTerminal) (t : HeldTerminal)
      (hdetached : s.detached = before ++ t :: after) :
      Step s { s with
        detached := before ++ after
        pools := ResourceAccount.release t.resources s.pools }
  /-- The pools are shared; others only give back what is theirs. -/
  | other (pools : List ResourcePool)
      (hshared : ∀ pool ∈ pools, ∀ r, s.held r ≤ pool.usage r ∧ pool.usage r ≤ pool.limits r) :
      Step s { s with pools := pools }

end Steps

/-! ## The invariant -/

variable {policy : ResourcePolicy} {s s' : TerminalManager}

/-- The reservation of a terminal is enough for its grid. -/
def Covered (policy : ResourcePolicy) (t : HeldTerminal) : Prop :=
  requiredMemory policy t.terminal.gridSize ≤ t.resources .terminalMemoryBytes

/-- A resize within the reservation. -/
def Fits (policy : ResourcePolicy) (t : HeldTerminal) (r : ResizeRequest) : Prop :=
  requiredMemory policy (r.rows, r.cols) ≤ t.resources .terminalMemoryBytes

structure Inv (policy : ResourcePolicy) (s : TerminalManager) : Prop where
  held : ∀ pool ∈ s.pools, ∀ r, s.held r ≤ pool.usage r
  limits : ∀ pool ∈ s.pools, ∀ r, pool.usage r ≤ pool.limits r
  spawning : ∀ t ∈ s.spawning, Covered policy t
  terminals : ∀ id t, s.terminals.get? id = some t → Covered policy t

theorem inv_new {pools : List ResourcePool}
    (hlimits : ∀ pool ∈ pools, ∀ r, pool.usage r ≤ pool.limits r) : Inv policy (new pools) where
  held _ _ _ := Nat.zero_le _
  limits := hlimits
  spawning _ ht := nomatch ht
  terminals _ _ hget := nomatch hget

/-- A terminal that changes places keeps its reservation counted. -/
theorem sum_middle (before after : List HeldTerminal) (t : HeldTerminal) (r : Resource) :
    ((before ++ t :: after).map fun t => t.resources r).sum =
      ((before ++ after).map fun t => t.resources r).sum + t.resources r := by
  simp only [List.map_append, List.map_cons, List.sum_append, List.sum_cons]
  omega

theorem startSpawn_ok {rows cols : Nat} (h : s.startSpawn policy rows cols = .ok s') :
    ∃ t pools, Covered policy t ∧ ResourceAccount.reserve t.resources s.pools = .ok pools ∧
      s' = { s with pools := pools, spawning := s.spawning ++ [t] } := by
  obtain ⟨⟨⟩, -, hrest⟩ := bind_eq_ok_iff.1 h
  obtain ⟨claim, hclaim, hrest⟩ := bind_eq_ok_iff.1 hrest
  obtain ⟨pools, hpools, hpure⟩ := bind_eq_ok_iff.1 hrest
  cases hpure
  rw [mapError_eq_ok_iff] at hpools
  exact ⟨⟨.spawned _ _, claim⟩, pools, (terminal_claim_memory hclaim).ge, hpools, rfl⟩

namespace Inv

section

variable (h : Inv policy s)

include h

theorem startSpawn {rows cols : Nat}
    (hstart : s.startSpawn policy rows cols = .ok s') : Inv policy s' := by
  obtain ⟨t, pools, ht, hreserve, rfl⟩ := startSpawn_ok hstart
  refine ⟨?_, ResourceAccount.reserve_le_limits hreserve, ?_, h.terminals⟩
  · intro pool hpool r
    rw [ResourceAccount.reserve_ok hreserve] at hpool
    obtain ⟨pool', hpool', rfl⟩ := List.mem_map.1 hpool
    have hheld := h.held pool' hpool' r
    simp only [TerminalManager.held, List.map_append, List.map_cons, List.map_nil, List.sum_append,
      List.sum_cons, List.sum_nil] at hheld ⊢
    omega
  · exact List.forall_mem_append.2 ⟨h.spawning, List.forall_mem_singleton.2 ht⟩

/-- The pools after a reservation that is counted was given back. -/
theorem release (t : HeldTerminal) (s' : TerminalManager)
    (hpools : s'.pools = ResourceAccount.release t.resources s.pools)
    (hheld : ∀ r, s.held r = s'.held r + t.resources r)
    (hspawning : ∀ t ∈ s'.spawning, t ∈ s.spawning) (hterminals : s'.terminals = s.terminals) :
    Inv policy s' := by
  have hcounted : ∀ pool ∈ s.pools, ∀ r, t.resources r ≤ pool.usage r := by
    intro pool hpool r
    have := h.held pool hpool r
    have := hheld r
    omega
  rw [ResourceAccount.release_of_le hcounted] at hpools
  refine ⟨?_, ?_, fun t' ht' => h.spawning t' (hspawning t' ht'), ?_⟩
  · intro pool hpool r
    rw [hpools] at hpool
    obtain ⟨pool', hpool', rfl⟩ := List.mem_map.1 hpool
    have := h.held pool' hpool' r
    have := hheld r
    dsimp only
    omega
  · intro pool hpool r
    rw [hpools] at hpool
    obtain ⟨pool', hpool', rfl⟩ := List.mem_map.1 hpool
    exact (Nat.sub_le _ _).trans (h.limits pool' hpool' r)
  · rw [hterminals]
    exact h.terminals

theorem finishSpawn {before after : List HeldTerminal} {t : HeldTerminal} {id : String}
    (hspawning : s.spawning = before ++ t :: after) (hnew : s.terminals.get? id = none) :
    Inv policy { s with spawning := before ++ after, terminals := s.terminals.insert id t } := by
  have hcovered := h.spawning
  rw [hspawning] at hcovered
  refine ⟨?_, h.limits, ?_, ?_⟩
  · intro pool hpool r
    have hheld := h.held pool hpool r
    rw [TerminalManager.held, hspawning, sum_middle] at hheld
    rw [TerminalManager.held, OrdMap.total_insert_of_none _ hnew]
    dsimp only
    omega
  · intro t' ht'
    refine hcovered t' ?_
    simp only [List.mem_append, List.mem_cons] at ht' ⊢
    tauto
  · intro id' t' hget
    obtain ⟨-, rfl⟩ | hold := OrdMap.get?_insert_cases hget
    · exact hcovered t' (by simp)
    · exact h.terminals id' t' hold

/-- A terminal of the registry that keeps its reservation may change otherwise. -/
theorem replace {id : String} {t t' : HeldTerminal} (hget : s.terminals.get? id = some t)
    (hresources : t'.resources = t.resources) (hcovered : Covered policy t') :
    Inv policy { s with terminals := s.terminals.insert id t' } := by
  refine ⟨?_, h.limits, h.spawning, ?_⟩
  · intro pool hpool r
    have hheld := h.held pool hpool r
    have htotal := OrdMap.total_insert_of_some (fun t : HeldTerminal => t.resources r) hget t'
    rw [hresources] at htotal
    rw [TerminalManager.held] at hheld ⊢
    dsimp only
    omega
  · intro id' u hu
    obtain ⟨-, rfl⟩ | hold := OrdMap.get?_insert_cases hu
    · exact hcovered
    · exact h.terminals id' u hold

theorem remove {id : String} {t : HeldTerminal} (hget : s.terminals.get? id = some t) :
    Inv policy { s with terminals := s.terminals.erase id, detached := s.detached ++ [t] } := by
  refine ⟨?_, h.limits, h.spawning, ?_⟩
  · intro pool hpool r
    have hheld := h.held pool hpool r
    have htotal := OrdMap.total_erase (fun t : HeldTerminal => t.resources r) hget
    rw [TerminalManager.held] at hheld ⊢
    simp only [List.map_append, List.map_cons, List.map_nil, List.sum_append, List.sum_cons,
      List.sum_nil]
    omega
  · intro id' u hu
    exact h.terminals id' u (OrdMap.get?_of_get?_erase hu).2

theorem step (hstep : Step policy (Fits policy) s s') : Inv policy s' := by
  cases hstep with
  | startSpawn rows cols s' hstart => exact h.startSpawn hstart
  | finishSpawn before after t id hspawning hnew => exact h.finishSpawn hspawning hnew
  | failSpawn before after t hspawning =>
    refine h.release t _ rfl (fun r => ?_) (fun t' ht' => ?_) rfl
    · rw [TerminalManager.held, TerminalManager.held, hspawning, sum_middle]
      dsimp only
      omega
    · rw [hspawning]
      simp only [List.mem_append, List.mem_cons] at ht' ⊢
      tauto
  | resize id t r now pty hget haccepted hfits =>
    refine h.replace hget rfl ?_
    rw [Covered, (SizedTerminal.agrees_of_ok haccepted).2]
    exact hfits
  | lease id t input hget => exact h.replace hget rfl (h.terminals id t hget)
  | remove id t hget => exact h.remove hget
  | drop before after t hdetached =>
    refine h.release t _ rfl (fun r => ?_) (fun t' ht' => ht') rfl
    rw [TerminalManager.held, TerminalManager.held, hdetached, sum_middle]
    dsimp only
    omega
  | other pools hshared =>
    exact ⟨fun pool hpool r => (hshared pool hpool r).1, fun pool hpool r =>
      (hshared pool hpool r).2, h.spawning, h.terminals⟩

theorem run (hrun : Relation.ReflTransGen (Step policy (Fits policy)) s s') : Inv policy s' := by
  induction hrun with
  | refl => exact h
  | tail _ hstep ih => exact ih.step hstep

/-- What the registry needs is held. -/
theorem required_le : s.required policy ≤ s.held .terminalMemoryBytes := by
  have hsum : s.required policy ≤ s.terminals.total fun t => t.resources .terminalMemoryBytes :=
    OrdMap.total_le_total fun id t hget => h.terminals id t hget
  rw [TerminalManager.held]
  omega

end

end Inv

/-- As long as every accepted resize fits into the reservation of its terminal, each pool of the
account has reserved at least what the grids of the registered terminals need, and so they need no
more than the limit of the pool. -/
theorem terminal_memory_covered {pools : List ResourcePool}
    (hlimits : ∀ pool ∈ pools, ∀ r, pool.usage r ≤ pool.limits r)
    (hrun : Relation.ReflTransGen (Step policy (Fits policy)) (new pools) s) :
    ∀ pool ∈ s.pools, s.required policy ≤ pool.usage .terminalMemoryBytes ∧
      s.required policy ≤ pool.limits .terminalMemoryBytes := by
  have hinv := (inv_new hlimits).run hrun
  intro pool hpool
  have husage := hinv.required_le.trans (hinv.held pool hpool _)
  exact ⟨husage, husage.trans (hinv.limits pool hpool _)⟩

/-! ## A terminal that grows -/

/-- A user whose limit is one base reservation. -/
def tightPools : List ResourcePool :=
  [⟨"user alice", fun
    | .terminalMemoryBytes => 4 * 2 ^ 20
    | r => ResourceLimits.userDefaults r, fun _ => 0⟩]

def spawnedClaim : ResourceClaim := okValue (ResourceClaim.terminal 24 80 .default) (by decide)

def spawnedPools : List ResourcePool :=
  tightPools.map fun pool => { pool with usage := fun r => pool.usage r + spawnedClaim r }

/-- The account with one terminal. -/
def withTerminal (t : SizedTerminal) : TerminalManager :=
  ⟨spawnedPools, [], OrdMap.empty.insert "id" ⟨t, spawnedClaim⟩, []⟩

theorem run_withTerminal (admitted : HeldTerminal → ResizeRequest → Prop) :
    Relation.ReflTransGen (Step .default admitted) (new tightPools)
      (withTerminal SizedTerminal.leased) := by
  have hstart : (new tightPools).startSpawn .default 24 80 =
      .ok ⟨spawnedPools, [⟨.spawned 24 80, spawnedClaim⟩], .empty, []⟩ := rfl
  have hfinish : Step .default admitted
      ⟨spawnedPools, [⟨.spawned 24 80, spawnedClaim⟩], .empty, []⟩
      (withTerminal (.spawned 24 80)) :=
    .finishSpawn [] [] _ "id" rfl rfl
  have hlease : Step .default admitted (withTerminal (.spawned 24 80))
      (withTerminal SizedTerminal.leased) :=
    .lease "id" ⟨.spawned 24 80, spawnedClaim⟩ SizedTerminal.leased.input rfl
  exact ((Relation.ReflTransGen.single (.startSpawn 24 80 _ hstart)).tail hfinish).tail hlease

/-- The terminal of the account is resized. -/
def resized (r : ResizeRequest) : TerminalManager :=
  withTerminal (SizedTerminal.leased.resize r 0 (.ok ())).2

theorem run_resized {admitted : HeldTerminal → ResizeRequest → Prop} {r : ResizeRequest}
    (haccepted : (SizedTerminal.leased.resize r 0 (.ok ())).1 = .ok ())
    (hadmitted : admitted ⟨SizedTerminal.leased, spawnedClaim⟩ r) :
    Relation.ReflTransGen (Step .default admitted) (new tightPools) (resized r) :=
  (run_withTerminal admitted).tail
    (.resize "id" ⟨SizedTerminal.leased, spawnedClaim⟩ r 0 (.ok ()) rfl haccepted hadmitted)

/-- A terminal that grows within its reservation. -/
theorem terminal_memory_covered_resized :
    (SizedTerminal.leased.resize ⟨"lease", 1, 200, 300, 0, 0⟩ 0 (.ok ())).2.gridSize = (200, 300) ∧
      (resized ⟨"lease", 1, 200, 300, 0, 0⟩).required .default ≤ 4 * 2 ^ 20 := by
  have hrun : Relation.ReflTransGen (Step .default (Fits .default)) (new tightPools)
      (resized ⟨"lease", 1, 200, 300, 0, 0⟩) :=
    run_resized (by decide) (show _ ≤ _ by decide)
  exact ⟨by decide, (terminal_memory_covered (by simp [tightPools]) hrun _ List.mem_cons_self).2⟩

def largest : ResizeRequest := ⟨"lease", 1, 1000, 1000, 0, 0⟩

/-- A resize to the largest grid is accepted; it needs more than what is reserved and allowed. -/
theorem grown_terminal_uncovered :
    ∃ s, Relation.ReflTransGen (Step .default fun _ _ => True) (new tightPools) s ∧
      ∃ pool ∈ s.pools, pool.usage .terminalMemoryBytes < s.required .default ∧
        pool.limits .terminalMemoryBytes < s.required .default := by
  exact ⟨resized largest, run_resized (by decide) trivial, _, List.mem_cons_self, by decide,
    by decide⟩

end TerminalManager

end AstraShell.Terminal
