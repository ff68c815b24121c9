import Benet.Semantics.Execution
import Mathlib.Algebra.Order.Ring.Nat
import Mathlib.Data.List.Perm.Subperm
import Mathlib.Data.List.Nodup
import Mathlib.Logic.Function.Basic

/-!
# The thread pool

`EventLoopThreadPool` hands out its loops in turn. The position is a static variable of
`GetNextLoop`, and so there is one position for all pools of the program. It is followed
here through every interleaving of calls on any number of pools: a call returns the loop
that its number among all calls selects (`ThreadPools.Turning`), and a pool is fair over
as many calls as it has loops exactly when these numbers are distinct modulo that many
(`ThreadPools.round_robin_fair_iff`).
-/

namespace Benet

open Semantics

variable {Loop : Type}

structure EventLoopThreadPool (Loop : Type) where
  baseLoop : Loop
  started : Bool := false
  numThreads : Int := 0
  loops : List Loop := []
  /-- each loop is a variable of its own thread -/
  distinct : loops.Nodup := by simp

namespace EventLoopThreadPool

variable [DecidableEq Loop]

def initThreadsNumber (pool : EventLoopThreadPool Loop) (nThreads : Int) :
    Option (EventLoopThreadPool Loop) :=
  if pool.started then none else some { pool with numThreads := nThreads }

/-- `Start` in the thread of `caller`; `reported` are the loops of the new threads. -/
def start (pool : EventLoopThreadPool Loop) (caller : Loop) (reported : List Loop) :
    Option (EventLoopThreadPool Loop) :=
  if ready : (pool.loops ++ reported).Nodup ∧ reported.length = pool.numThreads.toNat ∧
      pool.started = false ∧ caller = pool.baseLoop then
    some { pool with started := true, loops := pool.loops ++ reported, distinct := ready.1 }
  else none

/-- `GetNextLoop` in the thread of `caller`, with the static `next_index_` before and
after the call. -/
def getNextLoop (pool : EventLoopThreadPool Loop) (caller : Loop) (nextIndex : UInt64) :
    Option (Loop × UInt64) :=
  if caller = pool.baseLoop ∧ pool.started = true then
    if nonempty : 0 < pool.loops.length then
      some (pool.loops.get ⟨nextIndex.toNat % pool.loops.length, Nat.mod_lt _ nonempty⟩,
        nextIndex + 1)
    else some (pool.baseLoop, nextIndex)
  else none

end EventLoopThreadPool

/-- The pools of a program. -/
structure ThreadPools (Loop : Type) where
  pools : Nat → Option (EventLoopThreadPool Loop) := fun _ => none
  /-- the static variable of `GetNextLoop` -/
  nextIndex : UInt64 := 0
  /-- the calls of `GetNextLoop` so far: the pool and the loop it returned -/
  calls : List (Nat × Loop) := []

namespace ThreadPools

inductive Call (Loop : Type) where
  | create (pool : Nat) (base : Loop)
  | initThreadsNumber (pool : Nat) (nThreads : Int)
  | start (pool : Nat) (caller : Loop) (reported : List Loop)
  | getNextLoop (pool : Nat) (caller : Loop)

section Step

variable [DecidableEq Loop]

def store (state : ThreadPools Loop) (id : Nat) (pool : EventLoopThreadPool Loop) :
    ThreadPools Loop :=
  { state with pools := Function.update state.pools id (some pool) }

def step (state : ThreadPools Loop) : Call Loop → Option (ThreadPools Loop)
  | .create id base =>
      if (state.pools id).isNone then some (state.store id { baseLoop := base }) else none
  | .initThreadsNumber id nThreads => do
      let pool ← state.pools id
      let pool ← pool.initThreadsNumber nThreads
      some (state.store id pool)
  | .start id caller reported => do
      let pool ← state.pools id
      let pool ← pool.start caller reported
      some (state.store id pool)
  | .getNextLoop id caller => do
      let pool ← state.pools id
      let (loop, nextIndex) ← pool.getNextLoop caller state.nextIndex
      some { state with nextIndex, calls := state.calls ++ [(id, loop)] }

abbrev system : LabelledSystem (ThreadPools Loop) (Call Loop) where
  Initial state := state = {}
  step := step

end Step

/-- The number of loops of a pool. -/
def width (state : ThreadPools Loop) (id : Nat) : Nat :=
  ((state.pools id).map (·.loops.length)).getD 0

/-- The loops that the calls on one pool have returned. -/
def returned (id : Nat) (calls : List (Nat × Loop)) : List Loop :=
  (calls.filter (·.1 = id)).map (·.2)

/-- How many of the calls have moved the static index. -/
def turns (state : ThreadPools Loop) (calls : List (Nat × Loop)) : Nat :=
  calls.countP fun call => 0 < state.width call.1

/-- The numbers of the calls on one pool, counted from `first` over the calls on all
pools that have loops. -/
def numbers (state : ThreadPools Loop) (id : Nat) : Nat → List (Nat × Loop) → List Nat
  | _, [] => []
  | first, call :: rest =>
      let following := state.numbers id (if 0 < state.width call.1 then first + 1 else first) rest
      if call.1 = id then first :: following else following

section Turns

variable {state next : ThreadPools Loop} {id : Nat} {pool : EventLoopThreadPool Loop}
  {calls : List (Nat × Loop)}

private theorem width_eq (present : state.pools id = some pool) :
    state.width id = pool.loops.length := by
  simp [width, present]

/-- Every call so far has been made on a started pool, and has returned what its number
selects. -/
structure Turning (state : ThreadPools Loop) : Prop where
  started : ∀ call ∈ state.calls, ∃ pool, state.pools call.1 = some pool ∧ pool.started = true
  index : state.nextIndex = UInt64.ofNat (state.turns state.calls)
  selected : ∀ before call after, state.calls = before ++ call :: after → ∀ pool,
    state.pools call.1 = some pool → 0 < pool.loops.length →
      pool.loops[state.turns before % 2 ^ 64 % pool.loops.length]? = some call.2

/-- The pools of all calls are as they were. -/
private theorem turns_congr (kept : ∀ call ∈ calls, next.pools call.1 = state.pools call.1) :
    next.turns calls = state.turns calls := by
  refine List.countP_congr fun call member => ?_
  rw [width, width, kept call member]

private theorem turns_concat (calls : List (Nat × Loop)) (call : Nat × Loop) :
    state.turns (calls ++ [call]) =
      if 0 < state.width call.1 then state.turns calls + 1 else state.turns calls := by
  simp only [turns, List.countP_append, List.countP_cons, List.countP_nil, decide_eq_true_eq]
  split <;> rfl

/-- A pool that is not started has not been called, and so it can be replaced. -/
theorem Turning.store (turning : state.Turning)
    (idle : ∀ current, state.pools id = some current → current.started = false) :
    (state.store id pool).Turning := by
  have kept : ∀ call ∈ state.calls, (state.store id pool).pools call.1 = state.pools call.1 := by
    intro call member
    obtain ⟨called, present, started⟩ := turning.started call member
    refine Function.update_of_ne ?_ _ _
    rintro rfl
    exact absurd started (by simp [idle called present])
  refine ⟨fun call member => ?_, ?_, fun before call after split other present nonempty => ?_⟩
  · rw [kept call member]
    exact turning.started call member
  · change state.nextIndex = UInt64.ofNat ((state.store id pool).turns state.calls)
    rw [turns_congr kept]
    exact turning.index
  · have earlier : ∀ entry ∈ before, (state.store id pool).pools entry.1 = state.pools entry.1 :=
      fun entry member => kept entry (split ▸ List.mem_append_left _ member)
    rw [kept call (split ▸ List.mem_append_right _ List.mem_cons_self)] at present
    rw [turns_congr earlier]
    exact turning.selected before call after split other present nonempty

variable [DecidableEq Loop]

/-- What a call of `GetNextLoop` does with the static index. -/
theorem getNextLoop_spec {caller loop : Loop} {index after : UInt64}
    (got : pool.getNextLoop caller index = some (loop, after)) :
    pool.started = true ∧ after = (if 0 < pool.loops.length then index + 1 else index) ∧
      (0 < pool.loops.length → pool.loops[index.toNat % pool.loops.length]? = some loop) := by
  unfold EventLoopThreadPool.getNextLoop at got
  split at got
  case isFalse => cases got
  case isTrue allowed =>
    split at got
    case isTrue nonempty =>
      cases got
      exact ⟨allowed.2, (if_pos nonempty).symm, fun _ => List.getElem?_eq_getElem _⟩
    case isFalse empty =>
      cases got
      exact ⟨allowed.2, (if_neg empty).symm, fun nonempty => absurd nonempty empty⟩

/-- One call of `GetNextLoop` turns the counter as the account says. -/
theorem Turning.getNextLoop (turning : state.Turning) {caller loop : Loop} {after : UInt64}
    (present : state.pools id = some pool)
    (got : pool.getNextLoop caller state.nextIndex = some (loop, after)) :
    Turning { state with nextIndex := after, calls := state.calls ++ [(id, loop)] } := by
  obtain ⟨started, moved, selected⟩ := getNextLoop_spec got
  refine ⟨fun call member => ?_, ?_, fun before call rest split other found nonempty => ?_⟩
  · rcases List.mem_append.mp member with earlier | last
    · exact turning.started call earlier
    · cases List.mem_singleton.mp last
      exact ⟨pool, present, started⟩
  · change after = UInt64.ofNat (state.turns (state.calls ++ [(id, loop)]))
    rw [turns_concat, width_eq present, moved, turning.index]
    split <;> simp
  · rcases List.eq_nil_or_concat rest with rfl | ⟨front, last, rfl⟩
    · obtain ⟨rfl, last⟩ := List.append_inj' split rfl
      cases last
      cases present.symm.trans found
      have number := selected nonempty
      rw [turning.index, UInt64.toNat_ofNat'] at number
      exact number
    · rw [List.concat_eq_append, ← List.cons_append, ← List.append_assoc] at split
      obtain ⟨earlier, -⟩ := List.append_inj' split rfl
      exact turning.selected before call front earlier other found nonempty

/-- One call keeps counter and account together. -/
theorem Turning.step (turning : state.Turning) {call : Call Loop}
    (stepped : state.step call = some next) : next.Turning := by
  cases call with
  | create id base =>
      simp only [ThreadPools.step] at stepped
      split at stepped
      case isTrue unused =>
        cases stepped
        refine turning.store fun current present => ?_
        simp [present] at unused
      case isFalse => cases stepped
  | initThreadsNumber id nThreads =>
      obtain ⟨pool, present, rest⟩ := Option.bind_eq_some_iff.mp stepped
      obtain ⟨changed, initialised, stored⟩ := Option.bind_eq_some_iff.mp rest
      cases stored
      unfold EventLoopThreadPool.initThreadsNumber at initialised
      split at initialised
      case isTrue => cases initialised
      case isFalse idle =>
        refine turning.store fun current found => ?_
        cases present.symm.trans found
        exact Bool.eq_false_iff.mpr idle
  | start id caller reported =>
      obtain ⟨pool, present, rest⟩ := Option.bind_eq_some_iff.mp stepped
      obtain ⟨changed, startedUp, stored⟩ := Option.bind_eq_some_iff.mp rest
      cases stored
      unfold EventLoopThreadPool.start at startedUp
      split at startedUp
      case isTrue ready =>
        refine turning.store fun current found => ?_
        cases present.symm.trans found
        exact ready.2.2.1
      case isFalse => cases startedUp
  | getNextLoop id caller =>
      obtain ⟨pool, present, rest⟩ := Option.bind_eq_some_iff.mp stepped
      obtain ⟨⟨loop, after⟩, got, stored⟩ := Option.bind_eq_some_iff.mp rest
      cases stored
      exact turning.getNextLoop present got

/-- The counter is the number of turns in every run. -/
theorem reachable_turning {guard : ThreadPools Loop → Call Loop → Prop}
    (reachable : system.Reachable guard state) : state.Turning := by
  refine reachable.invariant Turning ?_ ?_
  · rintro _ rfl
    exact ⟨by simp, rfl, by simp⟩
  · exact fun _ _ _ _ turning _ stepped => turning.step stepped

end Turns

section Fairness

variable {state : ThreadPools Loop} {id : Nat} {pool : EventLoopThreadPool Loop}

/-- What a stretch of calls has returned on one pool, read off the numbers of the calls. -/
theorem Turning.returned_eq (turning : state.Turning) (total : state.calls.length < 2 ^ 64)
    (present : state.pools id = some pool) (nonempty : 0 < pool.loops.length)
    {before window after : List (Nat × Loop)}
    (split : state.calls = before ++ window ++ after) :
    (returned id window).map some = ((state.numbers id (state.turns before) window).map
      (· % pool.loops.length)).map (pool.loops[·]?) := by
  induction window generalizing before with
  | nil => rfl
  | cons call rest inductionHypothesis =>
      have here : state.calls = before ++ call :: (rest ++ after) := by simpa using split
      have rejoined : state.calls = before ++ [call] ++ rest ++ after := by simpa using split
      have later := inductionHypothesis rejoined
      rw [turns_concat] at later
      by_cases own : call.1 = id
      · have number : state.turns before % 2 ^ 64 = state.turns before := by
          have bound : state.turns before ≤ before.length := List.countP_le_length
          have shorter := congrArg List.length here
          rw [List.length_append] at shorter
          exact Nat.mod_eq_of_lt (by omega)
        have selected := turning.selected before call _ here pool (own ▸ present) nonempty
        rw [number] at selected
        simpa [returned, numbers, own, selected] using later
      · simpa [returned, numbers, own] using later

/-- A list of as many elements of a duplicate-free list as that has. -/
private theorem perm_iff_nodup {all chosen : List Loop} (distinct : all.Nodup)
    (subset : chosen ⊆ all)
    (length : chosen.length = all.length) : chosen.Perm all ↔ chosen.Nodup := by
  constructor
  · exact fun perm => perm.symm.nodup distinct
  · exact fun nodup => (List.subperm_of_subset nodup subset).perm_of_length_le (Nat.le_of_eq length.symm)

/-- In every program of fewer than `2^64` calls, and for every stretch of it in which a
pool with loops is called as often as it has loops: each of them has been returned once
if and only if the numbers of these calls, among the calls on all pools with loops, are
distinct modulo the number of loops. -/
theorem round_robin_fair_iff [DecidableEq Loop]
    (reachable : system.Reachable LabelledSystem.unguarded state)
    (total : state.calls.length < 2 ^ 64) (present : state.pools id = some pool)
    (nonempty : 0 < pool.loops.length) {before window after : List (Nat × Loop)}
    (split : state.calls = before ++ window ++ after)
    (round : (returned id window).length = pool.loops.length) :
    (returned id window).Perm pool.loops ↔
      ((state.numbers id (state.turns before) window).map (· % pool.loops.length)).Nodup := by
  have selected := (reachable_turning reachable).returned_eq total present nonempty split
  have subset : returned id window ⊆ pool.loops := by
    intro loop member
    have listed : some loop ∈ (returned id window).map some := List.mem_map_of_mem member
    rw [selected] at listed
    obtain ⟨number, -, found⟩ := List.mem_map.mp listed
    exact List.mem_of_getElem? found
  have injective : ∀ first ∈ (state.numbers id (state.turns before) window).map
      (· % pool.loops.length), ∀ second ∈ (state.numbers id (state.turns before) window).map
      (· % pool.loops.length), pool.loops[first]? = pool.loops[second]? → first = second := by
    intro first member second _ same
    obtain ⟨number, -, rfl⟩ := List.mem_map.mp member
    exact (List.getElem?_inj (Nat.mod_lt _ nonempty) pool.distinct).mp same
  rw [perm_iff_nodup pool.distinct subset round,
    ← List.nodup_map_iff fun _ _ => Option.some.inj, selected]
  exact ⟨List.Nodup.of_map _, List.Nodup.map_on injective⟩

/-- Two pools of two loops each, on one base loop. -/
def twoPools : List (Call Nat) :=
  [.create 0 0, .initThreadsNumber 0 2, .start 0 0 [1, 2],
    .create 1 0, .initThreadsNumber 1 2, .start 1 0 [3, 4]]

/-- Two calls on the second pool lie between those on the first. -/
theorem round_robin_fair_twoPools :
    ∃ state : ThreadPools Nat, system.Reachable LabelledSystem.unguarded state ∧
      state.calls = [(0, 1), (1, 4), (1, 3), (0, 2)] ∧ (returned 0 state.calls).Perm [1, 2] := by
  let calls := twoPools ++
    [.getNextLoop 0 0, .getNextLoop 1 0, .getNextLoop 1 0, .getNextLoop 0 0]
  let state := (system.run LabelledSystem.unguarded {} calls).get (by decide +kernel)
  have reachable : system.Reachable LabelledSystem.unguarded state :=
    LabelledSystem.run_reachable rfl (Option.some_get _).symm
  have made : state.calls = [(0, 1), (1, 4), (1, 3), (0, 2)] := by decide +kernel
  let pool := (state.pools 0).get (by decide +kernel)
  have present : state.pools 0 = some pool := (Option.some_get _).symm
  have loops : pool.loops = [1, 2] := by decide +kernel
  have fair := (round_robin_fair_iff reachable (by rw [made]; decide) present (by decide +kernel)
    (by simp : state.calls = [] ++ state.calls ++ []) (by decide +kernel)).mpr (by decide +kernel)
  exact ⟨state, reachable, made, loops ▸ fair⟩

/-- Calls on the two pools alternate: two consecutive calls on the first return the same
loop, and the other one is never used. -/
theorem round_robin_shared_index :
    ∃ state : ThreadPools Nat, system.Reachable LabelledSystem.unguarded state ∧
      state.calls = [(0, 1), (1, 4), (0, 1), (1, 4)] ∧
      (state.pools 0).map (·.loops) = some [1, 2] ∧ ¬(returned 0 state.calls).Perm [1, 2] := by
  let calls := twoPools ++
    [.getNextLoop 0 0, .getNextLoop 1 0, .getNextLoop 0 0, .getNextLoop 1 0]
  let state := (system.run LabelledSystem.unguarded {} calls).get (by decide +kernel)
  have reachable : system.Reachable LabelledSystem.unguarded state :=
    LabelledSystem.run_reachable rfl (Option.some_get _).symm
  refine ⟨state, reachable, ?_⟩
  decide +kernel

end Fairness

end ThreadPools

end Benet
