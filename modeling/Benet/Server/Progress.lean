import Benet.Server.Notification

/-!
# The state of a connection and its notifications

`state_` only moves forward. `on_connection_` is called first by
`ConnectionEstablished` and once more when the state becomes `Disconnected`, and
`on_close_` is called at most once, after that (`World.forward_and_paired`). This
holds in every run, whatever user code calls on whatever threads; the timer of
`ForceCloseDelay` is user code on the loop's thread that calls `ForceClose`.
-/

namespace Benet

open EventLoop Semantics

variable {Thread : Type}

namespace TcpState

/-- The order in which the states are passed. -/
def rank : TcpState → Nat
  | .connecting => 0
  | .connected => 1
  | .disconnecting => 2
  | .disconnected => 3

/-- The states that `handle_close` tests for. -/
def isOpen (state : TcpState) : Prop := state = .connected ∨ state = .disconnecting

/-- What `on_connection_` has been called with by the time the connection is in this
state. -/
def reported : TcpState → List Notification
  | .connecting => []
  | .connected | .disconnecting => [.connection .connected]
  | .disconnected => [.connection .connected, .connection .disconnected]

private theorem reported_eq_nil {state : TcpState} : state.reported = [] ↔ state = .connecting := by
  cases state <;> simp [reported]

private theorem reported_congr {before after : TcpState}
    (connecting : after = .connecting ↔ before = .connecting)
    (disconnected : after = .disconnected ↔ before = .disconnected) :
    after.reported = before.reported := by
  cases before <;> cases after <;> simp_all [reported]

variable {task : ConnectionTask} {before after : TcpState}

/-- The stores of `state_` are unconditional in `ConnectionEstablished`, so it has to
be called in `Connecting`. -/
theorem Moves.rank_le (moves : Moves task before after)
    (established : task = .connectionEstablished → before = .connecting) :
    before.rank ≤ after.rank := by
  cases moves with
  | stays => exact le_rfl
  | shutdown | forceClose | destroy => decide
  | establish =>
      rw [established rfl]
      decide
  | close isOpen => rcases isOpen with rfl | rfl <;> decide

/-- What other threads may execute leaves the test of `handle_close` as it is. -/
theorem Moves.isOpen_iff (moves : Moves task before after) (outside : task.inLoop = false) :
    after.isOpen ↔ before.isOpen := by
  cases moves with
  | stays => exact .rfl
  | shutdown | forceClose => simp [isOpen]
  | establish | destroy | close => cases outside

end TcpState

/-- The calls of `on_connection_`, in order. -/
def TcpConnection.connectionCalls (connection : TcpConnection Thread) : List Notification :=
  connection.history.notifications.filter (· ≠ .message)

/-- A further notification counts unless it is `on_message_`. -/
theorem TcpConnection.connectionCalls_append {before after : TcpConnection Thread}
    {latest : Notification}
    (added : after.history.notifications = before.history.notifications ++ [latest]) :
    after.connectionCalls = before.connectionCalls ++ if latest = .message then [] else [latest] := by
  rw [connectionCalls, added, List.filter_append, connectionCalls]
  split
  case isTrue isMessage => simp [isMessage]
  case isFalse isCall => simp [isCall]

variable [DecidableEq Thread]

namespace Lifecycle

variable {id : Nat} {base thread : Thread} {task : ConnectionTask} {answers : Answers}
  {site next : Site Thread} {calls : List (Call Thread Task)}
  {rest : Multiset (Located Thread Task)}

omit [DecidableEq Thread] in
/-- `ConnectionEstablished` runs in `Connecting`. -/
theorem establishes
    (lifecycle : Lifecycle id base site.connection ({(thread, .connection id task)} + rest)) :
    task = .connectionEstablished → site.connection.state = .connecting := by
  rintro rfl
  exact lifecycle.connecting.1

/-- A task calls `on_connection_` as it changes the state. -/
theorem connectionCalls
    (lifecycle : Lifecycle id base site.connection ({(thread, .connection id task)} + rest))
    (effect : site.Effect thread id answers task next calls)
    (reported : site.connection.connectionCalls = site.connection.state.reported) :
    next.connection.connectionCalls = next.connection.state.reported := by
  by_cases establishes : task = .connectionEstablished
  · have connecting := lifecycle.establishes establishes
    subst establishes
    cases effect with
    | connectionEstablished =>
        have added : (site.connectionEstablished thread id).1.connection.history.notifications =
            site.connection.history.notifications ++ [.connection .connected] := by
          simp [Site.connectionEstablished]
        rw [TcpConnection.connectionCalls_append added, reported, connecting]
        rfl
  · have connecting := effect.state_moves.connecting_iff establishes
    cases effect.reports with
    | nothing disconnected same =>
        rw [TcpConnection.connectionCalls, same, TcpState.reported_congr connecting disconnected]
        exact reported
    | up caller => exact absurd caller establishes
    | down wasOpen closed added =>
        rw [TcpConnection.connectionCalls_append added, reported, closed]
        cases state : site.connection.state with
        | connecting => simp [closed, state] at connecting
        | connected | disconnecting => rfl
        | disconnected => exact absurd state wasOpen
    | message _ same added =>
        rw [TcpConnection.connectionCalls_append added, reported, same]
        simp

end Lifecycle

/-- Whether the connection is closed, as a number. -/
def TcpConnection.closed (connection : TcpConnection Thread) : Nat :=
  if connection.state = .disconnected then 1 else 0

namespace World

variable {guard : Thread → Task → Choice Thread → World Thread → Prop} {id : Nat} {base : Thread}
  {world : World Thread} {before after : Multiset (Located Thread Task)}
  {connection : TcpConnection Thread}

/-- `on_close_` comes into flight when the connection becomes closed. -/
theorem ConnectionView.onClose_le (lifecycle : Lifecycle id base (world.connections id) before)
    (view : ConnectionView guard id world before connection after) :
    inFlight (.onClose id) after + (world.connections id).closed ≤
      inFlight (.onClose id) before + connection.closed := by
  cases view with
  | @beside gone new rest connection untouched _ external =>
      obtain ⟨_, _, _, _, _, _, -, rfl⟩ := untouched
      have none : inFlight (.onClose id) new = 0 := by
        rw [inFlight_eq_zero]
        rintro located member same
        have internal := external located member
        rw [same] at internal
        cases internal
      rw [inFlight_add, inFlight_add, none]
      change _ + (world.connections id).closed ≤ _ + (world.connections id).closed
      omega
  | @own thread choice task site calls rest _ _ effect =>
      have remains : (world.connections id).closed ≤ site.connection.closed := by
        unfold TcpConnection.closed
        split
        case isTrue closed => simp [lifecycle.disconnected effect closed]
        case isFalse => exact Nat.zero_le _
      rw [inFlight_add, inFlight_add, effect.inFlight_onClose]
      split
      case isTrue closing =>
        obtain ⟨rfl, isOpen⟩ := closing
        have closes : site.connection.closed = 1 := by
          cases effect with
          | closes => rfl
          | closeSkipped notConnected notDisconnecting =>
              exact absurd isOpen (by simp [notConnected, notDisconnecting])
        have wasOpen : (world.connections id).closed = 0 := by
          rcases isOpen with state | state <;>
            simp [TcpConnection.closed, show (world.connections id).state = _ from state]
        omega
      case isFalse => omega

variable [Fintype Thread] {machine next : Machine (World Thread) Thread Task}

/-- In every run, what `on_connection_` has been called with is given by the state,
and `on_close_` is called once, after the connection was closed. -/
structure Paired (id : Nat) (connection : TcpConnection Thread)
    (flight : Multiset (Located Thread Task)) : Prop where
  reported : connection.connectionCalls = connection.state.reported
  leaving : inFlight (.onClose id) flight ≤ connection.closed

/-- State and notifications belong together in every run. -/
theorem reachable_paired (reachable : system.Reachable (Machine.onExec guard) machine)
    (created : id < machine.client.created) :
    Paired id (machine.client.connections id) (tokens id machine.flight) := by
  refine (reachable_lifecycle id (fun _ => Paired id) ?_ ?_ reachable created).2
  · rintro base _ ⟨loop, name, fd, onWriteComplete, rfl⟩
    exact ⟨rfl, by simp⟩
  · intro machine before connection after _ _ lifecycle step paired
    have balance := step.view.onClose_le lifecycle
    have leaving := paired.leaving
    refine ⟨?_, by omega⟩
    cases step.view with
    | beside untouched =>
        obtain ⟨_, _, _, _, _, _, -, rfl⟩ := untouched
        exact paired.reported
    | own _ _ effect => exact lifecycle.connectionCalls effect paired.reported

/-- The state moves forward along every run. -/
theorem steps_rank_le {finish : Machine (World Thread) Thread Task}
    {labels : List (Label Thread (Choice Thread))}
    (reachable : system.Reachable (Machine.onExec guard) machine)
    (created : id < machine.client.created)
    (steps : system.Steps (Machine.onExec guard) machine labels finish) :
    (machine.client.connections id).state.rank ≤ (finish.client.connections id).state.rank := by
  refine (steps_lifecycle (fun connection _ =>
    (machine.client.connections id).state.rank ≤ connection.state.rank) ?_ reachable created steps
    le_rfl).2
  intro world before connection after lifecycle step risen
  cases step.view with
  | beside untouched =>
      obtain ⟨_, _, _, _, _, _, -, rfl⟩ := untouched
      exact risen
  | own _ _ effect => exact risen.trans (effect.state_moves.rank_le lifecycle.establishes)

/-- A closed connection that does not wait for `on_close_` never calls it again. -/
theorem steps_onClose {finish : Machine (World Thread) Thread Task}
    {labels : List (Label Thread (Choice Thread))}
    (reachable : system.Reachable (Machine.onExec guard) machine)
    (created : id < machine.client.created)
    (closed : (machine.client.connections id).closed = 1)
    (none : inFlight (.onClose id) (tokens id machine.flight) = 0)
    (steps : system.Steps (Machine.onExec guard) machine labels finish) :
    inFlight (.onClose id) (tokens id finish.flight) = 0 := by
  refine (steps_lifecycle (fun connection flight =>
    connection.closed = 1 ∧ inFlight (.onClose id) flight = 0) ?_ reachable created steps
    ⟨closed, none⟩).2.2
  rintro world before connection after lifecycle step ⟨closed, none⟩
  have balance := step.view.onClose_le lifecycle
  have most : connection.closed ≤ 1 := by
    unfold TcpConnection.closed
    split <;> omega
  omega

/-- Where `on_close_` is called the connection is closed, and then it does not wait for
it any more. -/
theorem executing_onClose {label : Label Thread (Choice Thread)} {choice : Choice Thread}
    (reachable : system.Reachable (Machine.onExec guard) machine)
    (created : id < machine.client.created)
    (executed : machine.executing label = some (.onClose id, choice))
    (stepped : system.step machine label = some next) :
    (machine.client.connections id).state = .disconnected ∧
      next.client.created = machine.client.created ∧
      next.client.connections = machine.client.connections ∧
      inFlight (.onClose id) (tokens id next.flight) = 0 := by
  obtain ⟨calls, rest, ran, before, after⟩ := Machine.executing_flight executed stepped
  have leaving := (reachable_paired reachable created).leaving
  rw [inFlight_tokens _ (by simp [Task.about]), before, inFlight_add, inFlight_singleton,
    if_pos rfl] at leaving
  unfold TcpConnection.closed at leaving
  split at leaving
  case isFalse => omega
  case isTrue closed =>
    have none : inFlight (.onClose id) rest = 0 := by omega
    rw [inFlight_tokens _ (by simp [Task.about]), after, inFlight_add, none]
    have executes : Executes label.thread choice machine.client (.onClose id) next.client calls :=
      exec_executes ran
    generalize next.client = world at executes
    cases executes with
    | onClose => exact ⟨closed, rfl, rfl, by simp [Call.flight]⟩
    | onCloseDead => exact ⟨closed, rfl, rfl, by simp⟩

/-- A step of another thread does not open or close the connection. -/
theorem step_isOpen_iff {label : Label Thread (Choice Thread)}
    (reachable : system.Reachable (Machine.onExec guard) machine)
    (created : id < machine.client.created) (stepped : system.step machine label = some next)
    (elsewhere : label.thread ≠ (machine.client.connections id).loop) :
    (next.client.connections id).state.isOpen ↔ (machine.client.connections id).state.isOpen := by
  refine step_lifecycle (fun connection => connection.state.isOpen ↔ _) ?_ reachable created stepped
    .rfl
  intro before connection after lifecycle view
  cases view with
  | beside untouched =>
      obtain ⟨_, _, _, _, _, _, -, rfl⟩ := untouched
      exact .rfl
  | own admitted _ effect =>
      refine effect.state_moves.isOpen_iff (Bool.eq_false_iff.mpr fun inLoop => elsewhere ?_)
      rw [← admitted.1]
      exact lifecycle.here inLoop

/-- The first call of `on_connection_` is that of `ConnectionEstablished`. -/
theorem step_first_call {label : Label Thread (Choice Thread)}
    (reachable : system.Reachable (Machine.onExec guard) machine)
    (created : id < machine.client.created) (stepped : system.step machine label = some next)
    (none : (machine.client.connections id).connectionCalls = []) :
    (next.client.connections id).connectionCalls ≠ [] →
      ∃ choice, machine.executing label = some (.connection id .connectionEstablished, choice) := by
  have reported := (reachable_paired reachable created).reported
  have connecting : (machine.client.connections id).state = .connecting :=
    TcpState.reported_eq_nil.mp (reported.symm.trans none)
  refine step_lifecycle (fun connection => connection.connectionCalls ≠ [] →
    ∃ choice, machine.executing label = some (.connection id .connectionEstablished, choice)) ?_
    reachable created stepped (absurd none)
  intro before connection after lifecycle view called
  cases view with
  | beside untouched =>
      obtain ⟨_, _, _, _, _, _, -, rfl⟩ := untouched
      exact absurd none called
  | @own thread choice task site calls rest admitted _ effect =>
      by_contra other
      have notEstablished : task ≠ .connectionEstablished := by
        rintro rfl
        exact other ⟨choice, admitted.2⟩
      have still := (effect.state_moves.connecting_iff notEstablished).mpr connecting
      rw [lifecycle.connectionCalls effect reported, still] at called
      exact called rfl

/-- In every run `state_` moves forward only, and a step of another thread leaves the
test of `handle_close` as it is; `on_connection_` is called first by
`ConnectionEstablished` and a second time as the state becomes `Disconnected`, and no
more; `on_close_` is called after that and never again. -/
theorem forward_and_paired (reachable : system.Reachable LabelledSystem.unguarded machine)
    (created : id < machine.client.created) :
    (∀ labels finish, system.Steps LabelledSystem.unguarded machine labels finish →
      (machine.client.connections id).state.rank ≤ (finish.client.connections id).state.rank) ∧
    (∀ label next, system.step machine label = some next →
      label.thread ≠ (machine.client.connections id).loop →
        ((next.client.connections id).state.isOpen ↔
          (machine.client.connections id).state.isOpen)) ∧
    (machine.client.connections id).connectionCalls =
      (machine.client.connections id).state.reported ∧
    (∀ label next, system.step machine label = some next →
      (machine.client.connections id).connectionCalls = [] →
      (next.client.connections id).connectionCalls ≠ [] →
        ∃ choice, machine.executing label = some (.connection id .connectionEstablished, choice)) ∧
    (∀ label choice next, machine.executing label = some (.onClose id, choice) →
      system.step machine label = some next →
        (machine.client.connections id).connectionCalls =
            [.connection .connected, .connection .disconnected] ∧
        ∀ labels finish, system.Steps LabelledSystem.unguarded next labels finish →
          ∀ (later : Label Thread (Choice Thread)) answers,
            finish.executing later ≠ some (.onClose id, answers)) := by
  have reached := reachable.weaken Machine.onExec_of_unguarded
  have paired := reachable_paired reached created
  refine ⟨fun labels finish steps => ?_, ?_, paired.reported, ?_, ?_⟩
  · exact steps_rank_le reached created (steps.weaken Machine.onExec_of_unguarded)
  · exact fun label next stepped elsewhere => step_isOpen_iff reached created stepped elsewhere
  · exact fun label next stepped none => step_first_call reached created stepped none
  · intro label choice next executed stepped
    obtain ⟨closed, sameCreated, sameConnections, none⟩ :=
      executing_onClose reached created executed stepped
    refine ⟨by rw [paired.reported, closed]; rfl, fun labels finish steps later answers again => ?_⟩
    have nextReached := reached.step (Machine.onExec_of_unguarded _ _ trivial) stepped
    have isClosed : (next.client.connections id).closed = 1 := by
      rw [sameConnections, TcpConnection.closed, if_pos closed]
    have never := steps_onClose nextReached (sameCreated ▸ created) isClosed none
      (steps.weaken Machine.onExec_of_unguarded)
    rw [inFlight_tokens _ (by simp [Task.about]), inFlight_eq_zero] at never
    exact never _ (Machine.executing_mem_flight again) rfl

/-- After a message the peer has closed, user code has been told, and `on_close_` is
next. -/
theorem forward_and_paired_messageThenClose :
    ∃ machine next : Machine (World TwoThreads) TwoThreads Task,
      (machine.client.connections 0).connectionCalls =
        [.connection .connected, .connection .disconnected] ∧
      (∃ choice, machine.executing (turn 0 {}) = some (.onClose 0, choice)) ∧
      system.step machine (turn 0 {}) = some next ∧
      ∀ labels finish, system.Steps LabelledSystem.unguarded next labels finish →
        ∀ (later : Label TwoThreads (Choice TwoThreads)) answers,
          finish.executing later ≠ some (.onClose 0, answers) := by
  let machine := (system.run LabelledSystem.unguarded serverOnZero
    (messageThenClose ++ turns 0 1)).get (by decide +kernel)
  let next := (system.step machine (turn 0 {})).get (by decide +kernel)
  have reachable : system.Reachable LabelledSystem.unguarded machine :=
    LabelledSystem.run_reachable serverOnZero_initial (Option.some_get _).symm
  have created : 0 < machine.client.created := by decide +kernel
  have closing : (machine.executing (turn 0 {})).map Prod.fst = some (.onClose 0) := by
    decide +kernel
  obtain ⟨⟨task, choice⟩, executing, rfl⟩ := Option.map_eq_some_iff.mp closing
  have stepped : system.step machine (turn 0 {}) = some next := (Option.some_get _).symm
  obtain ⟨-, -, -, -, closes⟩ := forward_and_paired reachable created
  obtain ⟨reported, never⟩ := closes _ _ next executing stepped
  exact ⟨machine, next, reported, ⟨choice, executing⟩, stepped, never⟩

end World

end Benet
