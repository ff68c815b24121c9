import Benet.Poller.Bookkeeping
import Benet.Server.ActiveChannels

/-!
# Channels without events

`UpdateChannel` looks at the index first, and at an empty mask only in a channel that is
registered: a new or deleted channel is registered even when its mask is empty. The
kernel reports `EPOLLHUP` and `EPOLLERR` for such a channel as well. So a channel
without events is out of the interest set exactly when it was in it before, clearing
the events twice puts it back, and `handle_close` ends the events of a connection only
if its channel is registered and no entry of it waits in an active list
(`World.unwatched_iff`).
-/

namespace Benet

open EventLoop Semantics

namespace ChannelSet

variable {state next : ChannelSet} {owner : Nat} {operation : ChannelOperation}
  {events : EventMask}

/-- The descriptor of the channel is in the interest set. -/
def Watched (state : ChannelSet) (owner : Nat) : Prop :=
  state.poller.interest (state.channels owner).fd ≠ none

/-- A channel is watched exactly when its index says that it was added. -/
theorem Booked.watched_iff (booked : Booked state) :
    state.Watched owner ↔ (state.channels owner).index = .kAddedChannel :=
  (booked.tracks owner).watched_iff

/-- What `update_events` makes of the channel. -/
theorem step_channel (stepped : state.step (owner, operation) = some next)
    (stores : operation.events (state.channels owner).events = some events) :
    next.channels owner =
      (state.poller.updateChannel owner { state.channels owner with events }).1 := by
  simp only [step, stores] at stepped
  cases stepped
  simp [set]

/-- The channel is in the interest set after the call, unless it was before and has no
events any more. -/
theorem Booked.step_watched (booked : Booked state)
    (stepped : state.step (owner, operation) = some next)
    (stores : operation.events (state.channels owner).events = some events) :
    (next.channels owner).events = events ∧
      (next.Watched owner ↔ ¬(state.Watched owner ∧ events = kNoneEvent)) := by
  rw [(booked.step stepped).watched_iff, booked.watched_iff, step_channel stepped stores,
    EPoller.updateChannel_index]
  refine ⟨EPoller.updateChannel_events .., ?_⟩
  split
  case isTrue deleted => exact iff_of_false nofun fun kept => kept deleted
  case isFalse kept => exact iff_of_true rfl kept

/-- Clearing the events of a channel twice in a row registers it if the first time has
taken it out, and takes it out if the first time has registered it. -/
theorem disableAllEvent_twice {once twice : ChannelSet} (booked : Booked state)
    (first : state.step (owner, .disableAllEvent) = some once)
    (second : once.step (owner, .disableAllEvent) = some twice) :
    twice.Watched owner ↔ ¬once.Watched owner := by
  rw [((booked.step first).step_watched second rfl).2]
  simp

end ChannelSet

namespace World

variable {Thread : Type} [DecidableEq Thread] [Fintype Thread]
  {guard : Thread → Task → Choice Thread → World Thread → Prop} {id : Nat}
  {machine next finish : Machine (World Thread) Thread Task}
  {label : Label Thread (Choice Thread)} {labels : List (Label Thread (Choice Thread))}
  {choice : Choice Thread}

/-- No function calls `UpdateChannel` for the connection once it is closed. -/
def LeftAlone (id : Nat) (_ : Thread) (task : Task) (_ : Choice Thread) (world : World Thread) :
    Prop :=
  match task with
  | .connection other own => other = id → (world.connections id).state = .disconnected →
      ¬(world.connections id).Updates own
  | .user | .newConnection | .onClose _ | .removeConnection _ | .destroyServer => True

omit [Fintype Thread] in
instance (thread : Thread) (task : Task) (choice : Choice Thread) (world : World Thread) :
    Decidable (LeftAlone id thread task choice world) :=
  match task with
  | .connection other own => inferInstanceAs (Decidable (other = id →
      (world.connections id).state = .disconnected → ¬(world.connections id).Updates own))
  | .user | .newConnection | .onClose _ | .removeConnection _ | .destroyServer => .isTrue trivial

/-- `Poll` in some thread may return the channel of the connection. -/
def Polled (id : Nat) (world : World Thread) : Prop :=
  ∃ thread revents, world.pollable thread (.channel (.connection id (.handleEvent revents))) = true

omit [Fintype Thread] in
/-- A connection can be polled exactly when the index of its channel says that it was added. -/
theorem Registered.polled_iff {world : World Thread} (registered : world.Registered)
    (created : id < world.created) :
    world.Polled id ↔ (world.connections id).channel.index = .kAddedChannel := by
  have interest := (registered.tracks id created).interest
  constructor
  · rintro ⟨thread, revents, polled⟩
    simp only [World.pollable, Bool.and_eq_true, decide_eq_true_eq] at polled
    obtain ⟨⟨-, rfl⟩, found⟩ := polled
    by_contra other
    rw [if_neg other] at interest
    simp [interest] at found
  · intro added
    rw [if_pos added] at interest
    exact ⟨(world.connections id).loop, 0, by simp [pollable, created, interest]⟩

omit [Fintype Thread] in
/-- An event of the connection arrives only when `Poll` may return its channel. -/
theorem Arrives.polled {world : World Thread} {arrived : Multiset (Located Thread Task)}
    (brought : client.Arrives world arrived) {thread : Thread} {revents : EventMask}
    (member : (thread, .connection id (.handleEvent revents)) ∈ arrived) : world.Polled id := by
  cases brought with
  | none => cases Multiset.notMem_zero _ member
  | user => cases Multiset.mem_singleton.mp member
  | polled returned =>
      obtain ⟨handler, inActives, same⟩ := Active.mem_flights.mp member
      cases same
      exact ⟨thread, revents, poll_pollable returned _ inActives⟩

/-- A closed connection that is out of the interest set stays out of it when it is left
alone. -/
theorem steps_unwatched (reachable : system.Reachable (Machine.onExec guard) machine)
    (created : id < machine.client.created)
    (closed : (machine.client.connections id).state = .disconnected)
    (out : (machine.client.connections id).channel.index ≠ .kAddedChannel)
    (steps : system.Steps (Machine.onExec (LeftAlone id)) machine labels finish) :
    id < finish.client.created ∧
      (finish.client.connections id).channel.index ≠ .kAddedChannel := by
  have kept := steps_lifecycle (fun connection _ => connection.state = .disconnected ∧
    connection.channel.index ≠ .kAddedChannel) ?_ reachable created steps ⟨closed, out⟩
  · exact ⟨kept.1, kept.2.2⟩
  · rintro world before connection after lifecycle step ⟨closed, out⟩
    cases step.view with
    | beside untouched =>
        obtain ⟨_, _, _, _, _, _, -, rfl⟩ := untouched
        exact ⟨closed, out⟩
    | @own thread choice task site calls rest admitted _ effect =>
        refine ⟨lifecycle.disconnected effect closed, ?_⟩
        by_cases removes : task = .removeFromLoop
        · subst removes
          cases effect with
          | removeFromLoop => exact nofun
        · rw [effect.channel_kept (admitted rfl closed) removes]
          exact out

/-- Then no event of it arrives, and one that is not on its way is never delivered. -/
theorem steps_undelivered (reachable : system.Reachable (Machine.onExec guard) machine)
    (created : id < machine.client.created)
    (closed : (machine.client.connections id).state = .disconnected)
    (out : (machine.client.connections id).channel.index ≠ .kAddedChannel)
    (none : ∀ thread revents, (thread, .connection id (.handleEvent revents)) ∉ machine.flight)
    (steps : system.Steps (Machine.onExec (LeftAlone id)) machine labels finish)
    (thread : Thread) (revents : EventMask) :
    (thread, .connection id (.handleEvent revents)) ∉ finish.flight := by
  induction steps with
  | refl => exact none thread revents
  | @step _ middle _ _ steps admitted stepped inductionHypothesis =>
      obtain ⟨middleCreated, middleOut⟩ := steps_unwatched reachable created closed out steps
      have middleReached := (reachable.weaken
        fun machine label _ => machine.onExec_of_unguarded label trivial).steps
          (steps.weaken fun machine label _ => machine.onExec_of_unguarded label trivial)
      intro member
      cases Machine.guardedStep client_prompt middleReached admitted stepped with
      | executes before _ _ executed after =>
          rw [after, Multiset.mem_add] at member
          rcases member with new | old
          · exact client_roots.flights executed ⟨id, revents, rfl⟩ new
          · exact inductionHypothesis (before ▸ Multiset.mem_add.mpr (.inr old))
      | arrives _ brought after =>
          rw [after, Multiset.mem_add] at member
          rcases member with new | old
          · have polled : middle.client.Polled id := Arrives.polled brought new
            exact middleOut (((reachable_registered middleReached).polled_iff middleCreated).mp
              polled)
          · exact inductionHypothesis old

/-- While `handle_close` is executed, an event of the connection is on its way only as an
entry of an active list. -/
theorem handleClose_alone (reachable : system.Reachable (Machine.onExec guard) machine)
    (created : id < machine.client.created)
    (executed : machine.executing label = some (.connection id .handleClose, choice))
    (none : ∀ thread revents,
      .channel (.connection id (.handleEvent revents)) ∉ (machine.loops thread).actives)
    (thread : Thread) (revents : EventMask) :
    (thread, .connection id (.handleEvent revents)) ∉ machine.flight := by
  intro member
  have lifecycle := lifecycle id reachable created
  have there : thread = (machine.client.connections id).loop :=
    lifecycle.placed _ ((mem_tokens id).mpr ⟨member, by simp [Task.about]⟩) rfl
  have here : label.thread = (machine.client.connections id).loop :=
    lifecycle.placed _ ((mem_tokens id).mpr
      ⟨Machine.executing_mem_flight executed, by simp [Task.about]⟩) rfl
  rcases Machine.root_waits client_roots reachable ⟨id, revents, rfl⟩ member with called | active
  · obtain ⟨stack, -, top, -⟩ := Machine.executing_top executed
    rw [here, ← there, called] at top
    cases top
  · exact none thread revents active

/-- And `handle_close` puts none on its way. -/
theorem handleClose_leaves (reachable : system.Reachable (Machine.onExec guard) machine)
    (created : id < machine.client.created)
    (executed : machine.executing label = some (.connection id .handleClose, choice))
    (stepped : system.step machine label = some next)
    (none : ∀ thread revents,
      .channel (.connection id (.handleEvent revents)) ∉ (machine.loops thread).actives)
    (thread : Thread) (revents : EventMask) :
    (thread, .connection id (.handleEvent revents)) ∉ next.flight := by
  obtain ⟨calls, rest, ran, before, after⟩ := Machine.executing_flight executed stepped
  intro member
  rw [after, Multiset.mem_add] at member
  rcases member with new | old
  · exact client_roots.flights ran ⟨id, revents, rfl⟩ new
  · exact handleClose_alone reachable created executed none thread revents
      (before ▸ Multiset.mem_add.mpr (.inr old))

omit [Fintype Thread] in
/-- `handle_close` clears the events of an open connection. -/
theorem executing_closes
    (executed : machine.executing label = some (.connection id .handleClose, choice))
    (stepped : system.step machine label = some next)
    (isOpen : (machine.client.connections id).state = .connected ∨
      (machine.client.connections id).state = .disconnecting) :
    next.client.created = machine.client.created ∧
      (next.client.connections id).state = .disconnected ∧
      ((next.client.connections id).channel.index = .kAddedChannel ↔
        (machine.client.connections id).channel.index ≠ .kAddedChannel) := by
  obtain ⟨site, calls, effect, after⟩ := executing_effect executed stepped
  rw [after, setSite_connections_self]
  refine ⟨rfl, ?_⟩
  cases effect with
  | closeSkipped notConnected notDisconnecting =>
      exact absurd isOpen (not_or.mpr ⟨notConnected, notDisconnecting⟩)
  | closes =>
      have channel : (((machine.client.site id).assertInLoopThread label.thread).close
          id).connection.channel = ((machine.client.site id).poller.updateChannel id
            { (machine.client.connections id).channel with events := kNoneEvent }).1 := by
        simp [World.site]
      refine ⟨by simp, ?_⟩
      rw [channel, EPoller.updateChannel_index]
      by_cases added : (machine.client.connections id).channel.index = .kAddedChannel <;>
        simp [added]

/-- The three ways in which a channel without events should be out of the interest set.
After a call that changes the events, in any state of any channels of a loop: if and only
if the channel has events, or was in the set before the call. After a second
`DisableAllEvent`: if and only if it was in the set after the first, so that the two
differ. After `handle_close` of an open connection, in every run that goes on without an
`UpdateChannel` for it: the channel is never in the set again, no active list has an entry of
it and `HandleEvent` is never executed for it, if and only if it was in the set before and no
active list has an entry of it. -/
theorem unwatched_iff :
    (∀ (state next : ChannelSet) owner operation events,
      ChannelSet.system.Reachable LabelledSystem.unguarded state →
      operation.events (state.channels owner).events = some events →
      state.step (owner, operation) = some next →
        ((next.Watched owner ↔ (next.channels owner).events ≠ kNoneEvent) ↔
          events ≠ kNoneEvent ∨ state.Watched owner)) ∧
    (∀ (state once twice : ChannelSet) owner,
      ChannelSet.system.Reachable LabelledSystem.unguarded state →
      state.step (owner, .disableAllEvent) = some once →
      once.step (owner, .disableAllEvent) = some twice →
        (twice.Watched owner ↔ ¬once.Watched owner)) ∧
    ∀ (machine next : Machine (World Thread) Thread Task) id label choice,
      system.Reachable LabelledSystem.unguarded machine → id < machine.client.created →
      machine.executing label = some (.connection id .handleClose, choice) →
      ((machine.client.connections id).state = .connected ∨
        (machine.client.connections id).state = .disconnecting) →
      system.step machine label = some next →
        ((∀ labels finish, system.Steps (Machine.onExec (LeftAlone id)) next labels finish →
            ¬finish.client.Polled id ∧
            (∀ thread revents, .channel (.connection id (.handleEvent revents)) ∉
              (finish.loops thread).actives) ∧
            ∀ (label : Label Thread (Choice Thread)) revents choice,
              finish.executing label ≠ some (.connection id (.handleEvent revents), choice)) ↔
          machine.client.Polled id ∧
            ∀ thread revents, .channel (.connection id (.handleEvent revents)) ∉
              (machine.loops thread).actives) := by
  refine ⟨?_, ?_, ?_⟩
  · intro state next owner operation events reachable stores stepped
    obtain ⟨stored, watched⟩ := (ChannelSet.reachable_booked reachable).step_watched stepped stores
    rw [stored, watched]
    by_cases none : events = kNoneEvent <;> simp [none]
  · intro state once twice owner reachable first second
    exact ChannelSet.disableAllEvent_twice (ChannelSet.reachable_booked reachable) first second
  · intro machine next id label choice reachable created executed isOpen stepped
    have reached := reachable.weaken Machine.onExec_of_unguarded
    have nextReached : system.Reachable (Machine.onExec fun _ _ _ _ => True) next :=
      reached.step (machine.onExec_of_unguarded label trivial) stepped
    obtain ⟨same, closed, index⟩ := executing_closes executed stepped isOpen
    have nextCreated : id < next.client.created := same ▸ created
    rw [(reachable_registered reached).polled_iff created]
    constructor
    · intro never
      obtain ⟨unpolled, inactive, -⟩ := never [] next .refl
      constructor
      · by_contra other
        refine unpolled ?_
        rw [(reachable_registered nextReached).polled_iff nextCreated, index]
        exact other
      · obtain ⟨_, _, _, -, -, rfl⟩ := Machine.executing_step executed stepped
        exact inactive
    · rintro ⟨added, inactive⟩ labels finish steps
      have out : (next.client.connections id).channel.index ≠ .kAddedChannel :=
        fun still => index.mp still added
      have none := handleClose_leaves reached created executed stepped inactive
      have undelivered := steps_undelivered nextReached nextCreated closed out none steps
      obtain ⟨finishCreated, finishOut⟩ := steps_unwatched nextReached nextCreated closed out steps
      have finishReached := nextReached.steps
        (steps.weaken fun machine label _ => machine.onExec_of_unguarded label trivial)
      refine ⟨?_, fun thread revents active => ?_, fun label revents choice handled => ?_⟩
      · rwa [(reachable_registered finishReached).polled_iff finishCreated]
      · exact undelivered thread revents (Machine.mem_flight_of_waits (.active active))
      · exact undelivered label.thread revents (Machine.executing_mem_flight handled)

/-- The peer closes a connection that is being read. -/
def closedByPeer : List (Label TwoThreads (Choice TwoThreads)) :=
  establishOne ++ nextPoll [.channel (.connection 0 (.handleEvent epollIn))] ++
    [turn 0 { answers := { read := .received [] } }]

/-- The peer closes the connection while it is read: it is never polled or handled again. -/
theorem unwatched_closedByPeer :
    ∃ machine next : Machine (World TwoThreads) TwoThreads Task,
      (machine.executing (turn 0 {})).map (·.1) = some (.connection 0 .handleClose) ∧
      system.step machine (turn 0 {}) = some next ∧
      ∀ labels finish, system.Steps (Machine.onExec (LeftAlone 0)) next labels finish →
        ¬finish.client.Polled 0 ∧
        (∀ thread revents, .channel (.connection 0 (.handleEvent revents)) ∉
          (finish.loops thread).actives) ∧
        ∀ (label : Label TwoThreads (Choice TwoThreads)) revents choice,
          finish.executing label ≠ some (.connection 0 (.handleEvent revents), choice) := by
  let machine := (system.run LabelledSystem.unguarded serverOnZero closedByPeer).get
    (by decide +kernel)
  let next := (system.step machine (turn 0 {})).get (by decide +kernel)
  have reachable : system.Reachable LabelledSystem.unguarded machine :=
    LabelledSystem.run_reachable serverOnZero_initial (Option.some_get _).symm
  have executes : (machine.executing (turn 0 {})).map (·.1) = some (.connection 0 .handleClose) := by
    decide +kernel
  obtain ⟨⟨task, choice⟩, executed, rfl⟩ := Option.map_eq_some_iff.mp executes
  have stepped : system.step machine (turn 0 {}) = some next := (Option.some_get _).symm
  have polled : machine.client.Polled 0 := ⟨0, epollIn, by decide +kernel⟩
  have handled : ∀ thread, (machine.loops thread).actives = [] := by decide +kernel
  exact ⟨machine, next, executes, stepped,
    (unwatched_iff.2.2 machine next 0 (turn 0 {}) choice reachable (by decide +kernel) executed
      (by decide +kernel) stepped).mpr ⟨polled, fun thread revents => by simp [handled thread]⟩⟩

/-- User code stops reading and then forces the connection to close. -/
def stopReadThenForceClose : List (Label TwoThreads (Choice TwoThreads)) :=
  userTurn ++ [turn 0 { action := .call 0 .stopRead }] ++ turns 0 3 ++
    [turn 0 { action := .call 0 .forceClose }] ++ turns 0 10

/-- `handle_close` has registered the channel with an empty mask; the next `Poll`
reports a hang-up, and the closed connection is handed the event. -/
theorem watched_after_close :
    ∃ machine : Machine (World TwoThreads) TwoThreads Task,
      system.run LabelledSystem.unguarded serverOnZero stopReadThenForceClose = some machine ∧
      (machine.client.connections 0).state = .disconnected ∧
      (machine.client.connections 0).channel.events = kNoneEvent ∧
      (machine.client.pollers 0).interest (machine.client.connections 0).channel.fd =
        some ⟨0, kNoneEvent⟩ ∧
      ∃ labels finish, system.Steps (Machine.onExec (LeftAlone 0)) machine labels finish ∧
        (finish.executing (turn 0 {})).map (·.1) =
          some (.connection 0 (.handleEvent epollHup)) := by
  let machine := (system.run LabelledSystem.unguarded serverOnZero stopReadThenForceClose).get
    (by decide +kernel)
  let hangUp := turns 0 13 ++ [turn 0 { actives :=
    [.channel (.connection 0 (.handleEvent epollHup))] }] ++ turns 0 1
  let finish := (system.run (Machine.onExec (LeftAlone 0)) machine hangUp).get (by decide +kernel)
  exact ⟨machine, (Option.some_get _).symm, by decide +kernel, by decide +kernel, by decide +kernel,
    hangUp, finish, LabelledSystem.run_steps (Option.some_get _).symm, by decide +kernel⟩

end World

end Benet
