import Benet.Server.Closing
import Benet.Server.HalfClose

/-!
# Pending output

`send_in_loop` and `handle_write` change the output buffer and the write event in
different branches, and the read side rewrites the same mask. In every run the write
event is on exactly while bytes are waiting, until the connection is closed, and then it
is off. So `handle_write` always has something to send, and waiting bytes always have
their entry in the poller as long as the channel is there
(`World.pending_output_has_write_event`).
-/

namespace Benet

open EventLoop Semantics

variable {Thread : Type}

/-- The write event in relation to the output buffer and to the poller. -/
structure TcpConnection.Pending (connection : TcpConnection Thread) : Prop where
  waiting : connection.state ≠ .disconnected →
    (connection.channel.isWriteEvent = true ↔ connection.outputBuffer.content ≠ [])
  closed : connection.state = .disconnected → connection.channel.isWriteEvent = false
  added : connection.channel.events ≠ kNoneEvent →
    connection.channel.index = .kAddedChannel ∨ 0 < connection.history.removed

/-- A new connection has no output. -/
theorem TcpConnection.Pending.fresh {connection : TcpConnection Thread}
    (isFresh : connection.Fresh) : connection.Pending := by
  obtain ⟨loop, name, fd, onWriteComplete, rfl⟩ := isFresh
  constructor <;> simp [Channel.isWriteEvent]

variable [DecidableEq Thread]

namespace Site

variable {thread : Thread} {id : Nat} {answers : Answers} {site next : Site Thread}
  {calls : List (Call Thread Task)} {task : ConnectionTask}

/-- In a connection that is not closed, what a task leaves waiting has the write event. -/
theorem Effect.waiting (effect : Effect thread id answers site task next calls)
    (isOpen : next.connection.state ≠ .disconnected)
    (waiting : site.connection.channel.isWriteEvent = true ↔
      site.connection.outputBuffer.content ≠ []) :
    next.connection.channel.isWriteEvent = true ↔ next.connection.outputBuffer.content ≠ [] := by
  cases effect with
  | sendPartly | sendBuffered =>
      rw [appendRemaining_isWriteEvent, appendRemaining_content, Bool.or_eq_true, Ne,
        List.append_eq_nil_iff, not_and_or]
      exact or_congr (by simpa using waiting) (by simp)
  | writePartly writing _ left => exact iff_of_true (by simpa using writing) (by simpa using left)
  | writeDrains _ _ empty => simp [Channel.isWriteEvent, empty]
  | destroyedConnected | closes => exact absurd rfl isOpen
  | startReadEnabled | stopReadDisabled => simpa [Channel.isWriteEvent] using waiting
  | connectionEstablished =>
      simpa [Channel.isWriteEvent, Site.connectionEstablished] using waiting
  | removeFromLoop =>
      simpa [Channel.isWriteEvent, Site.removeFromLoop, EPoller.removeChannel] using waiting
  | shutdownInLoop | shutdownDrained =>
      rw [shutdownWriteIfDrained_connection]
      exact waiting
  | eventReads _ reads | afterCloseEvent reads => cases reads <;> simpa using waiting
  | _ => simpa using waiting

/-- A channel with events has been registered, and `RemoveFromLoop` keeps count. -/
theorem Effect.added (effect : Effect thread id answers site task next calls)
    (added : site.connection.channel.events ≠ kNoneEvent →
      site.connection.channel.index = .kAddedChannel ∨ 0 < site.connection.history.removed)
    (events : next.connection.channel.events ≠ kNoneEvent) :
    next.connection.channel.index = .kAddedChannel ∨ 0 < next.connection.history.removed := by
  by_cases removes : task = .removeFromLoop
  · subst removes
    cases effect with
    | removeFromLoop => exact .inr (Nat.succ_pos _)
  · rw [effect.removed_eq removes]
    cases effect.updates removes with
    | kept channel =>
        rw [channel] at events ⊢
        exact added events
    | updated _ channel =>
        rw [channel, EPoller.updateChannel_events] at events
        rw [channel, EPoller.updateChannel_index, if_neg fun deleted => events deleted.2]
        exact .inl rfl

/-- Closing switches the write event off, and afterwards nothing switches it on. -/
theorem Effect.idle (effect : Effect thread id answers site task next calls)
    (closed : next.connection.state = .disconnected)
    (idle : site.connection.state = .disconnected → site.connection.channel.isWriteEvent = false) :
    next.connection.channel.isWriteEvent = false := by
  cases effect with
  | shutdownBegun | forceCloseBegun | connectionEstablished => cases closed
  | sendPartly state | sendBuffered state =>
      rw [appendRemaining_state] at closed
      exact absurd (state.symm.trans closed) (by simp)
  | writeDrains => simp [Channel.isWriteEvent]
  | destroyedConnected | closes => simp [Channel.isWriteEvent]
  | startReadEnabled | stopReadDisabled => simpa [Channel.isWriteEvent] using idle closed
  | removeFromLoop => exact idle closed
  | shutdownInLoop | shutdownDrained =>
      rw [shutdownWriteIfDrained_connection] at closed ⊢
      exact idle closed
  | eventReads _ reads | afterCloseEvent reads => cases reads <;> exact idle closed
  | _ => exact idle closed

/-- A task of the connection keeps the write event with the output. -/
theorem Effect.pending {base : Thread} {rest : Multiset (Located Thread Task)}
    (effect : Effect thread id answers site task next calls) (pending : site.connection.Pending)
    (lifecycle : Lifecycle id base site.connection ({(thread, .connection id task)} + rest)) :
    next.connection.Pending := by
  refine ⟨fun isOpen => effect.waiting isOpen (pending.waiting fun closed => isOpen ?_),
    fun closed => effect.idle closed pending.closed, effect.added pending.added⟩
  exact lifecycle.disconnected effect closed

end Site

namespace World

variable {guard : Thread → Task → Choice Thread → World Thread → Prop} [Fintype Thread]
  {machine : Machine (World Thread) Thread Task} {id : Nat}

/-- The write event goes with the output in every run. -/
theorem reachable_pending (reachable : system.Reachable (Machine.onExec guard) machine)
    (created : id < machine.client.created) : (machine.client.connections id).Pending := by
  refine (reachable_lifecycle id (fun _ connection _ => connection.Pending) ?_ ?_ reachable
    created).2
  · exact fun _ _ isFresh => .fresh isFresh
  · intro machine before connection after _ _ lifecycle step pending
    cases step.view with
    | beside untouched =>
        obtain ⟨_, _, _, _, _, _, -, rfl⟩ := untouched
        exact ⟨pending.waiting, pending.closed, pending.added⟩
    | own _ _ effect => exact effect.pending pending lifecycle

/-- In every run, for every connection that is not closed: the write event is on if and
only if the output buffer has readable bytes; `handle_write` does not send nothing, in
any state; and waiting bytes have their entry with `EPOLLOUT` in the kernel's interest
set, until `ConnectionDestroyed` takes the channel out of its loop. -/
theorem pending_output_has_write_event
    (reachable : system.Reachable LabelledSystem.unguarded machine)
    (created : id < machine.client.created) :
    ((machine.client.connections id).state ≠ .disconnected →
      ((machine.client.connections id).channel.isWriteEvent = true ↔
        0 < (machine.client.connections id).outputBuffer.buffer.readableBytes)) ∧
    (ConnectionTask.handleWrite.sends (machine.client.connections id) = true →
      0 < (machine.client.connections id).outputBuffer.buffer.readableBytes) ∧
    ((machine.client.connections id).state ≠ .disconnected →
      (machine.client.connections id).history.removed = 0 →
      0 < (machine.client.connections id).outputBuffer.buffer.readableBytes →
        ∃ events, EventMask.has events epollOut = true ∧
          (machine.client.pollers (machine.client.connections id).loop).interest
            (machine.client.connections id).channel.fd = some ⟨id, events⟩) := by
  have reached := reachable.weaken Machine.onExec_of_unguarded
  have pending := reachable_pending reached created
  have waiting : (machine.client.connections id).state ≠ .disconnected →
      ((machine.client.connections id).channel.isWriteEvent = true ↔
        0 < (machine.client.connections id).outputBuffer.buffer.readableBytes) := by
    rw [Buffer.Valid.readableBytes_eq, List.length_pos_iff]
    exact pending.waiting
  refine ⟨waiting, fun sends => ?_, fun isOpen linked bytes => ?_⟩
  · refine (waiting fun closed => ?_).mp sends
    exact absurd sends (by simp [ConnectionTask.sends, pending.closed closed])
  · have writing := (waiting isOpen).mpr bytes
    have events : (machine.client.connections id).channel.events ≠ kNoneEvent := by
      intro none
      simp [Channel.isWriteEvent, none] at writing
    have added := (pending.added events).resolve_right (by omega)
    have interest := ((reachable_registered reached).tracks id created).interest
    rw [if_pos added] at interest
    exact ⟨_, writing, interest⟩

/-- The kernel takes one of three bytes, and then user code stops reading. -/
def stopReadWhileBuffered : List (Label TwoThreads (Choice TwoThreads)) :=
  userTurn ++ [turn 0 { action := .call 0 (.send [1, 2, 3]) }] ++ turns 0 1 ++
    [turn 0 { answers := { send := .wrote 1 .other } },
      turn 0 { action := .call 0 .stopRead }] ++ turns 0 3

/-- `StopRead` with bytes in the buffer leaves the write event. -/
theorem pending_output_stopReadWhileBuffered :
    ∃ machine : Machine (World TwoThreads) TwoThreads Task,
      (machine.client.connections 0).state = .connected ∧
      (machine.client.connections 0).channel.isReadEvent = false ∧
      (machine.client.connections 0).outputBuffer.content = [2, 3] ∧
      (machine.client.connections 0).channel.isWriteEvent = true ∧
      ∃ events, EventMask.has events epollOut = true ∧
        (machine.client.pollers 0).interest (machine.client.connections 0).channel.fd =
          some ⟨0, events⟩ := by
  let machine := (system.run LabelledSystem.unguarded serverOnZero stopReadWhileBuffered).get
    (by decide +kernel)
  have reachable : system.Reachable LabelledSystem.unguarded machine :=
    LabelledSystem.run_reachable serverOnZero_initial (Option.some_get _).symm
  have created : 0 < machine.client.created := by decide +kernel
  have state : (machine.client.connections 0).state = .connected := by decide +kernel
  have isOpen : (machine.client.connections 0).state ≠ .disconnected := by simp [state]
  have bytes : 0 < (machine.client.connections 0).outputBuffer.buffer.readableBytes := by
    decide +kernel
  obtain ⟨waiting, -, entered⟩ := pending_output_has_write_event reachable created
  have entry := entered isOpen (by decide +kernel) bytes
  have loop : (machine.client.connections 0).loop = 0 := by decide +kernel
  rw [loop] at entry
  exact ⟨machine, state, by decide +kernel, by decide +kernel, (waiting isOpen).mpr bytes, entry⟩

end World

end Benet
