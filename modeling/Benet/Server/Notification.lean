import Benet.Server.Lifecycle

/-!
# Messages and the down notification

`on_connection_` is called with `Disconnected` once, when the state becomes
`Disconnected`, and never again. `on_message_` comes from the read branch of
`HandleEvent`, which does not look at the state: no message follows the down
notification if that branch is not taken in `Disconnected`
(`World.no_message_after_down`). It can be taken there, since the other channels
of an iteration are handled in between and the close branch comes first
(`World.message_after_down`).
-/

namespace Benet

open EventLoop Semantics

variable {Thread : Type}

/-- The task calls `handle_read`. -/
def ConnectionTask.reads : ConnectionTask → Bool
  | .handleEvent revents => !Site.closesOn revents && Site.readsOn revents
  | .afterCloseEvent revents => Site.readsOn revents
  | _ => false

/-- No message after the down notification. -/
def QuietAfterDown (notifications : List Notification) : Prop :=
  ∀ front back, notifications = front ++ .connection .disconnected :: back → .message ∉ back

/-- How often `on_connection_` was called with `Disconnected`. -/
def TcpConnection.downs (connection : TcpConnection Thread) : Nat :=
  connection.history.notifications.count (.connection .disconnected)

/-- A further notification is no message after the end. -/
theorem QuietAfterDown.append {notifications : List Notification} {latest : Notification}
    (quiet : QuietAfterDown notifications)
    (notAfter : .connection .disconnected ∈ notifications → latest ≠ .message) :
    QuietAfterDown (notifications ++ [latest]) := by
  intro front back split member
  rcases List.eq_nil_or_concat' back with rfl | ⟨others, last, rfl⟩
  · cases member
  · rw [← List.cons_append, ← List.append_assoc] at split
    obtain ⟨same, lastSame⟩ := List.append_inj' split rfl
    obtain rfl : latest = last := by simpa using lastSame
    rcases List.mem_append.mp member with earlier | isLast
    · exact quiet front others same earlier
    · refine notAfter ?_ (List.mem_singleton.mp isLast).symm
      rw [same]
      simp

/-- What a task of a connection can report, with the state around it. -/
inductive TcpConnection.Reports (task : ConnectionTask) (before after : TcpConnection Thread) :
    Prop where
  | nothing (state : after.state = .disconnected ↔ before.state = .disconnected)
      (same : after.history.notifications = before.history.notifications)
  | up (caller : task = .connectionEstablished) (state : after.state = .connected)
      (added : after.history.notifications =
        before.history.notifications ++ [.connection .connected])
  | down (wasOpen : before.state ≠ .disconnected) (state : after.state = .disconnected)
      (added : after.history.notifications =
        before.history.notifications ++ [.connection .disconnected])
  | message (caller : task.reads = true) (state : after.state = before.state)
      (added : after.history.notifications = before.history.notifications ++ [.message])

variable [DecidableEq Thread]

namespace Site

variable {thread : Thread} {id : Nat} {answers : Answers} {site next : Site Thread}
  {calls : List (Call Thread Task)} {task : ConnectionTask}

/-- What the read branch of `HandleEvent` reports. -/
theorem ReadEffect.reports {revents : EventMask} (reading : readsOn revents = task.reads)
    (effect : ReadEffect thread id revents site next calls) :
    site.connection.Reports task next.connection := by
  cases effect with
  | message reads => exact .message (reading ▸ reads) rfl rfl
  | skipped | again | endOfFile | error => exact .nothing .rfl rfl

/-- What every task reports. -/
theorem Effect.reports (effect : Effect thread id answers site task next calls) :
    site.connection.Reports task next.connection := by
  cases effect with
  | shutdownBegun state | forceCloseBegun state => exact .nothing (by simp [state]) rfl
  | sendPartly | sendBuffered => exact .nothing (by simp) (by simp)
  | shutdownInLoop | shutdownDrained =>
      rw [shutdownWriteIfDrained_connection]
      exact .nothing .rfl rfl
  | connectionEstablished => exact .up rfl rfl (by simp [Site.connectionEstablished])
  | destroyedConnected state => exact .down (by simp [state]) rfl (by simp)
  | closes state =>
      refine .down ?_ rfl (by simp)
      rcases state with connected | disconnecting
      · simp [connected]
      · simp [disconnecting]
  | eventReads closes reads => exact reads.reports (by simp [ConnectionTask.reads, closes])
  | afterCloseEvent reads => exact reads.reports rfl
  | _ => exact .nothing .rfl rfl

end Site

namespace World

variable {guard : Thread → Task → Choice Thread → World Thread → Prop} [Fintype Thread]
  {machine : Machine (World Thread) Thread Task} {id : Nat}

/-- `on_connection_` has been called with `Disconnected` exactly once if this is
the state, and otherwise not at all. -/
theorem reachable_downs (reachable : system.Reachable (Machine.onExec guard) machine)
    (created : id < machine.client.created) :
    (machine.client.connections id).downs =
      if (machine.client.connections id).state = .disconnected then 1 else 0 := by
  refine (reachable_lifecycle id
    (fun _ connection _ => connection.downs =
      if connection.state = .disconnected then 1 else 0) ?_ ?_ reachable created).2
  · rintro base _ ⟨loop, name, fd, onWriteComplete, rfl⟩
    rfl
  · intro machine before connection after _ _ lifecycle step holds
    cases step.view with
    | beside untouched =>
        obtain ⟨_, _, _, _, _, _, -, rfl⟩ := untouched
        exact holds
    | @own thread choice task site calls rest admitted unhurried effect =>
        have reports : (machine.client.connections id).Reports task site.connection := effect.reports
        unfold TcpConnection.downs at holds ⊢
        cases reports with
        | nothing state same =>
            rw [same, holds]
            simp only [state]
        | up caller state added =>
            subst caller
            rw [added, List.count_append, holds, state, lifecycle.connecting.1]
            rfl
        | down wasOpen state added =>
            rw [added, List.count_append, holds, state, if_neg wasOpen]
            rfl
        | message caller state added =>
            rw [added, List.count_append, holds, state]
            rfl

/-- `HandleEvent` takes its read branch only while the connection is not
`Disconnected`. -/
abbrev readsWhileOpen : Thread → Task → Choice Thread → World Thread → Prop :=
  onConnection fun task _ connection => task.reads = true → connection.state ≠ .disconnected

/-- No message after the down notification, in every run in which `HandleEvent`
takes its read branch only while the connection is not `Disconnected`. -/
theorem no_message_after_down
    (reachable : system.Reachable (Machine.onExec readsWhileOpen) machine)
    (created : id < machine.client.created) :
    QuietAfterDown (machine.client.connections id).history.notifications := by
  refine reachable_connection id
    (fun _ connection _ => QuietAfterDown connection.history.notifications) ?_ ?_ reachable created
  · rintro base _ ⟨loop, name, fd, onWriteComplete, rfl⟩ front back split
    simp at split
  · intro machine before connection after reached exists' step quiet
    cases step.view with
    | beside untouched =>
        obtain ⟨_, _, _, _, _, _, -, rfl⟩ := untouched
        exact quiet
    | @own thread choice task site calls rest admitted unhurried effect =>
        have reports : (machine.client.connections id).Reports task site.connection := effect.reports
        cases reports with
        | nothing _ same => rwa [same]
        | up _ _ added | down _ _ added =>
            rw [added]
            exact quiet.append (by simp)
        | message caller _ added =>
            rw [added]
            refine quiet.append fun down => absurd (reachable_downs reached exists') ?_
            have isOpen : (machine.client.connections id).state ≠ .disconnected := admitted caller
            rw [if_neg isOpen]
            exact (List.count_pos_iff.mpr down).ne'

/-- A message arrives, then the peer closes. -/
def messageThenClose : List (Label TwoThreads (Choice TwoThreads)) :=
  establishOne ++ nextPoll [.channel (.connection 0 (.handleEvent epollIn))] ++
    [turn 0 { answers := { read := .received [1] } }] ++ turns 0 1 ++
    nextPoll [.channel (.connection 0 (.handleEvent epollIn))] ++
    [turn 0 { answers := { read := .received [] } }] ++ turns 0 1

/-- A message and then the end of the stream: up, message, down. -/
theorem no_message_after_down_messageThenClose :
    ∃ machine : Machine (World TwoThreads) TwoThreads Task,
      (machine.client.connections 0).history.notifications =
        [.connection .connected, .message, .connection .disconnected] ∧
      QuietAfterDown (machine.client.connections 0).history.notifications := by
  let machine := (system.run (Machine.onExec readsWhileOpen) serverOnZero messageThenClose).get
    (by decide +kernel)
  refine ⟨machine, by decide +kernel, ?_⟩
  exact no_message_after_down
    (LabelledSystem.run_reachable serverOnZero_initial (Option.some_get _).symm) (by decide +kernel)

/-- Two connections on loop `0` become readable in one iteration. The message
callback of connection `0` sends on connection `1`, whose peer is gone: the
direct `::send` fails and `handle_close` runs inline. Then the entry of
connection `1` in the active list is handled. -/
def closeOtherInCallback : List (Label TwoThreads (Choice TwoThreads)) :=
  [⟨0, .start⟩] ++ turns 0 1 ++
    [turn 0 { actives := [.channel .newConnection, .channel .newConnection] }] ++ turns 0 1 ++
    accepting 10 ++ turns 0 1 ++ accepting 11 ++
    nextPoll [.channel (.connection 0 (.handleEvent epollIn)),
      .channel (.connection 1 (.handleEvent epollIn))] ++
    [turn 0 { answers := { read := .received [1] } }, turn 0 { action := .call 1 (.send [2]) }] ++
    turns 0 1 ++ [turn 0 { answers := { send := .failed .epipe } }] ++ turns 0 10 ++
    [turn 0 { answers := { read := .received [7] } }]

/-- Connection `1` gets a message after it was reported down. -/
theorem message_after_down :
    ∃ machine : Machine (World TwoThreads) TwoThreads Task,
      system.Reachable LabelledSystem.unguarded machine ∧ 1 < machine.client.created ∧
      (machine.client.connections 1).history.notifications =
        [.connection .connected, .connection .disconnected, .message] ∧
      ¬ QuietAfterDown (machine.client.connections 1).history.notifications := by
  let machine := (system.run LabelledSystem.unguarded serverOnZero closeOtherInCallback).get
    (by decide +kernel)
  have reported : (machine.client.connections 1).history.notifications =
      [.connection .connected, .connection .disconnected, .message] := by decide +kernel
  refine ⟨machine, LabelledSystem.run_reachable serverOnZero_initial (Option.some_get _).symm,
    by decide +kernel, reported, ?_⟩
  intro quiet
  exact quiet [.connection .connected] [.message] reported (by simp)

end World

end Benet
