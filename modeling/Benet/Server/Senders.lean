import Benet.EventLoop.ProgramOrder
import Benet.Server.Shutdown

/-!
# The messages of every thread, in its order

`Send` hands its message to `send_in_loop` at once in the loop's thread and through the queue
from any other one, so messages of different threads overtake each other. For one connection
an account is kept of who has submitted which message and of what `send_in_loop` has handled.
The messages of one thread are handled in the order of its `Send`s, none twice and none left
out, and those that are let through come before those that are turned away: the peer gets,
from each thread, the first of its messages without a gap (`World.messages_keep_program_order`).
A functor that is left in the queue of a loop whose `Start` has returned counts as in flight
for ever: `~EventLoop`, which drops it and its message, is not modelled.
-/

namespace Benet

open EventLoop Semantics

variable {Thread : Type}

/-- The task is `send_in_loop` of the connection. -/
def Task.sendsTo (id : Nat) : Task → Bool
  | .connection other (.sendInLoop _) => other == id
  | _ => false

/-- The message that `send_in_loop` is called with. -/
def Task.message : Task → List UInt8
  | .connection _ (.sendInLoop message) => message
  | _ => []

/-- The task that sends to a connection. -/
theorem Task.eq_of_sendsTo {task : Task} {id : Nat} (sends : task.sendsTo id = true) :
    task = .connection id (.sendInLoop task.message) := by
  unfold Task.sendsTo at sends
  split at sends
  case h_1 other message =>
    rw [beq_iff_eq.mp sends]
    rfl
  case h_2 => cases sends

/-- The messages of one thread among those on an account. -/
def EventLoop.Issue.messagesOf [DecidableEq Thread] (thread : Thread)
    (issues : List (Issue Thread Task)) : List (List UInt8) :=
  (issues.filter fun issue => issue.issuer = thread).map fun issue => issue.task.message

namespace Site

variable [DecidableEq Thread] {thread : Thread} {id : Nat} {answers : Answers}
  {site next : Site Thread} {calls : List (Call Thread Task)} {task : ConnectionTask}

/-- Only `Send` calls or posts `send_in_loop`. -/
theorem Effect.plain_sends (effect : Effect thread id answers site task next calls) {other : Nat}
    (notSend : other = id → ∀ message, task ≠ .send message) :
    ∀ call ∈ calls, call.Plain (Task.sendsTo other · = true) := by
  intro call member
  have carried : ∀ {waiting : Thread} {body : Task}, (waiting, body) ∈ call.flight thread →
      ¬ body.sendsTo other = true := by
    intro waiting body inCall sends
    rw [Task.eq_of_sendsTo sends] at inCall
    cases effect.emitted _ ((Call.mem_flights thread).mpr ⟨call, member, inCall⟩) with
    | sendInLoop => exact notSend rfl _ rfl
  cases call with
  | task | runInLoop | queueInLoop => exact carried (Multiset.mem_singleton_self _)
  | stop => trivial

/-- A task issues at most one message, by `Send`. -/
theorem Effect.issues (effect : Effect thread id answers site task next calls) (other : Nat) :
    Call.Issues (Task.sendsTo other) calls := by
  by_cases isSend : ∃ message, task = .send message
  · obtain ⟨message, rfl⟩ := isSend
    cases effect with
    | sendIgnored => trivial
    | sendSubmitted => split <;> simp [Call.Issues]
  · exact .of_plain (effect.plain_sends fun _ message same => isSend ⟨message, same⟩)

/-- `Send` issues what it puts on record as submitted. -/
theorem Effect.issued (effect : Effect thread id answers site task next calls) :
    calls.filterMap (Call.issue (Task.sendsTo id) thread) =
      (site.connection.submits task).map fun message =>
        ⟨thread, site.connection.loop, .connection id (.sendInLoop message)⟩ := by
  by_cases isSend : ∃ message, task = .send message
  · obtain ⟨message, rfl⟩ := isSend
    cases effect with
    | sendIgnored state => simp [TcpConnection.submits, state]
    | sendSubmitted state =>
        split
        case isTrue here => simp [TcpConnection.submits, state, Call.issue, Task.sendsTo, ← here]
        case isFalse => simp [TcpConnection.submits, state, Call.issue, Task.sendsTo]
  · have plain : ∀ call ∈ calls, call.Plain (Task.sendsTo id · = true) :=
      effect.plain_sends fun _ message same => isSend ⟨message, same⟩
    have none : site.connection.submits task = [] := by
      cases task <;> first | rfl | exact absurd ⟨_, rfl⟩ isSend
    rw [none, List.map_nil, List.filterMap_eq_nil_iff]
    exact fun call member => Call.issue_plain (plain call member)

end Site

/-- A state in which messages are not turned away is entered by `ConnectionEstablished` only. -/
theorem TcpState.Moves.was_open {task : ConnectionTask} {before after : TcpState}
    (moves : TcpState.Moves task before after) (isOpen : after = .connecting ∨ after = .connected) :
    (before = .connecting ∨ before = .connected) ∨ task = .connectionEstablished := by
  cases moves with
  | stays => exact .inl isOpen
  | establish => exact .inr rfl
  | shutdown | forceClose | destroy | close => simp at isOpen

/-- The messages of a connection: every submitted one was handled or is in flight, none is
submitted before the connection is established, and none is turned away while it is open for
messages. -/
structure Balanced (id : Nat) (connection : TcpConnection Thread)
    (flight : Multiset (Located Thread Task)) : Prop where
  balance : ∀ message, connection.history.submitted.count message =
    connection.history.accepted.count message + connection.history.rejected.count message +
      inFlight (.connection id (.sendInLoop message)) flight
  early : connection.state = .connecting → connection.history.submitted = []
  kept : connection.state = .connecting ∨ connection.state = .connected →
    connection.history.rejected = []

namespace Balanced

variable {id : Nat} {connection : TcpConnection Thread}

/-- A new connection has no message in flight. -/
theorem fresh (isFresh : connection.Fresh) :
    Balanced id connection {(connection.loop, .connection id .connectionEstablished)} := by
  obtain ⟨loop, name, fd, onWriteComplete, rfl⟩ := isFresh
  constructor <;> simp

variable {base thread : Thread} {site next : Site Thread} {task : ConnectionTask}
  {answers : Answers} {calls : List (Call Thread Task)} {rest : Multiset (Located Thread Task)}

/-- `send_in_loop` does not run before the connection is established. -/
theorem established {message : List UInt8}
    (balanced : Balanced id connection ({(thread, .connection id (.sendInLoop message))} + rest)) :
    connection.state ≠ .connecting := by
  intro early
  have balance := balanced.balance message
  rw [balanced.early early, List.count_nil, inFlight_add, inFlight_singleton, if_pos rfl] at balance
  omega

/-- A task of the connection keeps the balance of its messages. -/
theorem effect [DecidableEq Thread]
    (balanced : Balanced id site.connection ({(thread, .connection id task)} + rest))
    (lifecycle : Lifecycle id base site.connection ({(thread, .connection id task)} + rest))
    (effect : site.Effect thread id answers task next calls) :
    Balanced id next.connection (tokens id (Call.flights thread calls) + rest) := by
  obtain ⟨submitted, -, rejected⟩ := effect.posts
  refine ⟨fun message => effect.balance (balanced.balance message), fun early => ?_, fun isOpen => ?_⟩
  · have before : site.connection.state = .connecting := by
      refine (effect.state_moves.connecting_iff ?_).mp early
      rintro rfl
      cases effect
      cases early
    rw [submitted, balanced.early before, TcpConnection.submits_eq_nil (by simp [before])]
    rfl
  · have before : site.connection.state = .connecting ∨ site.connection.state = .connected := by
      rcases effect.state_moves.was_open isOpen with before | rfl
      · exact before
      · exact .inl lifecycle.connecting.1
    rw [rejected, balanced.kept before]
    cases task with
    | sendInLoop message =>
        have connected := before.resolve_left balanced.established
        simp [TcpConnection.rejects, connected]
    | _ => rfl

end Balanced

namespace World

variable [DecidableEq Thread]

section Executes

variable {world next : World Thread} {thread : Thread} {choice : Choice Thread} {task : Task}
  {calls : List (Call Thread Task)} {id : Nat}

/-- Only `Send` brings a message on its way. -/
theorem Executes.plain_sends (executes : Executes thread choice world task next calls)
    (notSend : ∀ message, task ≠ .connection id (.send message)) :
    ∀ call ∈ calls, call.Plain (Task.sendsTo id · = true) := by
  cases executes with
  | connection effect =>
      refine effect.plain_sends ?_
      rintro rfl message rfl
      exact notSend message rfl
  | @calls _ made => cases made <;> simp [Call.Plain, Task.sendsTo, UserCall.task]
  | posts posted => obtain ⟨loop, rfl | rfl | rfl⟩ := posted <;> simp [Call.Plain, Task.sendsTo]
  | destroyServer => simp [Call.Plain, Task.sendsTo]
  | leaves | tunes | destroys | newConnection | onClose | onCloseDead | removeConnection
  | removeDead => simp [Call.Plain, Task.sendsTo]

/-- Every task of the program issues at most one message to the connection. -/
theorem Executes.issues (executes : Executes thread choice world task next calls) (id : Nat) :
    Call.Issues (Task.sendsTo id) calls := by
  by_cases isSend : ∃ message, task = .connection id (.send message)
  · obtain ⟨message, rfl⟩ := isSend
    cases executes with
    | connection effect => exact effect.issues id
  · exact .of_plain (executes.plain_sends fun message same => isSend ⟨message, same⟩)

/-- A task of another connection issues nothing to this one. -/
theorem Executes.issued_other (executes : Executes thread choice world task next calls)
    (foreign : ∀ function, task ≠ .connection id function) :
    calls.filterMap (Call.issue (Task.sendsTo id) thread) = [] :=
  List.filterMap_eq_nil_iff.mpr fun call member =>
    Call.issue_plain (executes.plain_sends (fun _ => foreign _) call member)

end Executes

/-- The program issues messages as the account expects. -/
theorem client_issues (id : Nat) :
    (client : Client (World Thread) Thread Task (Choice Thread)).Issues (Task.sendsTo id) where
  user := rfl
  poll polled handler member := by
    have pollable := poll_pollable polled _ member
    unfold World.pollable at pollable
    split at pollable <;> simp_all [Task.sendsTo]
  exec executed := (exec_executes executed).issues id

/-- The program with the account of the messages of one connection. -/
abbrev sending (id : Nat) :
    LabelledSystem (Machine (World Thread) Thread Task × Account Thread Task)
      (Label Thread (Choice Thread)) :=
  Machine.accountedSystem client Initial (Task.sendsTo id)

/-- The account of a connection agrees with its own records. -/
structure Recorded (id : Nat) (world : World Thread) (account : Account Thread Task) : Prop where
  submitted : id < world.created → account.issued.map (·.task.message) =
    (world.connections id).history.submitted
  handled : id < world.created → account.executed.map (·.task.message) =
    (world.connections id).history.accepted ++ (world.connections id).history.rejected
  target : id < world.created → ∀ issue ∈ account.issued, issue.loop = (world.connections id).loop
  place : id < world.created → ∀ issue ∈ account.executed,
    issue.loop = (world.connections id).loop
  before : world.created ≤ id → account.issued = [] ∧ account.executed = []

omit [DecidableEq Thread] in
/-- Who is next on top of a stack does not matter to the records. -/
theorem Recorded.congr {id : Nat} {world : World Thread} {account after : Account Thread Task}
    (recorded : Recorded id world account) (issued : after.issued = account.issued)
    (executed : after.executed = account.executed) : Recorded id world after := by
  obtain ⟨submitted, handled, target, place, before⟩ := recorded
  rw [← issued] at submitted target before
  rw [← executed] at handled place before
  exact ⟨submitted, handled, target, place, before⟩

section Runs

variable [Fintype Thread] {machine : Machine (World Thread) Thread Task}
  {account : Account Thread Task} {id : Nat}

/-- The messages of a connection are in balance in every run. -/
theorem reachable_balanced {guard : Thread → Task → Choice Thread → World Thread → Prop}
    (reachable : system.Reachable (Machine.onExec guard) machine)
    (created : id < machine.client.created) :
    Balanced id (machine.client.connections id) (tokens id machine.flight) := by
  refine (reachable_lifecycle id (fun _ => Balanced id) ?_ ?_ reachable created).2
  · exact fun _ _ isFresh => .fresh isFresh
  · intro machine before connection after _ _ lifecycle step balanced
    cases step.view with
    | own _ _ effect => exact balanced.effect lifecycle effect
    | beside untouched closing external =>
        obtain ⟨_, _, _, _, _, _, -, rfl⟩ := untouched
        refine ⟨fun message => ?_, balanced.early, balanced.kept⟩
        rw [inFlight_beside closing external rfl]
        exact balanced.balance message

omit [Fintype Thread] in
/-- The functions of the connection keep the account in line with its records. -/
theorem Recorded.effect {world : World Thread} {site : Site Thread} {after : Account Thread Task}
    {thread : Thread} {answers : Answers} {task : ConnectionTask} {calls : List (Call Thread Task)}
    (recorded : Recorded id world account) (created : id < world.created)
    (effect : (world.site id).Effect thread id answers task site calls)
    (here : ∀ message, task = .sendInLoop message → thread = (world.connections id).loop)
    (kept : (world.connections id).state = .connected →
      (world.connections id).history.rejected = [])
    (issued : after.issued = account.issued ++ calls.filterMap (Call.issue (Task.sendsTo id) thread))
    (executed : after.executed = account.executed ++
      if (Task.connection id task).sendsTo id then
        [⟨account.origin thread, thread, .connection id task⟩] else []) :
    Recorded id (world.setSite id site) after := by
  obtain ⟨submitted, accepted, rejected⟩ := effect.posts
  have loop : site.connection.loop = (world.connections id).loop := effect.identity.loop
  rw [effect.issued] at issued
  constructor
  · intro _
    rw [setSite_connections_self, issued, List.map_append, recorded.submitted created, submitted]
    simp [Function.comp_def, Task.message]
    rfl
  · intro _
    rw [setSite_connections_self, executed, List.map_append, recorded.handled created, accepted,
      rejected]
    cases task with
    | sendInLoop message =>
        by_cases state : (world.connections id).state = .connected
        · simp [TcpConnection.accepts, TcpConnection.rejects, state, Task.sendsTo, Task.message,
            World.site, kept state]
        · simp [TcpConnection.accepts, TcpConnection.rejects, state, Task.sendsTo, Task.message,
            World.site]
    | _ => simp [TcpConnection.accepts, TcpConnection.rejects, Task.sendsTo, World.site]
  · intro _ issue member
    rw [setSite_connections_self, loop]
    rw [issued] at member
    rcases List.mem_append.mp member with old | new
    · exact recorded.target created issue old
    · obtain ⟨message, -, rfl⟩ := List.mem_map.mp new
      rfl
  · intro _ issue member
    rw [setSite_connections_self, loop]
    rw [executed] at member
    rcases List.mem_append.mp member with old | new
    · exact recorded.place created issue old
    · split at new
      case isTrue sends =>
        obtain rfl := List.mem_singleton.mp new
        have same := Task.eq_of_sendsTo sends
        exact here _ (Task.connection.inj same).2
      case isFalse => cases new
  · exact fun missing => absurd created (Nat.not_lt.mpr missing)

omit [Fintype Thread] in
/-- So does every executed task. -/
theorem Recorded.executes {world next : World Thread} {after : Account Thread Task}
    {thread : Thread} {choice : Choice Thread} {body : Task} {calls : List (Call Thread Task)}
    (recorded : Recorded id world account)
    (executes : Executes thread choice world body next calls)
    (exists' : body.about id = true → id < world.created)
    (here : ∀ message, body = .connection id (.sendInLoop message) →
      thread = (world.connections id).loop)
    (kept : id < world.created → (world.connections id).state = .connected →
      (world.connections id).history.rejected = [])
    (issued : after.issued = account.issued ++ calls.filterMap (Call.issue (Task.sendsTo id) thread))
    (executed : after.executed = account.executed ++
      if body.sendsTo id then [⟨account.origin thread, thread, body⟩] else []) :
    Recorded id next after := by
  have elsewhere : (∀ function, body ≠ .connection id function) →
      after.issued = account.issued ∧ after.executed = account.executed := by
    intro foreign
    have notSend : body.sendsTo id = false :=
      Bool.eq_false_iff.mpr fun sends => foreign _ (Task.eq_of_sendsTo sends)
    rw [issued, executed, executes.issued_other foreign, notSend]
    simp
  have grows : world.created ≤ next.created := by
    rcases executes.created with same | ⟨-, more⟩ <;> omega
  cases executes.concerns id with
  | @own function site called effect reached =>
      subst called reached
      have created := exists' (by simp [Task.about])
      exact recorded.effect created effect (fun message same => here message (by rw [same]))
        (kept created) issued executed
  | other foreign known untouched =>
      obtain ⟨sameIssued, sameExecuted⟩ := elsewhere foreign
      obtain ⟨_, _, _, _, _, _, -, changed⟩ := untouched
      have moved : Recorded id next account := by
        refine ⟨?_, ?_, ?_, ?_, fun missing => recorded.before (grows.trans missing)⟩ <;>
          rw [changed]
        · exact fun created => recorded.submitted (known created)
        · exact fun created => recorded.handled (known created)
        · exact fun created => recorded.target (known created)
        · exact fun created => recorded.place (known created)
      exact moved.congr sameIssued sameExecuted
  | created called new fresh =>
      subst called
      obtain ⟨sameIssued, sameExecuted⟩ := elsewhere (by simp)
      obtain ⟨noIssued, noExecuted⟩ := recorded.before new.ge
      obtain ⟨loop, name, fd, onWriteComplete, isFresh⟩ := fresh
      constructor <;> simp [sameIssued, sameExecuted, noIssued, noExecuted, isFresh]

/-- The account agrees with the history of the connection in every run. -/
theorem reachable_recorded {guard : Machine (World Thread) Thread Task →
      Label Thread (Choice Thread) → Prop}
    (reachable : (sending id).Reachable (LabelledSystem.beside guard) (machine, account)) :
    Recorded id machine.client account := by
  refine (reachable.observed_invariant (fun machine account =>
    Recorded id machine.client account) ?_ ?_).2
  · rintro _ ⟨_, ⟨loop, name, listenAddr, writeCompleteCb, rfl⟩, rfl⟩
    constructor <;> simp [Machine.account, initial]
  · intro machine label next account reached recorded _ stepped
    rcases Machine.note_cases (Task.sendsTo id) account stepped with
      ⟨client, issued, executed⟩ | ⟨body, choice, calls, executed, ran, issued, handled⟩
    · rw [client]
      exact recorded.congr issued executed
    · refine recorded.executes (exec_executes ran) ?_ ?_ ?_ issued handled
      · exact executing_created reached executed
      · rintro message rfl
        exact executing_here reached executed rfl
      · intro created connected
        have past : system.Reachable (Machine.onExec fun _ _ _ _ => True) machine :=
          reached.weaken fun _ _ _ => Machine.onExec_of_unguarded _ _ trivial
        exact (reachable_balanced past created).kept (.inr connected)

omit [Fintype Thread] in
/-- The messages of a thread, when all of them go to one loop. -/
theorem messagesOf_eq {issues : List (Issue Thread Task)} {loop : Thread}
    (target : ∀ issue ∈ issues, issue.loop = loop) (thread : Thread) :
    Issue.messagesOf thread issues = (Issue.between thread loop issues).map Task.message := by
  rw [Issue.messagesOf, Issue.between, List.map_map]
  congr 1
  refine List.filter_congr fun issue member => ?_
  simp [target issue member]

/-- Messages and threads, for a connection in every run. What its `Send`s have submitted and
what `send_in_loop` has handled is on the account, those let through before those turned away.
Of the messages of each thread, those let through are the first that it has submitted, in the
order of its calls and without a gap; so are all that were handled, and when none is in flight
these are all. -/
theorem messages_keep_program_order
    (reachable : (sending id).Reachable (LabelledSystem.beside LabelledSystem.unguarded)
      (machine, account)) (created : id < machine.client.created) :
    account.issued.map (·.task.message) = (machine.client.connections id).history.submitted ∧
    account.executed.map (·.task.message) =
      (machine.client.connections id).history.accepted ++
        (machine.client.connections id).history.rejected ∧
    ∀ thread,
      Issue.messagesOf thread (account.executed.take
          (machine.client.connections id).history.accepted.length) <+:
        Issue.messagesOf thread account.issued ∧
      Issue.messagesOf thread account.executed <+: Issue.messagesOf thread account.issued ∧
      ((∀ waiting message, (waiting, .connection id (.sendInLoop message)) ∉ machine.flight) →
        Issue.messagesOf thread account.executed = Issue.messagesOf thread account.issued) := by
  have recorded := reachable_recorded reachable
  obtain ⟨reached, accounted⟩ := Machine.reachable_accounted (client_issues id) reachable
  have invariant := Machine.reachable_queueInvariant reached
  refine ⟨recorded.submitted created, recorded.handled created, fun thread => ?_⟩
  have handled : Issue.messagesOf thread account.executed <+:
      Issue.messagesOf thread account.issued := by
    rw [messagesOf_eq (recorded.place created), messagesOf_eq (recorded.target created)]
    exact (accounted.executed_prefix invariant thread _).map Task.message
  refine ⟨?_, handled, fun none => ?_⟩
  · exact (((List.take_prefix _ _).filter _).map _).trans handled
  · have gone : ∀ task, ((machine.client.connections id).loop, task) ∈ machine.flight →
        task.sendsTo id = false := by
      intro task waits
      refine Bool.eq_false_iff.mpr fun sends => ?_
      rw [Task.eq_of_sendsTo sends] at waits
      exact none _ _ waits
    rw [messagesOf_eq (recorded.place created), messagesOf_eq (recorded.target created),
      accounted.executed_all invariant gone]

/-- Thread `1` sends `[1]` and `[2]`, and while the first waits in the queue user code on loop
`0` sends `[3]`. -/
def sendsFromTwo : List (Label TwoThreads (Choice TwoThreads)) :=
  userTurn ++ turns 1 1 ++ [turn 1 { action := .call 0 (.send [1]) }] ++ turns 1 4 ++
    [turn 0 { action := .call 0 (.send [3]) }] ++ turns 0 1 ++
    [turn 0 { answers := { send := .wrote 1 .other } }] ++
    [turn 1 { action := .call 0 (.send [2]) }] ++ turns 1 4 ++ turns 0 4 ++
    [turn 0 { answers := { send := .wrote 1 .other } }] ++ turns 0 1

/-- A message of thread `0` overtakes those of thread `1`, which keep their order. -/
theorem messages_keep_program_order_sendsFromTwo :
    ∃ observation : Machine (World TwoThreads) TwoThreads Task × Account TwoThreads Task,
      (observation.1.client.connections 0).history.submitted = [[1], [3], [2]] ∧
      (observation.1.client.connections 0).history.accepted = [[3], [1]] ∧
      Issue.messagesOf 1 observation.2.issued = [[1], [2]] ∧
      Issue.messagesOf 1 observation.2.executed <+: [[1], [2]] := by
  let observation := ((sending 0).run (LabelledSystem.beside LabelledSystem.unguarded)
    (serverOnZero, {}) sendsFromTwo).get (by decide +kernel)
  have reachable : (sending 0).Reachable (LabelledSystem.beside LabelledSystem.unguarded)
      observation :=
    LabelledSystem.run_reachable ⟨serverOnZero_initial, rfl⟩ (Option.some_get _).symm
  have issued : Issue.messagesOf 1 observation.2.issued = [[1], [2]] := by decide +kernel
  obtain ⟨-, -, order⟩ := messages_keep_program_order reachable (by decide +kernel)
  exact ⟨observation, by decide +kernel, by decide +kernel, issued, issued ▸ (order 1).2.1⟩

end Runs

end World

end Benet
