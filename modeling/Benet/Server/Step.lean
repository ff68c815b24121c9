import Benet.Server.Executes
import Benet.Server.Tokens

/-!
# One connection in a run of the server

`World.ConnectionStep` lists everything that one step of the program can mean
for one connection and its tokens; `World.reachable_connection` is the induction
over guarded runs in these terms.
-/

namespace Benet

open EventLoop Semantics

variable {Thread : Type}

namespace World

section Modify

variable {world : World Thread} {id : Nat}

/-- The changed connection. -/
theorem modifyConnection_connections_self (change : TcpConnection Thread → TcpConnection Thread) :
    (world.modifyConnection id change).connections id = change (world.connections id) := by
  simp [modifyConnection]

/-- The other connections are not changed. -/
theorem modifyConnection_connections_other {other : Nat} (different : other ≠ id)
    (change : TcpConnection Thread → TcpConnection Thread) :
    (world.modifyConnection id change).connections other = world.connections other := by
  simp [modifyConnection, different]

/-- What a change of one connection leaves alone, it leaves alone in all. -/
theorem modifyConnection_frame {Value : Type} (field : TcpConnection Thread → Value)
    {change : TcpConnection Thread → TcpConnection Thread}
    (same : field (change (world.connections id)) = field (world.connections id)) (other : Nat) :
    field ((world.modifyConnection id change).connections other) =
      field (world.connections other) := by
  by_cases here : other = id
  · rw [here, modifyConnection_connections_self, same]
  · rw [modifyConnection_connections_other here]

/-- The removal of a connection touches two entries of its history. -/
theorem withoutConnection_frame {Value : Type} (field : TcpConnection Thread → Value)
    (same : ∀ (connection : TcpConnection Thread) erased failedAssertions,
      field { connection with history := { connection.history with erased, failedAssertions } } =
        field connection) (other : Nat) :
    field ((world.withoutConnection id).connections other) = field (world.connections other) := by
  rw [withoutConnection, modifyConnection_frame field]
  · rfl
  · exact same _ _ _

/-- The functor of `remove_connection` erases one name. -/
theorem withoutConnection_server_connections :
    (world.withoutConnection id).server.connections =
      Function.update world.server.connections (world.connections id).name none := rfl

/-- The functor of `remove_connection` touches no other connection. -/
theorem withoutConnection_connections_other {other : Nat} (different : other ≠ id) :
    (world.withoutConnection id).connections other = world.connections other := by
  rw [withoutConnection, modifyConnection_connections_other different]
  rfl

end Modify

section New

variable {world : World Thread} {choice : Choice Thread}

/-- `new_connection` touches no connection that exists. -/
theorem withNewConnection_connections_old {id : Nat} (exists' : id < world.created) :
    (world.withNewConnection choice).connections id = world.connections id := by
  simp [withNewConnection, Nat.ne_of_lt exists']

/-- The connection that `new_connection` makes. -/
theorem withNewConnection_connections_new :
    (world.withNewConnection choice).connections world.created =
      { loop := choice.ioLoop.getD world.server.loop,
        name := connName world.server (world.nextConnId + choice.skipped),
        channel := { fd := choice.fd }, onWriteComplete := world.server.writeCompleteCb } := by
  simp [withNewConnection]

/-- What tells the connections apart still does when the new one has it for itself. -/
theorem withNewConnection_distinct {Value : Type} (key : TcpConnection Thread → Value)
    (distinct : ∀ first second, first < world.created → second < world.created →
      key (world.connections first) = key (world.connections second) → first = second)
    (unused : ∀ id, id < world.created → key (world.connections id) ≠
      key ((world.withNewConnection choice).connections world.created))
    (first second : Nat) (firstCreated : first < world.created + 1)
    (secondCreated : second < world.created + 1)
    (same : key ((world.withNewConnection choice).connections first) =
      key ((world.withNewConnection choice).connections second)) : first = second := by
  rcases Nat.lt_succ_iff_lt_or_eq.mp firstCreated with firstOld | rfl <;>
    rcases Nat.lt_succ_iff_lt_or_eq.mp secondCreated with secondOld | rfl
  · rw [withNewConnection_connections_old firstOld,
      withNewConnection_connections_old secondOld] at same
    exact distinct first second firstOld secondOld same
  · rw [withNewConnection_connections_old firstOld] at same
    exact absurd same (unused first firstOld)
  · rw [withNewConnection_connections_old secondOld] at same
    exact absurd same.symm (unused second secondOld)
  · rfl

end New

/-- A condition on when tasks of a connection are executed, as a guard of the
whole program. -/
def onConnection (condition : ConnectionTask → Answers → TcpConnection Thread → Prop) (_ : Thread)
    (task : Task) (choice : Choice Thread) (world : World Thread) : Prop :=
  match task with
  | .connection id task => condition task choice.answers (world.connections id)
  | .user | .newConnection | .onClose _ | .removeConnection _ | .destroyServer => True

instance (condition : ConnectionTask → Answers → TcpConnection Thread → Prop)
    [∀ task answers connection, Decidable (condition task answers connection)] (thread : Thread)
    (task : Task) (choice : Choice Thread) (world : World Thread) :
    Decidable (onConnection condition thread task choice world) :=
  match task with
  | .connection id task =>
      inferInstanceAs (Decidable (condition task choice.answers (world.connections id)))
  | .user | .newConnection | .onClose _ | .removeConnection _ | .destroyServer => .isTrue trivial

/-- A connection that does not exist yet has no tokens. -/
def NoneBefore (world : World Thread) (flight : Multiset (Located Thread Task)) : Prop :=
  ∀ id, world.created ≤ id → tokens id flight = 0

/-- A task that is about a connection is in flight only when the connection exists. -/
theorem NoneBefore.exists {world : World Thread} {id : Nat}
    {flight : Multiset (Located Thread Task)} {located : Located Thread Task}
    (none : NoneBefore world flight) (member : located ∈ flight)
    (about : located.2.about id = true) : id < world.created := by
  by_contra missing
  have inTokens := (mem_tokens id).mpr ⟨member, about⟩
  rw [none id (Nat.le_of_not_lt missing)] at inTokens
  exact Multiset.notMem_zero located inTokens

variable [DecidableEq Thread]

/-- A step of the program as the connection `id` sees it: the tokens before, the
connection after, the tokens after. -/
inductive ConnectionStep (guard : Thread → Task → Choice Thread → World Thread → Prop) (id : Nat)
    (world : World Thread) : Multiset (Located Thread Task) → TcpConnection Thread →
      Multiset (Located Thread Task) → Prop where
  | idle {before} : ConnectionStep guard id world before (world.connections id) before
  | polled {revents before} :
      ConnectionStep guard id world before (world.connections id)
        ({((world.connections id).loop, .connection id (.handleEvent revents))} + before)
  | called {thread choice call before} (admitted : guard thread .user choice world)
      (action : choice.action = .call id call) :
      ConnectionStep guard id world before (world.connections id)
        ({(thread, .connection id call.task)} + before)
  | tuned {connection before} (tuned : (world.connections id).Tuned connection) :
      ConnectionStep guard id world before connection before
  | own {thread choice task site calls rest}
      (admitted : guard thread (.connection id task) choice world)
      (unhurried : (thread, .connection id .handleClose) ∉ rest)
      (effect : (world.site id).Effect thread id choice.answers task site calls) :
      ConnectionStep guard id world ({(thread, .connection id task)} + rest) site.connection
        (tokens id (Call.flights thread calls) + rest)
  | onClose {thread rest} (alive : world.server.alive = true) :
      ConnectionStep guard id world ({(thread, .onClose id)} + rest) (world.connections id)
        ({(world.server.loop, .removeConnection id)} + rest)
  | dropped {thread task rest} (dead : world.server.alive = false)
      (closing : task = .onClose id ∨ task = .removeConnection id) :
      ConnectionStep guard id world ({(thread, task)} + rest) (world.connections id) rest
  | erased {thread rest} (alive : world.server.alive = true) :
      ConnectionStep guard id world ({(thread, .removeConnection id)} + rest)
        ((world.withoutConnection id).connections id)
        ({((world.connections id).loop, .connection id .connectionDestroyed)} + rest)
  | condemned {thread choice before} (admitted : guard thread .destroyServer choice world) :
      ConnectionStep guard id world before (world.connections id)
        ({((world.connections id).loop, .connection id .connectionDestroyed)} + before)

variable {guard : Thread → Task → Choice Thread → World Thread → Prop} {world next : World Thread}
  {thread : Thread} {choice : Choice Thread} {task : Task} {calls : List (Call Thread Task)}
  {id : Nat}

@[simp] theorem setSite_server (site : Site Thread) :
    (world.setSite id site).server = world.server := rfl

@[simp] theorem setSite_created (site : Site Thread) :
    (world.setSite id site).created = world.created := rfl

/-- The connection whose task was executed. -/
theorem setSite_connections_self (site : Site Thread) :
    (world.setSite id site).connections id = site.connection := by
  simp [setSite]

/-- A task of one connection touches no other. -/
theorem setSite_connections_other {other : Nat} (different : other ≠ id) (site : Site Thread) :
    (world.setSite id site).connections other = world.connections other := by
  simp [setSite, different]

/-- What a task of one connection leaves alone, it leaves alone in all. -/
theorem setSite_frame {Value : Type} (field : TcpConnection Thread → Value) {site : Site Thread}
    (same : field site.connection = field (world.connections id)) (other : Nat) :
    field ((world.setSite id site).connections other) = field (world.connections other) := by
  by_cases here : other = id
  · rw [here, setSite_connections_self, same]
  · rw [setSite_connections_other here]

/-- The server stays on its loop. -/
theorem Executes.server_loop (executes : Executes thread choice world task next calls) :
    next.server.loop = world.server.loop := by
  cases executes <;> rfl

/-- Connections are made one at a time and never unmade. -/
theorem Executes.created (executes : Executes thread choice world task next calls) :
    next.created = world.created ∨ task = .newConnection ∧ next.created = world.created + 1 := by
  cases executes with
  | newConnection => exact .inr ⟨rfl, rfl⟩
  | _ => exact .inl rfl

/-- Tokens that polled channels bring to a connection. -/
theorem tokens_polled {actives : List (Active Task)}
    (polled : client.poll thread choice world = some actives) (id : Nat) :
    ∀ located ∈ tokens id (Active.flights thread actives), id < world.created ∧
      ∃ revents, located = ((world.connections id).loop, .connection id (.handleEvent revents)) := by
  intro located member
  obtain ⟨inFlight, about⟩ := (mem_tokens id).mp member
  obtain ⟨handler, inActives, rfl⟩ := Active.mem_flights.mp inFlight
  have pollable := poll_pollable polled _ inActives
  cases handler with
  | user | newConnection | destroyServer => cases about
  | onClose | removeConnection => cases pollable
  | connection other task =>
      obtain rfl : other = id := by simpa [Task.about] using about
      cases task with
      | handleEvent revents =>
          simp only [World.pollable, Bool.and_eq_true, decide_eq_true_eq] at pollable
          obtain ⟨⟨exists', rfl⟩, -⟩ := pollable
          exact ⟨exists', revents, rfl⟩
      | _ => cases pollable

/-- Nothing arrives for a connection that does not exist. -/
theorem NoneBefore.arrives {flight arrived : Multiset (Located Thread Task)}
    (none : NoneBefore world flight) (brought : client.Arrives world arrived) :
    NoneBefore world (arrived + flight) := by
  intro id future
  rw [tokens_add, none id future, add_zero]
  cases brought with
  | none => rfl
  | user thread => exact tokens_user id thread
  | polled returned =>
      apply Multiset.eq_zero_of_forall_notMem
      intro located member
      have exists' := (tokens_polled returned id located member).1
      omega

/-- A task makes calls about its own connection or about one that exists. -/
theorem Executes.about_calls (executes : Executes thread choice world task next calls)
    {located : Located Thread Task} (member : located ∈ Call.flights thread calls)
    (about : located.2.about id = true) : task.about id = true ∨ id < next.created := by
  obtain ⟨call, made, carried⟩ := (Call.mem_flights thread).mp member
  cases executes with
  | leaves | onCloseDead | removeDead => cases made
  | @calls other call _ exists' =>
      rcases List.mem_pair.mp made with rfl | rfl
      · obtain rfl := Multiset.mem_singleton.mp carried
        obtain rfl : other = id := by simpa [Task.about] using about
        exact .inr exists'
      · obtain rfl := Multiset.mem_singleton.mp carried
        cases about
  | posts posted =>
      rcases List.mem_pair.mp made with rfl | rfl
      · obtain ⟨loop, rfl | rfl | rfl⟩ := posted
        · obtain rfl := Multiset.mem_singleton.mp carried
          cases about
        · obtain rfl := Multiset.mem_singleton.mp carried
          cases about
        · cases Multiset.notMem_zero located carried
      · obtain rfl := Multiset.mem_singleton.mp carried
        cases about
  | tunes =>
      obtain rfl := List.mem_singleton.mp made
      obtain rfl := Multiset.mem_singleton.mp carried
      cases about
  | destroys =>
      rcases List.mem_pair.mp made with rfl | rfl <;>
        obtain rfl := Multiset.mem_singleton.mp carried <;> cases about
  | @connection other task site made effect =>
      left
      rcases (effect.emitted located member).own with user | own
      · rw [user] at about
        cases about
      · by_cases same : id = other
        · simp [Task.about, same]
        · rw [Task.about_other own same] at about
          cases about
  | newConnection =>
      obtain rfl := List.mem_singleton.mp made
      obtain rfl := Multiset.mem_singleton.mp carried
      obtain rfl : world.created = id := by simpa [Task.about] using about
      exact .inr (Nat.lt_succ_self _)
  | onClose | removeConnection =>
      obtain rfl := List.mem_singleton.mp made
      obtain rfl := Multiset.mem_singleton.mp carried
      exact .inl about
  | destroyServer alive order =>
      obtain ⟨other, inOrder, rfl⟩ := List.mem_map.mp made
      obtain rfl := Multiset.mem_singleton.mp carried
      obtain rfl : other = id := by simpa [Task.about] using about
      have isRegistered := order.mem_iff.mp inOrder
      exact .inr (List.mem_range.mp (List.mem_filter.mp isRegistered).1)

/-- No task posts anything for a connection that does not exist. -/
theorem NoneBefore.executes {rest : Multiset (Located Thread Task)}
    (none : NoneBefore world ({(thread, task)} + rest))
    (executes : Executes thread choice world task next calls) :
    NoneBefore next (Call.flights thread calls + rest) := by
  intro id future
  have past : world.created ≤ id := by
    rcases executes.created with same | ⟨-, one⟩ <;> omega
  have before := none id past
  rw [tokens_add] at before
  have restNone : tokens id rest = 0 := Multiset.le_zero.mp (before ▸ Multiset.le_add_left _ _)
  have taskNone : tokens id {(thread, task)} = 0 :=
    Multiset.le_zero.mp (before ▸ Multiset.le_add_right _ _)
  rw [tokens_add, restNone, add_zero]
  apply Multiset.eq_zero_of_forall_notMem
  intro located member
  obtain ⟨inCalls, about⟩ := (mem_tokens id).mp member
  rcases executes.about_calls inCalls about with own | exists'
  · rw [tokens_own id thread own] at taskNone
    exact Multiset.singleton_ne_zero _ taskNone
  · omega

/-- A task of another connection, or the acceptor's, leaves a connection and its
tokens alone. -/
theorem Executes.beside (created : id < world.created) (foreign : task.about id = false)
    (internal : task ≠ .user) (kept : task ≠ .destroyServer)
    (executes : Executes thread choice world task next calls) :
    next.connections id = world.connections id ∧ tokens id (Call.flights thread calls) = 0 := by
  cases executes with
  | leaves | calls | posts | tunes | destroys => exact absurd rfl internal
  | destroyServer => exact absurd rfl kept
  | connection effect =>
      have different := Ne.symm (beq_eq_false_iff_ne.mp foreign)
      exact ⟨setSite_connections_other different _, effect.tokens_other different⟩
  | newConnection =>
      refine ⟨withNewConnection_connections_old created, ?_⟩
      simp [Call.flight, tokens_singleton, Task.about, (Nat.ne_of_lt created).symm]
  | onClose =>
      refine ⟨rfl, ?_⟩
      simpa [Call.flight, tokens_singleton, Task.about] using foreign
  | removeConnection =>
      have different := Ne.symm (beq_eq_false_iff_ne.mp foreign)
      refine ⟨withoutConnection_connections_other different, ?_⟩
      simpa [Call.flight, tokens_singleton, Task.about] using foreign
  | onCloseDead | removeDead => exact ⟨rfl, rfl⟩

section Preserves

variable {Holds : TcpConnection Thread → Multiset (Located Thread Task) → Prop}
  {rest : Multiset (Located Thread Task)}

/-- User code calls a function of the connection, tunes it, or does neither. -/
theorem Executes.preserves_user
    (preserved : ∀ before connection after, ConnectionStep guard id world before connection after →
      Holds (world.connections id) before → Holds connection after)
    (admitted : guard thread .user choice world)
    (executes : Executes thread choice world .user next calls)
    (holds : Holds (world.connections id) (tokens id rest)) :
    Holds (next.connections id) (tokens id (Call.flights thread calls) + tokens id rest) := by
  cases executes with
  | leaves => simpa using holds
  | @calls other call action _ =>
      by_cases same : other = id
      · subst same
        simpa [Call.flight, tokens_own, Task.about] using
          preserved _ _ _ (.called admitted action) holds
      · have foreign : tokens id {(thread, Task.connection other call.task)} = 0 :=
          tokens_foreign id thread (by simpa [Task.about] using same)
        simpa [Call.flight, foreign] using holds
  | posts posted =>
      obtain ⟨loop, rfl | rfl | rfl⟩ := posted <;> simpa [Call.flight] using holds
  | @tunes other change tuned =>
      by_cases same : other = id
      · subst same
        rw [modifyConnection_connections_self]
        simpa [Call.flight] using preserved _ _ _ (.tuned (tuned _ rfl)) holds
      · rw [modifyConnection_connections_other (Ne.symm same)]
        simpa [Call.flight] using holds
  | destroys =>
      have foreign : tokens id {(thread, Task.destroyServer)} = 0 := tokens_foreign id thread rfl
      simpa [Call.flight, foreign] using holds

/-- A token of the connection itself is executed. -/
theorem Executes.preserves_own
    (preserved : ∀ before connection after, ConnectionStep guard id world before connection after →
      Holds (world.connections id) before → Holds connection after)
    (own : task.about id = true) (admitted : guard thread task choice world)
    (unhurried : (thread, .connection id .handleClose) ∉ tokens id rest)
    (executes : Executes thread choice world task next calls)
    (holds : Holds (world.connections id) ({(thread, task)} + tokens id rest)) :
    Holds (next.connections id) (tokens id (Call.flights thread calls) + tokens id rest) := by
  cases executes with
  | leaves | calls | posts | tunes | destroys | newConnection | destroyServer => cases own
  | connection effect =>
      obtain rfl := beq_iff_eq.mp own
      rw [setSite_connections_self]
      exact preserved _ _ _ (.own admitted unhurried effect) holds
  | onClose alive =>
      obtain rfl := beq_iff_eq.mp own
      simpa [Call.flight, tokens_own, Task.about] using preserved _ _ _ (.onClose alive) holds
  | onCloseDead dead =>
      obtain rfl := beq_iff_eq.mp own
      simpa [useDead, modifyServer] using preserved _ _ _ (.dropped dead (.inl rfl)) holds
  | removeConnection alive =>
      obtain rfl := beq_iff_eq.mp own
      simpa [Call.flight, tokens_own, Task.about] using preserved _ _ _ (.erased alive) holds
  | removeDead dead =>
      obtain rfl := beq_iff_eq.mp own
      simpa [useDead, modifyServer] using preserved _ _ _ (.dropped dead (.inr rfl)) holds

/-- `~TcpServer` brings one token for each occurrence in the iteration order. -/
theorem preserves_destroyServer
    (preserved : ∀ before connection after, ConnectionStep guard id world before connection after →
      Holds (world.connections id) before → Holds connection after)
    (admitted : guard thread .destroyServer choice world)
    (holds : Holds (world.connections id) (tokens id rest)) (order : List Nat) :
    Holds (world.connections id) (tokens id (Call.flights thread (order.map fun other =>
      .runInLoop (world.connections other).loop (.connection other .connectionDestroyed))) +
        tokens id rest) := by
  induction order with
  | nil => simpa using holds
  | cons first others inductionHypothesis =>
      by_cases same : first = id
      · subst same
        have added := preserved _ _ _ (.condemned admitted) inductionHypothesis
        simpa [Call.flight, tokens_own, Task.about, add_assoc] using added
      · have foreign : tokens id {((world.connections first).loop,
            Task.connection first .connectionDestroyed)} = 0 :=
          tokens_foreign id _ (by simpa [Task.about] using same)
        simpa [Call.flight, foreign] using inductionHypothesis

/-- A property of one connection and its tokens that every step keeps as the
connection sees it is kept by every executed task. -/
theorem Executes.preserves
    (preserved : ∀ before connection after, ConnectionStep guard id world before connection after →
      Holds (world.connections id) before → Holds connection after)
    (created : id < world.created) (admitted : guard thread task choice world)
    (unhurried : (thread, .connection id .handleClose) ∉ tokens id rest)
    (executes : Executes thread choice world task next calls)
    (holds : Holds (world.connections id) (tokens id ({(thread, task)} + rest))) :
    Holds (next.connections id) (tokens id (Call.flights thread calls + rest)) := by
  rw [tokens_add] at holds ⊢
  cases own : task.about id with
  | true =>
      rw [tokens_own id thread own] at holds
      exact executes.preserves_own preserved own admitted unhurried holds
  | false =>
      rw [tokens_foreign id thread own, zero_add] at holds
      by_cases user : task = .user
      · subst user
        exact executes.preserves_user preserved admitted holds
      by_cases destroys : task = .destroyServer
      · subst destroys
        cases executes with
        | destroyServer => exact preserves_destroyServer preserved admitted holds choice.order
      obtain ⟨same, none⟩ := executes.beside created own user destroys
      rw [same, none, zero_add]
      exact holds

end Preserves

/-- The same for channels that `Poll` returns. -/
theorem preserves_arrives
    {Holds : TcpConnection Thread → Multiset (Located Thread Task) → Prop}
    (preserved : ∀ before connection after, ConnectionStep guard id world before connection after →
      Holds (world.connections id) before → Holds connection after)
    {arrived flight : Multiset (Located Thread Task)} (brought : client.Arrives world arrived)
    (holds : Holds (world.connections id) (tokens id flight)) :
    Holds (world.connections id) (tokens id (arrived + flight)) := by
  have events : ∀ located ∈ tokens id arrived, ∃ revents,
      located = ((world.connections id).loop, Task.connection id (.handleEvent revents)) := by
    cases brought with
    | none => simp
    | user thread => simp [client]
    | polled returned => exact fun located member => (tokens_polled returned id located member).2
  rw [tokens_add]
  generalize tokens id arrived = news at events
  induction news using Multiset.induction with
  | empty => rwa [zero_add]
  | cons located others inductionHypothesis =>
      obtain ⟨revents, rfl⟩ := events located (Multiset.mem_cons_self _ _)
      have kept := inductionHypothesis fun other member =>
        events other (Multiset.mem_cons_of_mem member)
      rw [← Multiset.singleton_add, add_assoc]
      exact preserved _ _ _ .polled kept

variable [Fintype Thread]

/-- Nothing is in flight for a connection that does not exist, in every run. -/
theorem reachable_noneBefore {machine : Machine (World Thread) Thread Task}
    (reachable : system.Reachable (Machine.onExec guard) machine) :
    NoneBefore machine.client machine.flight := by
  refine Machine.reachable_flight client_prompt NoneBefore ?_ ?_ reachable
  · exact fun _ _ _ _ => tokens_zero _
  · intro machine next _ step none
    cases step with
    | executes before _ _ executed after =>
        rw [after]
        exact (before ▸ none).executes (exec_executes executed)
    | arrives same brought after =>
        rw [same, after]
        exact none.arrives brought

variable {machine after : Machine (World Thread) Thread Task}

/-- The induction over guarded runs for a property of the process. A step may use
that the machine is reachable and that the executed task was in flight. -/
theorem reachable_world (Holds : World Thread → Prop)
    (initial : ∀ world, Initial world → Holds world)
    (preserved : ∀ {machine : Machine (World Thread) Thread Task} {thread task choice rest next calls},
      system.Reachable (Machine.onExec guard) machine →
      machine.flight = {(thread, task)} + rest → guard thread task choice machine.client →
      Executes thread choice machine.client task next calls → Holds machine.client → Holds next)
    (reachable : system.Reachable (Machine.onExec guard) machine) : Holds machine.client := by
  refine Machine.reachable_flight client_prompt (fun world _ => Holds world) initial ?_ reachable
  intro machine next reached step holds
  cases step with
  | executes before admitted _ executed =>
      exact preserved reached before admitted (exec_executes executed) holds
  | arrives same => rwa [same]

/-- A property of one connection and its tokens that every step keeps as the
connection sees it is kept by every transition. -/
theorem guardedStep_preserves
    (Holds : TcpConnection Thread → Multiset (Located Thread Task) → Prop)
    (preserved : ∀ before connection after,
      ConnectionStep guard id machine.client before connection after →
        Holds (machine.client.connections id) before → Holds connection after)
    (created : id < machine.client.created)
    (step : Machine.GuardedStep client Task.Urgent guard machine after)
    (holds : Holds (machine.client.connections id) (tokens id machine.flight)) :
    Holds (after.client.connections id) (tokens id after.flight) := by
  cases step with
  | executes before admitted unhurried executed flown =>
      rw [flown]
      refine (exec_executes executed).preserves preserved created admitted ?_ (before ▸ holds)
      exact fun member => unhurried (.connection id .handleClose) trivial
        ((mem_tokens id).mp member).1
  | arrives same brought flown =>
      rw [same, flown]
      exact preserves_arrives preserved brought holds

/-- Connections are only added. -/
theorem guardedStep_created
    (step : Machine.GuardedStep client Task.Urgent guard machine after) :
    machine.client.created ≤ after.client.created := by
  cases step with
  | executes _ _ _ executed =>
      rcases (exec_executes executed).created with same | ⟨-, one⟩ <;> omega
  | arrives same => rw [same]

omit [Fintype Thread] in
/-- A transition that executes a task of a connection. -/
theorem executing_effect {label : Label Thread (Choice Thread)} {own : ConnectionTask}
    (executed : machine.executing label = some (.connection id own, choice))
    (stepped : system.step machine label = some after) :
    ∃ site calls, (machine.client.site id).Effect label.thread id choice.answers own site calls ∧
      after.client = machine.client.setSite id site := by
  obtain ⟨calls, ran⟩ := Machine.executing_exec executed stepped
  have executes : Executes label.thread choice machine.client (.connection id own) after.client
      calls := exec_executes ran
  generalize after.client = world at executes
  cases executes with
  | connection effect => exact ⟨_, calls, effect, rfl⟩

/-- The induction over guarded runs for one connection from `new_connection` on.
`Holds` is given the process and the tokens of the connection. -/
theorem reachable_created (id : Nat)
    (Holds : World Thread → Multiset (Located Thread Task) → Prop)
    (fresh : ∀ world, world.server.alive = true → (world.connections id).Fresh →
      world.server.connections (world.connections id).name = some id →
      Holds world {((world.connections id).loop, .connection id .connectionEstablished)})
    (preserved : ∀ machine next, system.Reachable (Machine.onExec guard) machine →
      id < machine.client.created → Machine.GuardedStep client Task.Urgent guard machine next →
      Holds machine.client (tokens id machine.flight) → Holds next.client (tokens id next.flight))
    (reachable : system.Reachable (Machine.onExec guard) machine)
    (created : id < machine.client.created) : Holds machine.client (tokens id machine.flight) := by
  refine Machine.reachable_flight client_prompt
    (fun world flight => id < world.created → Holds world (tokens id flight)) ?_ ?_ reachable created
  · rintro world ⟨loop, name, listenAddr, writeCompleteCb, rfl⟩ created
    cases created
  · intro machine next reached step holds created
    by_cases exists' : id < machine.client.created
    · exact preserved machine next reached exists' step (holds exists')
    · -- the connection is the one that `new_connection` makes in this step
      have none := reachable_noneBefore reached id (Nat.le_of_not_lt exists')
      cases step with
      | arrives same => exact absurd (same ▸ created) exists'
      | @executes thread task choice calls rest before _ _ executed flown =>
          rw [before, tokens_add] at none
          have restNone : tokens id rest = 0 :=
            Multiset.le_zero.mp (none ▸ Multiset.le_add_left _ _)
          have executes := exec_executes executed
          generalize next.client = world at executes created
          rw [flown]
          rcases executes.created with same | ⟨rfl, one⟩
          · omega
          · obtain rfl : id = machine.client.created := by omega
            cases executes with
            | newConnection alive freshFd =>
                have made := fresh (machine.client.withNewConnection choice) alive
                  (by rw [withNewConnection_connections_new]; exact ⟨_, _, _, _, rfl⟩)
                  (by rw [withNewConnection_connections_new]; exact Function.update_self _ _ _)
                rw [tokens_add, restNone, add_zero]
                simpa [Call.flight, tokens_own, Task.about, withNewConnection_connections_new]
                  using made

/-- The same in the connection's own terms. `Holds` is given the server's loop, the
connection and its tokens. -/
theorem reachable_connection (id : Nat)
    (Holds : Thread → TcpConnection Thread → Multiset (Located Thread Task) → Prop)
    (fresh : ∀ base connection, connection.Fresh →
      Holds base connection {(connection.loop, .connection id .connectionEstablished)})
    (preserved : ∀ machine before connection after,
      system.Reachable (Machine.onExec guard) machine → id < machine.client.created →
      ConnectionStep guard id machine.client before connection after →
      Holds machine.client.server.loop (machine.client.connections id) before →
      Holds machine.client.server.loop connection after)
    (reachable : system.Reachable (Machine.onExec guard) machine)
    (created : id < machine.client.created) :
    Holds machine.client.server.loop (machine.client.connections id) (tokens id machine.flight) := by
  refine reachable_created id (fun world => Holds world.server.loop (world.connections id)) ?_ ?_
    reachable created
  · exact fun world _ isFresh _ => fresh _ _ isFresh
  · intro machine next reached exists' step holds
    have base : next.client.server.loop = machine.client.server.loop := by
      cases step with
      | executes _ _ _ executed => exact (exec_executes executed).server_loop
      | arrives same => rw [same]
    rw [base]
    exact guardedStep_preserves (Holds machine.client.server.loop) (fun before connection after =>
      preserved machine before connection after reached exists') exists' step holds

end World

end Benet
