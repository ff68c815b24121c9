import Benet.Connection.Emitted

/-!
# The tasks of one connection

Of all tasks in flight, `tokens` keeps those about one connection, and `inFlight`
counts the occurrences of one task. A task of another connection neither consumes
nor makes any of them, so a result about one connection can be proved with its own
tokens alone.
-/

namespace Benet

open EventLoop Semantics

variable {Thread : Type}

/-- The task is about the connection `id`. -/
def Task.about (id : Nat) : Task → Bool
  | .connection other _ | .onClose other | .removeConnection other => other == id
  | .user | .newConnection | .destroyServer => false

/-- A task is about one connection. -/
theorem Task.about_other {id other : Nat} {task : Task} (own : task.about id = true)
    (different : other ≠ id) : task.about other = false := by
  cases task with
  | connection | onClose | removeConnection =>
      simp only [Task.about, beq_iff_eq] at own
      simpa [Task.about, own] using different.symm
  | user | newConnection | destroyServer => rfl

/-- The tasks in flight that are about the connection `id`. -/
def tokens (id : Nat) (flight : Multiset (Located Thread Task)) :
    Multiset (Located Thread Task) :=
  flight.filter fun located => located.2.about id = true

section Tokens

variable (id : Nat)

@[simp] theorem tokens_zero : tokens id (0 : Multiset (Located Thread Task)) = 0 := rfl

@[simp] theorem tokens_add (front back : Multiset (Located Thread Task)) :
    tokens id (front + back) = tokens id front + tokens id back :=
  Multiset.filter_add _ front back

@[simp] theorem tokens_cons (located : Located Thread Task)
    (flight : Multiset (Located Thread Task)) :
    tokens id (located ::ₘ flight) = tokens id {located} + tokens id flight := by
  rw [← Multiset.singleton_add, tokens_add]

/-- The token of one task. -/
theorem tokens_singleton (thread : Thread) (task : Task) :
    tokens id {(thread, task)} = if task.about id then {(thread, task)} else 0 := by
  simp [tokens, Multiset.filter_singleton]

/-- A task of the connection is a token. -/
theorem tokens_own {task : Task} (thread : Thread) (own : task.about id = true) :
    tokens id {(thread, task)} = {(thread, task)} := by
  rw [tokens_singleton, if_pos own]

/-- A task of another connection is none. -/
theorem tokens_foreign {task : Task} (thread : Thread) (foreign : task.about id = false) :
    tokens id {(thread, task)} = 0 := by
  rw [tokens_singleton, foreign]
  rfl

@[simp] theorem tokens_user (thread : Thread) : tokens id {(thread, Task.user)} = 0 := by
  simp [tokens_singleton, Task.about]

private theorem tokens_eq_zero {flight : Multiset (Located Thread Task)}
    (foreign : ∀ located ∈ flight, located.2.about id = false) : tokens id flight = 0 := by
  rw [tokens, Multiset.filter_eq_nil]
  intro located member
  simp [foreign located member]

/-- A task in flight is a token of the connection it is about. -/
theorem mem_tokens {flight : Multiset (Located Thread Task)} {located : Located Thread Task} :
    located ∈ tokens id flight ↔ located ∈ flight ∧ located.2.about id = true :=
  Multiset.mem_filter

end Tokens

/-- How often a task is in flight. -/
def inFlight (task : Task) (flight : Multiset (Located Thread Task)) : Nat :=
  flight.countP fun located => located.2 = task

section InFlight

variable (task : Task)

@[simp] theorem inFlight_zero : inFlight task (0 : Multiset (Located Thread Task)) = 0 := rfl

@[simp] theorem inFlight_add (front back : Multiset (Located Thread Task)) :
    inFlight task (front + back) = inFlight task front + inFlight task back :=
  Multiset.countP_add _ front back

@[simp] theorem inFlight_cons (located : Located Thread Task)
    (flight : Multiset (Located Thread Task)) :
    inFlight task (located ::ₘ flight) = inFlight task {located} + inFlight task flight := by
  rw [← Multiset.singleton_add, inFlight_add]

@[simp] theorem inFlight_singleton (thread : Thread) (other : Task) :
    inFlight task {(thread, other)} = if other = task then 1 else 0 := by
  rw [inFlight, ← Multiset.cons_zero, Multiset.countP_cons]
  simp

/-- A task that is not in flight is counted as zero. -/
theorem inFlight_eq_zero {flight : Multiset (Located Thread Task)} :
    inFlight task flight = 0 ↔ ∀ located ∈ flight, located.2 ≠ task :=
  Multiset.countP_eq_zero

/-- Among the tokens a task of the connection is counted in full. -/
theorem inFlight_tokens {id : Nat} (own : task.about id = true)
    (flight : Multiset (Located Thread Task)) :
    inFlight task (tokens id flight) = inFlight task flight := by
  simp only [inFlight, tokens, Multiset.countP_filter]
  apply Multiset.countP_congr rfl
  intro located _
  simp only [and_iff_left_iff_imp, eq_iff_iff]
  intro same
  rw [same, own]

end InFlight

/-- What a task of a connection calls is about this connection or user code. -/
theorem Emitted.own {thread loop : Thread} {id : Nat} {task : ConnectionTask}
    {located : Located Thread Task} (emitted : Emitted thread loop id task located) :
    located.2 = .user ∨ located.2.about id = true := by
  cases emitted <;> simp [Task.about]

namespace Site

variable [DecidableEq Thread] {thread : Thread} {id : Nat} {answers : Answers}
  {site next : Site Thread} {calls : List (Call Thread Task)} {task : ConnectionTask}

/-- So it leaves the tokens of other connections alone. -/
theorem Effect.tokens_other {other : Nat} (different : other ≠ id)
    (effect : Effect thread id answers site task next calls) :
    tokens other (Call.flights thread calls) = 0 := by
  apply tokens_eq_zero
  intro located member
  rcases (effect.emitted located member).own with user | own
  · rw [user]
    rfl
  · exact Task.about_other own different

/-- A task that no function of the connection calls. -/
theorem Effect.inFlight_foreign (effect : Effect thread id answers site task next calls)
    {foreign : Task} (about : foreign.about id = true)
    (never : ∀ waiting, ¬ Emitted thread site.connection.loop id task (waiting, foreign)) :
    inFlight foreign (tokens id (Call.flights thread calls)) = 0 := by
  rw [inFlight_tokens _ about, inFlight_eq_zero]
  rintro ⟨waiting, _⟩ member rfl
  exact never waiting (effect.emitted _ member)

/-- `on_close_` is called when `handle_close` finds the connection open. -/
theorem Effect.inFlight_onClose (effect : Effect thread id answers site task next calls) :
    inFlight (.onClose id) (tokens id (Call.flights thread calls)) =
      if task = .handleClose ∧
        (site.connection.state = .connected ∨ site.connection.state = .disconnecting)
      then 1 else 0 := by
  by_cases closing : task = .handleClose
  · subst closing
    rw [inFlight_tokens _ (by simp [Task.about])]
    cases effect with
    | closeSkipped notConnected notDisconnecting => simp [notConnected, notDisconnecting]
    | closes state => simp [Call.flight, state]
  · rw [if_neg fun both => closing both.1]
    refine effect.inFlight_foreign (by simp [Task.about]) fun waiting emitted => ?_
    cases emitted
    exact closing rfl

end Site

end Benet
