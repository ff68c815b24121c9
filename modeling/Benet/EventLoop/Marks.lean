import Benet.EventLoop.Flight
import Mathlib.Data.Multiset.Bind

/-!
# What the tasks in flight say about the client's state

A task in flight can stand for a fact about the client's state: it holds a
resource, or it is the only one that will finish something. `marks` lists
what each task stands for. `Marking` says that the marks in flight are exactly
the facts that hold, each of them once; executing a task gives its marks up and
brings those of the calls it makes.
-/

namespace Benet.EventLoop

variable {Thread Task Mark : Type}

/-- The marks of tasks in flight, with the thread that will execute the task. -/
def marks (mark : Task → Multiset Mark) (flight : Multiset (Located Thread Task)) :
    Multiset (Thread × Mark) :=
  flight.bind fun located => (mark located.2).map (located.1, ·)

section Marks

variable (mark : Task → Multiset Mark)

@[simp] theorem marks_zero : marks mark (0 : Multiset (Located Thread Task)) = 0 := rfl

@[simp] theorem marks_add (front back : Multiset (Located Thread Task)) :
    marks mark (front + back) = marks mark front + marks mark back :=
  Multiset.add_bind front back _

@[simp] theorem marks_singleton (thread : Thread) (task : Task) :
    marks mark {(thread, task)} = (mark task).map (thread, ·) := by
  simp [marks]

@[simp] theorem marks_cons (thread : Thread) (task : Task)
    (flight : Multiset (Located Thread Task)) :
    marks mark ((thread, task) ::ₘ flight) = (mark task).map (thread, ·) + marks mark flight :=
  Multiset.cons_bind _ _ _

/-- A mark is there when a task that makes it is in flight. -/
theorem mem_marks {flight : Multiset (Located Thread Task)} {thread : Thread} {fact : Mark} :
    (thread, fact) ∈ marks mark flight ↔ ∃ task, (thread, task) ∈ flight ∧ fact ∈ mark task := by
  simp only [marks, Multiset.mem_bind, Multiset.mem_map, Prod.mk.injEq]
  constructor
  · rintro ⟨⟨other, task⟩, member, found, carried, rfl, rfl⟩
    exact ⟨task, member, carried⟩
  · rintro ⟨task, member, carried⟩
    exact ⟨(thread, task), member, fact, carried, rfl, rfl⟩

/-- Tasks without marks leave none. -/
theorem marks_eq_zero {flight : Multiset (Located Thread Task)}
    (unmarked : ∀ located ∈ flight, mark located.2 = 0) : marks mark flight = 0 := by
  refine Multiset.eq_zero_of_forall_notMem fun ⟨thread, fact⟩ member => ?_
  obtain ⟨task, inFlight, carried⟩ := (mem_marks mark).mp member
  rw [unmarked _ inFlight] at carried
  exact absurd carried (Multiset.notMem_zero _)

end Marks

/-- The multiset holds exactly the facts that are true, each of them once. -/
structure Marking {Fact : Type} (Holds : Fact → Prop) (facts : Multiset Fact) : Prop where
  nodup : facts.Nodup
  mem : ∀ fact, fact ∈ facts ↔ Holds fact

namespace Marking

variable {Fact : Type} {Holds Next : Fact → Prop} {old new rest : Multiset Fact}

/-- What one part of a marking holds is not in the other. -/
theorem not_mem_rest (marking : Marking Holds (old + rest)) {fact : Fact} (member : fact ∈ old) :
    fact ∉ rest :=
  Multiset.disjoint_left.mp (Multiset.nodup_add.mp marking.nodup).2.2 member

/-- A mark that is there says the truth. -/
theorem holds (marking : Marking Holds (old + rest)) {fact : Fact} (member : fact ∈ old) :
    Holds fact :=
  (marking.mem fact).mp (Multiset.mem_add.mpr (.inl member))

/-- The remaining marks are those of the other true facts. -/
theorem mem_rest (marking : Marking Holds (old + rest)) {fact : Fact} :
    fact ∈ rest ↔ Holds fact ∧ fact ∉ old := by
  rw [← marking.mem fact, Multiset.mem_add]
  constructor
  · exact fun member => ⟨.inr member, fun first => marking.not_mem_rest first member⟩
  · rintro ⟨first | later, absent⟩
    · exact absurd first absent
    · exact later

/-- Executing a task gives its marks up. -/
theorem release (marking : Marking Holds (old + rest))
    (next : ∀ fact, Next fact ↔ Holds fact ∧ fact ∉ old) : Marking Next rest where
  nodup := (Multiset.nodup_add.mp marking.nodup).2.1
  mem fact := by rw [next, marking.mem_rest]

/-- The calls that it makes bring new marks, which said something false before. -/
theorem acquire (marking : Marking Holds rest) (nodup : new.Nodup)
    (fresh : ∀ fact ∈ new, ¬ Holds fact)
    (next : ∀ fact, Next fact ↔ fact ∈ new ∨ Holds fact) : Marking Next (new + rest) where
  nodup := by
    refine Multiset.nodup_add.mpr ⟨nodup, marking.nodup, Multiset.disjoint_left.mpr ?_⟩
    intro fact member later
    exact fresh fact member ((marking.mem fact).mp later)
  mem fact := by rw [Multiset.mem_add, next, marking.mem]

/-- A step that keeps the marks keeps what they say. -/
theorem keep {facts : Multiset Fact} (marking : Marking Holds facts)
    (same : ∀ fact, Next fact ↔ Holds fact) : Marking Next facts :=
  ⟨marking.nodup, fun fact => (marking.mem fact).trans (same fact).symm⟩

end Marking

end Benet.EventLoop
