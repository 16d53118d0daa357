/-!
# Queues

Pending work in the order of its submission. Draining takes all of it at once.

## Main definitions

* `Queue` with `Queue.submit` and `Queue.drain`.
-/

namespace LiveMap

/-- What waits, the oldest first. -/
structure Queue (τ : Type) where
  pending : List τ := []

namespace Queue

variable {τ : Type}

def submit (q : Queue τ) (task : τ) : Queue τ := ⟨q.pending ++ [task]⟩

/-- All that waits, and the queue without it. -/
def drain (q : Queue τ) : List τ × Queue τ := (q.pending, {})

def length (q : Queue τ) : Nat := q.pending.length

@[simp] theorem pending_submit (q : Queue τ) (task : τ) :
    (q.submit task).pending = q.pending ++ [task] := rfl

@[simp] theorem drain_fst (q : Queue τ) : q.drain.1 = q.pending := rfl

@[simp] theorem pending_drain (q : Queue τ) : q.drain.2.pending = [] := rfl

def submitAll (q : Queue τ) (tasks : List τ) : Queue τ := tasks.foldl submit q

@[simp] theorem pending_submitAll (q : Queue τ) (tasks : List τ) :
    (q.submitAll tasks).pending = q.pending ++ tasks := by
  induction tasks generalizing q with
  | nil => simp [submitAll]
  | cons t ts ih =>
    have h := ih (q.submit t)
    simp only [submitAll, pending_submit, List.append_assoc] at h ⊢
    exact h

end Queue

end LiveMap
