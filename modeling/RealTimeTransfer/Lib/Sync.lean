import Mathlib.Data.List.Basic

/-!
# Mutexes and condition variables

`Mutex T` names the thread that holds it.  `unlock` frees the mutex whoever calls it, so that a
thread that unlocks what it does not hold is seen to break mutual exclusion.

`Cond T` is the list of the threads blocked in it, in the order they came.  A thread that blocked
and is no longer in the list has a wake-up pending; `signal` gives one to the first, `leave` one to
any (a spurious wake-up).
-/

namespace Sync
variable {T : Type*}

/-- a mutex: its holder -/
abbrev Mutex (T : Type*) := Option T

/-- `pthread_mutex_lock`: blocks (`none`) while the mutex is held -/
def Mutex.lock : Mutex T → T → Option (Mutex T)
  | none, t => some (some t)
  | some _, _ => none

def Mutex.unlock (_ : Mutex T) : Mutex T := none

/-- a condition variable: the threads blocked in it -/
abbrev Cond (T : Type*) := List T

def Cond.block (c : Cond T) (t : T) : Cond T := c ++ [t]

def Cond.signal (c : Cond T) : Cond T := c.tail

def Cond.leave [DecidableEq T] (c : Cond T) (t : T) : Cond T := c.erase t

theorem Mutex.lock_eq {m m' : Mutex T} {t : T} (h : m.lock t = some m') :
    m = none ∧ m' = some t := by
  cases m with
  | none => exact ⟨rfl, (Option.some.inj h).symm⟩
  | some u => cases h

end Sync
