/-
Polling with back-off. A poll loop tries, sleeps and tries again until its
time is used up; the sleeps grow with the time already waited. `await` is the
loop and `schedule` the list of its sleeps: `await_eq_attempts` says that the
loop tries once before each of them and once after the last.
-/

namespace SlotTransport.Poll

def minSleep : Nat := 10

def maxSleep : Nat := 5000000

/-- The next sleep: a tenth of the time waited so far, kept between the
shortest and the longest sleep, and never past the time that remains. -/
def backoff (elapsed remaining : Nat) : Nat :=
  min (max minSleep (min (elapsed / 10) maxSleep)) remaining

theorem backoff_pos {remaining : Nat} (elapsed : Nat) (h : 0 < remaining) :
    0 < backoff elapsed remaining := by
  simp only [backoff, minSleep]
  omega

/-- The sleeps of a loop that has waited `elapsed` of its `timeout`. -/
def scheduleFrom (timeout elapsed : Nat) : List Nat :=
  if _h : elapsed < timeout then
    let sleep := backoff elapsed (timeout - elapsed)
    sleep :: scheduleFrom timeout (elapsed + sleep)
  else []
termination_by timeout - elapsed
decreasing_by
  have := backoff_pos elapsed (Nat.sub_pos_of_lt ‹elapsed < timeout›)
  omega

/-- The sleeps of a loop that waits at most `timeout` microseconds. -/
def schedule (timeout : Nat) : List Nat :=
  scheduleFrom timeout 0

section Loop

variable {m : Type → Type} [Monad m] {α : Type}

/-- Tries once before each sleep and once after the last; ends at the first
answer. -/
def attempts (attempt : m (Option α)) : List Nat → m (Option α)
  | [] => attempt
  | _ :: sleeps => do
    match ← attempt with
    | some answer => pure (some answer)
    | none => attempts attempt sleeps

/-- Tries until there is an answer or `timeout` is used up, of which `elapsed`
has been waited. -/
def awaitFrom (attempt : m (Option α)) (timeout elapsed : Nat) : m (Option α) :=
  if _h : elapsed < timeout then do
    match ← attempt with
    | some answer => pure (some answer)
    | none => awaitFrom attempt timeout (elapsed + backoff elapsed (timeout - elapsed))
  else attempt
termination_by timeout - elapsed
decreasing_by
  have := backoff_pos elapsed (Nat.sub_pos_of_lt ‹elapsed < timeout›)
  omega

/-- Tries until there is an answer or `timeout` microseconds are used up. -/
def await (attempt : m (Option α)) (timeout : Nat) : m (Option α) :=
  awaitFrom attempt timeout 0

theorem awaitFrom_eq_attempts (attempt : m (Option α)) (timeout elapsed : Nat) :
    awaitFrom attempt timeout elapsed = attempts attempt (scheduleFrom timeout elapsed) := by
  fun_induction scheduleFrom timeout elapsed with
  | case1 elapsed h sleep ih =>
    rw [awaitFrom, dif_pos h, attempts]
    congr 1
    funext answer
    cases answer with
    | none => exact ih
    | some answer => rfl
  | case2 elapsed h => rw [awaitFrom, dif_neg h, attempts]

theorem await_eq_attempts (attempt : m (Option α)) (timeout : Nat) :
    await attempt timeout = attempts attempt (schedule timeout) :=
  awaitFrom_eq_attempts attempt timeout 0

end Loop

end SlotTransport.Poll
