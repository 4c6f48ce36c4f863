/-
How long a poll loop sleeps. `Sleeps` lists what the sleeps of a loop can be: each is the pace at
which the loop has come to poll, and the last is what remains if that is less. The schedule is such
a list (`sleeps_scheduleFrom`), and what such lists have in common is found by induction on them:
the sleeps add up to what remains (`Sleeps.add_sum`), none but the last is shorter than the one
before (`Sleeps.pairwise`), and there are no more than if all were of the shortest
(`Sleeps.length_le`). So a loop ends at its timeout (`schedule_ends_at_timeout`).
-/
import Mathlib.Algebra.Order.Floor.Div
import SlotTransport.Poll

namespace SlotTransport.Poll

/-- The next sleep of a loop that has time enough left. -/
def pace (elapsed : Nat) : Nat :=
  max minSleep (min (elapsed / 10) maxSleep)

theorem backoff_eq_min (elapsed remaining : Nat) :
    backoff elapsed remaining = min (pace elapsed) remaining :=
  rfl

theorem minSleep_le_pace (elapsed : Nat) : minSleep ≤ pace elapsed :=
  Nat.le_max_left _ _

theorem pace_le_maxSleep (elapsed : Nat) : pace elapsed ≤ maxSleep := by
  simp only [pace, minSleep, maxSleep]
  omega

theorem pace_mono {elapsed later : Nat} (h : elapsed ≤ later) : pace elapsed ≤ pace later := by
  simp only [pace]
  omega

/-- What the sleeps of a loop can be that has waited `elapsed` of its `timeout`. -/
inductive Sleeps (timeout : Nat) : (elapsed : Nat) → List Nat → Prop where
  /-- The time is up. -/
  | ended : Sleeps timeout timeout []
  /-- No more remains than the next sleep. -/
  | last {elapsed : Nat} (h : elapsed < timeout) (hcut : timeout ≤ elapsed + pace elapsed) :
      Sleeps timeout elapsed [timeout - elapsed]
  /-- The next sleep is a whole one, and some time remains after it. -/
  | whole {elapsed : Nat} {sleeps : List Nat} (h : elapsed + pace elapsed < timeout)
      (rest : Sleeps timeout (elapsed + pace elapsed) sleeps) :
      Sleeps timeout elapsed (pace elapsed :: sleeps)

variable {timeout elapsed : Nat} {sleeps : List Nat}

theorem sleeps_scheduleFrom (h : elapsed ≤ timeout) :
    Sleeps timeout elapsed (scheduleFrom timeout elapsed) := by
  fun_induction scheduleFrom timeout elapsed with
  | case1 elapsed hlt sleep ih =>
    have hsleep : sleep = min (pace elapsed) (timeout - elapsed) := rfl
    by_cases hcut : timeout ≤ elapsed + pace elapsed
    · have hall : sleep = timeout - elapsed := by omega
      have hover : scheduleFrom timeout (elapsed + sleep) = [] := by
        rw [scheduleFrom, dif_neg (by omega)]
      rw [hover, hall]
      exact .last hlt hcut
    · have hpace : sleep = pace elapsed := by omega
      have hrest := ih (by omega)
      rw [hpace] at hrest ⊢
      exact .whole (by omega) hrest
  | case2 elapsed hge =>
    obtain rfl : elapsed = timeout := by omega
    exact .ended

namespace Sleeps

theorem add_sum (h : Sleeps timeout elapsed sleeps) : elapsed + sleeps.sum = timeout := by
  induction h with
  | ended => simp
  | last h hcut =>
    rw [List.sum_singleton]
    omega
  | whole h rest ih =>
    rw [List.sum_cons]
    omega

theorem ne_nil (h : Sleeps timeout elapsed sleeps) (hlt : elapsed < timeout) : sleeps ≠ [] := by
  rintro rfl
  have hsum := h.add_sum
  simp at hsum
  omega

theorem bounds (h : Sleeps timeout elapsed sleeps) :
    ∀ sleep ∈ sleeps, 0 < sleep ∧ sleep ≤ maxSleep := by
  induction h with
  | ended => simp
  | @last elapsed h hcut =>
    have hmax := pace_le_maxSleep elapsed
    intro sleep hsleep
    obtain rfl := List.mem_singleton.mp hsleep
    omega
  | @whole elapsed sleeps h rest ih =>
    have hmin : 0 < minSleep := by decide
    have hpos := Nat.lt_of_lt_of_le hmin (minSleep_le_pace elapsed)
    exact List.forall_mem_cons.mpr ⟨⟨hpos, pace_le_maxSleep elapsed⟩, ih⟩

/-- All sleeps but the last are whole ones, at the pace of the time waited by then or more. -/
theorem pace_le (h : Sleeps timeout elapsed sleeps) :
    ∀ sleep ∈ sleeps.dropLast, pace elapsed ≤ sleep := by
  induction h with
  | ended => simp
  | last => simp
  | @whole elapsed sleeps h rest ih =>
    rw [List.dropLast_cons_of_ne_nil (rest.ne_nil h)]
    refine List.forall_mem_cons.mpr ⟨Nat.le_refl _, fun sleep hsleep => ?_⟩
    exact Nat.le_trans (pace_mono (Nat.le_add_right _ _)) (ih sleep hsleep)

theorem pairwise (h : Sleeps timeout elapsed sleeps) : sleeps.dropLast.Pairwise (· ≤ ·) := by
  induction h with
  | ended => simp
  | last => simp
  | @whole elapsed sleeps h rest ih =>
    rw [List.dropLast_cons_of_ne_nil (rest.ne_nil h)]
    refine List.pairwise_cons.mpr ⟨fun sleep hsleep => ?_, ih⟩
    exact Nat.le_trans (pace_mono (Nat.le_add_right _ _)) (rest.pace_le sleep hsleep)

/-- All sleeps but the last take the shortest sleep's time at least. -/
theorem length_le (h : Sleeps timeout elapsed sleeps) :
    elapsed + minSleep * sleeps.length < timeout + minSleep := by
  have hmin : minSleep = 10 := rfl
  induction h with
  | ended => simp [hmin]
  | last h hcut =>
    rw [List.length_singleton]
    omega
  | @whole elapsed sleeps h rest ih =>
    have hpace := minSleep_le_pace elapsed
    rw [List.length_cons, Nat.mul_add_one]
    omega

/-- Each sleep is the back-off at the time waited before it, and that is before the timeout. -/
theorem getElem_eq (h : Sleeps timeout elapsed sleeps) (k : Nat) (hk : k < sleeps.length) :
    elapsed + (sleeps.take k).sum < timeout ∧
      sleeps[k] = backoff (elapsed + (sleeps.take k).sum)
        (timeout - (elapsed + (sleeps.take k).sum)) := by
  induction h generalizing k with
  | ended => simp at hk
  | last h hcut =>
    obtain rfl : k = 0 := by simpa using hk
    simp only [List.take_zero, List.sum_nil, Nat.add_zero, List.getElem_cons_zero, backoff_eq_min]
    omega
  | @whole elapsed sleeps h rest ih =>
    cases k with
    | zero =>
      simp only [List.take_zero, List.sum_nil, Nat.add_zero, List.getElem_cons_zero,
        backoff_eq_min]
      omega
    | succ k =>
      have hnext := ih k (Nat.lt_of_succ_lt_succ hk)
      simpa only [List.take_succ_cons, List.sum_cons, List.getElem_cons_succ, Nat.add_assoc]
        using hnext

end Sleeps

/-! ## The whole schedule -/

/-- What a loop has waited after its first `k` sleeps. -/
def waited (timeout k : Nat) : Nat :=
  ((schedule timeout).take k).sum

theorem sleeps_schedule (timeout : Nat) : Sleeps timeout 0 (schedule timeout) :=
  sleeps_scheduleFrom (Nat.zero_le timeout)

theorem sum_schedule (timeout : Nat) : (schedule timeout).sum = timeout := by
  have hsum := (sleeps_schedule timeout).add_sum
  omega

theorem waited_le (timeout k : Nat) : waited timeout k ≤ timeout := by
  have hsplit := congrArg List.sum (List.take_append_drop k (schedule timeout))
  rw [List.sum_append, sum_schedule] at hsplit
  unfold waited
  omega

theorem length_schedule_le (timeout : Nat) : (schedule timeout).length ≤ timeout ⌈/⌉ 10 := by
  have hlength := (sleeps_schedule timeout).length_le
  rw [Nat.ceilDiv_eq_add_pred_div]
  simp only [minSleep] at hlength
  omega

/-- **A poll loop ends at its timeout.** As long as time remains, it sleeps for the back-off of the
time that it has waited and the time that remains. No sleep is empty or longer than five seconds,
the loop never waits longer than its timeout, and no sleep but the last is shorter than the one
before. After the last sleep just the timeout has been waited, and there are no more sleeps than
the tenth part of the timeout, rounded up. Whatever a loop attempts, it attempts it before each of
these sleeps and after the last, unless it gets an answer before. -/
theorem schedule_ends_at_timeout (timeout : Nat) :
    (∀ k (hk : k < (schedule timeout).length), waited timeout k < timeout ∧
      (schedule timeout)[k] = backoff (waited timeout k) (timeout - waited timeout k)) ∧
    (∀ sleep ∈ schedule timeout, 0 < sleep ∧ sleep ≤ 5000000) ∧
    (∀ k, waited timeout k ≤ timeout) ∧
    (schedule timeout).dropLast.Pairwise (· ≤ ·) ∧
    waited timeout (schedule timeout).length = timeout ∧
    (schedule timeout).length ≤ timeout ⌈/⌉ 10 ∧
    ∀ {m : Type → Type} [Monad m] {α : Type} (attempt : m (Option α)),
      await attempt timeout = attempts attempt (schedule timeout) := by
  have h := sleeps_schedule timeout
  refine ⟨fun k hk => ?_, h.bounds, waited_le timeout, h.pairwise, ?_,
    length_schedule_le timeout, ?_⟩
  · have hstep := h.getElem_eq k hk
    rwa [Nat.zero_add] at hstep
  · rw [waited, List.take_length, sum_schedule]
  · intro m _ α attempt
    exact await_eq_attempts attempt timeout

/-- The longest timeout that a word counts is waited to its end as well. -/
theorem schedule_ends_at_longest :
    waited 0xffffffffffffffff (schedule 0xffffffffffffffff).length = 0xffffffffffffffff ∧
      (schedule 0xffffffffffffffff).length ≤ 0x199999999999999a ∧
      ∀ sleep ∈ schedule 0xffffffffffffffff, 0 < sleep ∧ sleep ≤ 5000000 := by
  obtain ⟨-, hbounds, -, -, hwaited, hlength, -⟩ := schedule_ends_at_timeout 0xffffffffffffffff
  exact ⟨hwaited, hlength, hbounds⟩

/-- The last sleep is as long as is left. -/
example : schedule 25 = [10, 10, 5] := by decide +kernel

end SlotTransport.Poll
