/-
Items handed over through a queue. A producer and a consumer step by turns, in any
order; what was taken, what is queued and what is still to be put is one list at all
times (`HandOff.Sound`), and until both are done one of them can step
(`Sound.exists_step`). So every order of steps hands over the same items
(`handed_over_in_order`), among them the one that `handOff` runs (`handOff_items`).
-/
import SlotTransport.Proofs.Queue.Items

namespace SlotTransport.Queue

variable {α : Type}

namespace HandOff

/-- Who makes a step. -/
inductive Side where
  | producer
  | consumer
  deriving DecidableEq, Repr

/-- The next step of a side, if it does not have to wait. -/
def step? (policy : Policy) (s : HandOff α) : Side → Option (HandOff α)
  | .producer => s.put? policy
  | .consumer => s.take?

/-- What an order of steps leads to, if each of them may be made. -/
def follow? (policy : Policy) : List Side → HandOff α → Option (HandOff α)
  | [], s => some s
  | side :: schedule, s => (s.step? policy side).bind (follow? policy schedule)

/-- Neither side has anything left to do. -/
def isDone (s : HandOff α) : Prop :=
  s.toPut = [] ∧ s.toTake = 0

/-- The items of `q` and then `items` are taken, queued or still to be put, in this
order, and the consumer has taken what it does not have to take any more. -/
structure Sound (s : HandOff α) (q : Queue α) (items : List α) : Prop where
  kept : s.taken ++ (s.queue.items ++ s.toPut) = q.items ++ items
  taken : s.taken.length + s.toTake = items.length
  capacity : s.queue.capacity = q.capacity

variable {policy : Policy} {q : Queue α} {items : List α} {s s' : HandOff α}

theorem put?_cases (h : s.put? policy = some s') :
    ∃ item outcome, s.toPut = item :: s'.toPut ∧
      s.queue.put policy item = (outcome, s'.queue) ∧ outcome.losses = 0 ∧
      s'.queue.items = s.queue.items ++ [item] ∧ s'.queue.capacity = s.queue.capacity ∧
      s'.toTake = s.toTake ∧ s'.taken = s.taken := by
  unfold put? at h
  split at h
  · cases h
  · rename_i item rest htoPut
    split at h
    · cases h
    · rename_i hfull
      cases h
      have hputs := puts_put policy s.queue item
      generalize hq : s.queue.put policy item = put at hputs ⊢
      obtain ⟨outcome, after⟩ := put
      cases hputs with
      | stored _ houtcome hitems hcapacity =>
        refine ⟨item, outcome, htoPut, hq, ?_, hitems, hcapacity, rfl, rfl⟩
        rcases houtcome with rfl | rfl <;> rfl
      | refused hfull' | evicted hfull' | dropped hfull' => exact absurd hfull' hfull

theorem take?_cases (h : s.take? = some s') :
    ∃ item, s.toTake = s'.toTake + 1 ∧ s.queue.items = item :: s'.queue.items ∧
      s'.taken = s.taken ++ [item] ∧ s'.queue.capacity = s.queue.capacity ∧
      s'.toPut = s.toPut := by
  unfold take? at h
  split at h
  · rename_i n item after htoTake htake
    cases h
    cases hitems : s.queue.items with
    | nil =>
      rw [take_nil hitems] at htake
      cases htake
    | cons first rest =>
      obtain ⟨q', htake', hrest, hcapacity⟩ := take_cons hitems
      rw [htake] at htake'
      cases htake'
      exact ⟨item, htoTake, by rw [hrest], rfl, hcapacity, rfl⟩
  · cases h

theorem step?_length {side : Side} (h : s.step? policy side = some s') :
    s'.toPut.length + s'.toTake + 1 = s.toPut.length + s.toTake := by
  cases side with
  | producer =>
    obtain ⟨item, outcome, htoPut, -, -, -, -, htoTake, -⟩ := put?_cases h
    rw [htoPut, htoTake, List.length_cons]
    omega
  | consumer =>
    obtain ⟨item, htoTake, -, -, -, htoPut⟩ := take?_cases h
    rw [htoTake, htoPut]
    omega

namespace Sound

theorem start (q : Queue α) (items : List α) :
    Sound ⟨q, items, items.length, []⟩ q items :=
  ⟨rfl, Nat.zero_add _, rfl⟩

theorem step (h : s.Sound q items) {side : Side} (hstep : s.step? policy side = some s') :
    s'.Sound q items := by
  cases side with
  | producer =>
    obtain ⟨item, outcome, htoPut, -, -, hitems, hcapacity, htoTake, htaken⟩ := put?_cases hstep
    refine ⟨?_, by rw [htaken, htoTake, h.taken], hcapacity.trans h.capacity⟩
    rw [htaken, hitems, List.append_assoc, List.singleton_append, ← htoPut]
    exact h.kept
  | consumer =>
    obtain ⟨item, htoTake, hitems, htaken, hcapacity, htoPut⟩ := take?_cases hstep
    refine ⟨?_, ?_, hcapacity.trans h.capacity⟩
    · rw [htaken, htoPut, List.append_assoc, List.singleton_append, ← List.cons_append, ← hitems]
      exact h.kept
    · rw [htaken, List.length_append, List.length_singleton, ← h.taken, htoTake]
      omega

theorem follow (h : s.Sound q items) {schedule : List Side}
    (hfollow : follow? policy schedule s = some s') : s'.Sound q items := by
  induction schedule generalizing s with
  | nil =>
    cases hfollow
    exact h
  | cons side schedule ih =>
    obtain ⟨next, hstep, hrest⟩ := Option.bind_eq_some_iff.mp hfollow
    exact ih (h.step hstep) hrest

/-- As many items are queued and still to be put as there were in the queue and are
still to be taken. -/
theorem length_eq (h : s.Sound q items) :
    s.queue.items.length + s.toPut.length = q.items.length + s.toTake := by
  have hkept := congrArg List.length h.kept
  have htaken := h.taken
  simp only [List.length_append] at hkept
  omega

/-- Until both are done, one side can step: the producer while there is room, and
where there is none, something is left to be taken. -/
theorem exists_step (h : s.Sound q items) (policy : Policy) (hbusy : ¬ s.isDone) :
    ∃ side s', s.step? policy side = some s' := by
  have hlength := h.length_eq
  have hfits := q.length_le
  have hcapacity := h.capacity
  by_cases hput : s.toPut ≠ [] ∧ s.queue.isFull = false
  · obtain ⟨hsome, hroom⟩ := hput
    obtain ⟨item, rest, htoPut⟩ := List.exists_cons_of_ne_nil hsome
    exact ⟨.producer, _, by simp only [step?, put?, htoPut, hroom]; rfl⟩
  · -- What is to be taken is there: the queue is full, or holds all that is left.
    have hwaiting : s.toTake ≠ 0 ∧ s.queue.items ≠ [] := by
      by_cases hempty : s.toPut = []
      · have hleft : s.toTake ≠ 0 := fun hnone => hbusy ⟨hempty, hnone⟩
        refine ⟨hleft, fun hnil => hleft ?_⟩
        rw [hempty, hnil] at hlength
        simp only [List.length_nil] at hlength
        omega
      · have hfull : s.queue.isFull = true := by
          simpa using fun hroom => hput ⟨hempty, hroom⟩
        have hfilled := length_of_isFull hfull
        have hsome := List.length_pos_iff.mpr hempty
        have hroom := s.queue.capacity_pos
        exact ⟨by omega, fun hnil => by simp [hnil] at hfilled; omega⟩
    obtain ⟨item, rest, hitems⟩ := List.exists_cons_of_ne_nil hwaiting.2
    obtain ⟨n, htoTake⟩ := Nat.exists_eq_succ_of_ne_zero hwaiting.1
    obtain ⟨after, htake, -⟩ := take_cons hitems
    exact ⟨.consumer, _, by simp only [step?, take?, htoTake, htake]; rfl⟩

/-- Once both are done, the first items of all have been taken, as many as were put,
and the others are in the queue. -/
theorem done (h : s.Sound q items) (hdone : s.isDone) :
    s.taken = (q.items ++ items).take items.length ∧
      s.queue.items = (q.items ++ items).drop items.length := by
  obtain ⟨hput, htake⟩ := hdone
  have hlength : s.taken.length = items.length := by
    have htaken := h.taken
    omega
  rw [← h.kept, hput, List.append_nil, ← hlength]
  exact ⟨List.take_left.symm, List.drop_left.symm⟩

end Sound

theorem length_follow? {schedule : List Side} (h : follow? policy schedule s = some s') :
    schedule.length + (s'.toPut.length + s'.toTake) = s.toPut.length + s.toTake := by
  induction schedule generalizing s with
  | nil =>
    cases h
    exact Nat.zero_add _
  | cons side schedule ih =>
    obtain ⟨next, hstep, hrest⟩ := Option.bind_eq_some_iff.mp h
    have hone := step?_length hstep
    have hothers := ih hrest
    rw [List.length_cons]
    omega

/-- **Items are handed over in order.** A producer puts items into a queue, waiting
for room, and a consumer takes as many, waiting for items; whatever the policy, the
queue and the order of their steps, at every moment all items of the queue and of the
producer are there, in their order, and the step of the producer that may come next
loses nothing. Until both are done one of them can step, every step does one of the
things that there are to do, and once both are done the consumer has the first of all
items and the queue the others. -/
theorem handed_over_in_order (policy : Policy) (q : Queue α) (items : List α)
    (schedule : List Side) {s : HandOff α}
    (h : follow? policy schedule ⟨q, items, items.length, []⟩ = some s) :
    s.taken ++ (s.queue.items ++ s.toPut) = q.items ++ items ∧
    (∀ s', s.put? policy = some s' → ∃ item outcome, s.toPut = item :: s'.toPut ∧
      s.queue.put policy item = (outcome, s'.queue) ∧ outcome.losses = 0 ∧
      s'.queue.items = s.queue.items ++ [item]) ∧
    (¬ s.isDone → ∃ side s', s.step? policy side = some s') ∧
    schedule.length + (s.toPut.length + s.toTake) = 2 * items.length ∧
    (s.isDone → s.taken = (q.items ++ items).take items.length ∧
      s.queue.items = (q.items ++ items).drop items.length ∧
      s.queue.items.length = q.items.length) := by
  have hsound : s.Sound q items := (Sound.start q items).follow h
  refine ⟨hsound.kept, fun s' hput => ?_, hsound.exists_step policy, ?_, fun hdone => ?_⟩
  · obtain ⟨item, outcome, htoPut, hq, hloss, hitems, -⟩ := put?_cases hput
    exact ⟨item, outcome, htoPut, hq, hloss, hitems⟩
  · rw [length_follow? h]
    simp only
    omega
  · obtain ⟨htaken, hqueue⟩ := hsound.done hdone
    refine ⟨htaken, hqueue, ?_⟩
    rw [hqueue, List.length_drop, List.length_append]
    omega

/-- Two items pass through a queue that is full with a third and holds no more. -/
theorem handed_over_in_order_full :
    ∃ (q : Queue Nat) (s : HandOff Nat), q.items = [1] ∧ q.isFull = true ∧
      follow? .evictOldest [.consumer, .producer, .consumer, .producer] ⟨q, [2, 3], 2, []⟩ =
        some s ∧ s.taken = [1, 2] ∧ s.queue.items = [3] := by
  have hstart : follow? .evictOldest [.consumer, .producer, .consumer, .producer]
      ⟨⟨[1], 1, by decide, by decide⟩, [2, 3], 2, []⟩ =
        some ⟨⟨[3], 1, by decide, by decide⟩, [], 0, [1, 2]⟩ := rfl
  obtain ⟨-, -, -, -, hdone⟩ := handed_over_in_order _ _ [2, 3] _ hstart
  obtain ⟨htaken, hqueue, -⟩ := hdone ⟨rfl, rfl⟩
  exact ⟨_, _, rfl, by decide, hstart, htaken, hqueue⟩

/-! ## The order that is run -/

/-- With as many steps as there are things to do, a run ends when both are done. -/
theorem run_done {fuel : Nat} (h : s.Sound q items) (hfuel : s.toPut.length + s.toTake ≤ fuel) :
    (run policy fuel s).Sound q items ∧ (run policy fuel s).isDone := by
  induction fuel generalizing s with
  | zero =>
    have hput : s.toPut.length = 0 := by omega
    have htake : s.toTake = 0 := by omega
    exact ⟨h, List.length_eq_zero_iff.mp hput, htake⟩
  | succ fuel ih =>
    rw [run]
    cases hput : s.put? policy with
    | some next =>
      have hstep : s.step? policy .producer = some next := hput
      have hone := step?_length hstep
      exact ih (h.step hstep) (by omega)
    | none =>
      simp only
      cases htake : s.take? with
      | some next =>
        have hstep : s.step? policy .consumer = some next := htake
        have hone := step?_length hstep
        exact ih (h.step hstep) (by omega)
      | none =>
        refine ⟨h, Classical.byContradiction fun hbusy => ?_⟩
        obtain ⟨side, next, hstep⟩ := h.exists_step policy hbusy
        cases side with
        | producer => simp [step?, hput] at hstep
        | consumer => simp [step?, htake] at hstep

end HandOff

/-- What is handed over is the first of all items, and the queue keeps the others. -/
theorem handOff_items (policy : Policy) (q : Queue α) (items : List α) :
    (handOff policy q items).1 = (q.items ++ items).take items.length ∧
      (handOff policy q items).2.items = (q.items ++ items).drop items.length := by
  have hrun : (HandOff.run policy (2 * items.length) ⟨q, items, items.length, []⟩).Sound q items ∧
      (HandOff.run policy (2 * items.length) ⟨q, items, items.length, []⟩).isDone :=
    HandOff.run_done (.start q items) (by simp only; omega)
  exact hrun.1.done hrun.2

end SlotTransport.Queue
