/-
What a put and a take make of the items of a queue.
-/
import SlotTransport.Queue

namespace SlotTransport.Queue

variable {α : Type} {q : Queue α}

theorem exists_put (item : α) {overwrite : Bool}
    (h : q.items.length < q.capacity ∨ overwrite = true) :
    ∃ outcome q', q.put (if overwrite then .evictOldest else .refuse) item = (outcome, q') ∧
      (∀ item', outcome ≠ .refused item') ∧
      q'.items = q.items.drop (q.items.length + 1 - q.capacity) ++ [item] ∧
      q'.capacity = q.capacity := by
  by_cases hroom : q.items.length < q.capacity
  · refine ⟨_, q.push item hroom, by rw [put, dif_pos hroom], fun item' => ?_, ?_, rfl⟩
    · split <;> simp
    · rw [Nat.sub_eq_zero_of_le hroom, List.drop_zero]
      rfl
  · obtain rfl : overwrite = true := h.resolve_left hroom
    have hlast : q.makeRoom.items.length < q.makeRoom.capacity := by
      have := q.capacity_pos
      have := q.length_le
      simp only [makeRoom, List.length_drop]
      omega
    refine ⟨.lost (q.items.length + 1 - q.capacity), q.makeRoom.push item hlast, ?_,
      fun item' => by simp, rfl, rfl⟩
    rw [put, dif_neg hroom, if_pos rfl]

theorem put_refused (item : α) (h : ¬ q.items.length < q.capacity) :
    q.put .refuse item = (.refused item, q) := by
  rw [put, dif_neg h]

theorem take_nil (h : q.items = []) : q.take = (none, q) := by
  unfold take
  split
  · rfl
  · rename_i item rest hcons
    rw [h] at hcons
    cases hcons

theorem take_cons {item : α} {rest : List α} (h : q.items = item :: rest) :
    ∃ q', q.take = (some item, q') ∧ q'.items = rest ∧ q'.capacity = q.capacity := by
  unfold take
  split
  · rename_i hnil
    rw [h] at hnil
    cases hnil
  · rename_i item' rest' hcons
    rw [h] at hcons
    cases hcons
    exact ⟨_, rfl, rfl, rfl⟩

/-! ## What a put comes to -/

/-- How many items a put has lost or handed back, its own among them. -/
def Outcome.losses : Outcome α → Nat
  | .stored => 0
  | .refused _ => 1
  | .lost count => count

/-- A put stores the item at the end of a queue with room; of a full queue the policy
makes one of three things. -/
inductive Puts (q : Queue α) (item : α) : Policy → Outcome α → Queue α → Prop where
  | stored {policy : Policy} {outcome : Outcome α} {q' : Queue α} (hroom : q.isFull = false)
    (houtcome : outcome = .stored ∨ outcome = .lost 0) (hitems : q'.items = q.items ++ [item])
    (hcapacity : q'.capacity = q.capacity) : Puts q item policy outcome q'
  | refused (hfull : q.isFull = true) : Puts q item .refuse (.refused item) q
  | evicted {q' : Queue α} (hfull : q.isFull = true)
    (hitems : q'.items = q.items.drop 1 ++ [item]) (hcapacity : q'.capacity = q.capacity) :
    Puts q item .evictOldest (.lost 1) q'
  | dropped (hfull : q.isFull = true) : Puts q item .dropNewest (.lost 1) q

/-- A full queue holds just as many items as fit, so one lost makes room for one. -/
theorem length_of_isFull (h : q.isFull = true) : q.items.length = q.capacity := by
  have hle := q.length_le
  have hfull : q.capacity ≤ q.items.length := of_decide_eq_true h
  omega

theorem isFull_eq_false_iff : q.isFull = false ↔ q.items.length < q.capacity := by
  simp [isFull]

theorem puts_put (policy : Policy) (q : Queue α) (item : α) :
    q.Puts item policy (q.put policy item).1 (q.put policy item).2 := by
  cases hfull : q.isFull with
  | false =>
    have hroom := isFull_eq_false_iff.mp hfull
    rw [put, dif_pos hroom]
    refine .stored hfull ?_ rfl rfl
    split
    · exact .inl rfl
    · exact .inr rfl
  | true =>
    have hlength := length_of_isFull hfull
    have hone : q.items.length + 1 - q.capacity = 1 := by omega
    rw [put, dif_neg (by omega)]
    cases policy with
    | refuse => exact .refused hfull
    | dropNewest => exact .dropped hfull
    | evictOldest =>
      simp only [hone]
      exact .evicted hfull (by rw [← hone]; rfl) rfl

/-- A put loses one item at most, and none unless the queue is full. -/
theorem Puts.losses {policy : Policy} {q' : Queue α} {item : α} {outcome : Outcome α}
    (h : q.Puts item policy outcome q') :
    outcome.losses ≤ 1 ∧ (outcome.losses ≠ 0 → q.isFull = true) := by
  cases h with
  | stored _ houtcome => rcases houtcome with rfl | rfl <;> simp [Outcome.losses]
  | refused hfull | evicted hfull | dropped hfull => exact ⟨Nat.le_refl 1, fun _ => hfull⟩

/-- To wait where nobody else is comes to the same as not to wait. -/
theorem putWithin_eq (policy : Policy) (q : Queue α) (item : α) (wakes : Nat) :
    q.putWithin policy item wakes = q.put policy item := by
  induction wakes with
  | zero => rfl
  | succ wakes ih =>
    rw [putWithin, ih]
    split <;> rfl

theorem takeWithin_eq (q : Queue α) (wakes : Nat) : q.takeWithin wakes = q.take := by
  induction wakes with
  | zero => rfl
  | succ wakes ih =>
    cases hitems : q.items with
    | nil =>
      rw [takeWithin, take_nil hitems]
      exact ih.trans (take_nil hitems)
    | cons item rest =>
      obtain ⟨q', htake, -⟩ := take_cons hitems
      rw [takeWithin, htake]

end SlotTransport.Queue
