/-
What becomes of the items of a queue. A ledger numbers the items as they are put and
moves them from place to place by what is asked of the queue and what it answers,
without a look into it. It is right in every run (`every_item_in_one_place`): what it
takes to wait is what the queue holds, and each item is in one place.
-/
import Mathlib.Algebra.BigOperators.Group.List.Basic
import Mathlib.Algebra.Order.Group.Multiset
import Mathlib.Tactic.Abel
import SlotTransport.Proofs.Queue.Items

namespace SlotTransport.Queue

variable {α : Type}

/-! ## Calls -/

/-- What may be asked of a queue in one go. A call that waits does so in vain:
nobody else is at the queue meanwhile. -/
inductive Call (α : Type) where
  | put (item : α)
  | putWithin (item : α) (wakes : Nat)
  | take
  | takeWithin (wakes : Nat)
  | resize (capacity : Nat)
  | clear
  deriving DecidableEq, Repr

/-- What was asked of a queue, and what it answered. -/
inductive Event (α : Type) where
  | put (item : α) (outcome : Outcome α)
  | take (item? : Option α)
  | resize (capacity : Nat) (done : Bool)
  | clear (count : Nat)
  deriving DecidableEq, Repr

/-- What comes of a call. -/
def perform (policy : Policy) (q : Queue α) : Call α → Event α × Queue α
  | .put item => (.put item (q.put policy item).1, (q.put policy item).2)
  | .putWithin item wakes =>
    (.put item (q.putWithin policy item wakes).1, (q.putWithin policy item wakes).2)
  | .take => (.take q.take.1, q.take.2)
  | .takeWithin wakes => (.take (q.takeWithin wakes).1, (q.takeWithin wakes).2)
  | .resize capacity => (.resize capacity (q.resize capacity).1, (q.resize capacity).2)
  | .clear => (.clear q.clear.1, q.clear.2)

/-- What calls make of a new queue, the latest call first. -/
def after (policy : Policy) (capacity : Nat) : List (Call α) → Queue α
  | [] => withCapacity capacity
  | call :: earlier => ((after policy capacity earlier).perform policy call).2

/-- What calls of a new queue come to, the latest first. -/
def history (policy : Policy) (capacity : Nat) : List (Call α) → List (Event α)
  | [] => []
  | call :: earlier =>
    ((after policy capacity earlier).perform policy call).1 :: history policy capacity earlier

namespace Event

/-- The item that was put. -/
def put? : Event α → Option α
  | put item _ => some item
  | _ => none

/-- The item that was taken. -/
def taken? : Event α → Option α
  | take item? => item?
  | _ => none

/-- The item that was handed back. -/
def handedBack? : Event α → Option α
  | put _ (.refused item) => some item
  | _ => none

/-- How many items a put has lost, by its own count. -/
def lost : Event α → Nat
  | put _ (.lost count) => count
  | _ => 0

/-- How many items were cleared, by the count of the call. -/
def cleared : Event α → Nat
  | clear count => count
  | _ => 0

end Event

/-- The items of an order of events, the earliest event first. -/
def itemsOf (item? : Event α → Option α) (events : List (Event α)) : List α :=
  events.reverse.filterMap item?

/-- What events come to, counted together. -/
def countOf (count : Event α → Nat) (events : List (Event α)) : Nat :=
  (events.map count).sum

/-! ## The ledger -/

/-- Where every item is that has been put. An item is entered with the number of
those put before it; those that wait and those taken are in the order in which they
came to be there. -/
structure Ledger (α : Type) where
  /-- How many items have been put. -/
  puts : Nat
  waiting : List (α × Nat)
  taken : List (α × Nat)
  /-- Removed by a call that clears the queue. -/
  cleared : List (α × Nat)
  /-- Lost at the head of the queue to a later item. -/
  evicted : List (α × Nat)
  /-- Never let in. -/
  dropped : List (α × Nat)
  handedBack : List (α × Nat)

namespace Ledger

/-- The ledger of a queue that nothing has been put into. -/
def blank : Ledger α :=
  ⟨0, [], [], [], [], [], []⟩

/-- The item just put waits behind the others, and so many of those are lost at the
head. -/
def receive (l : Ledger α) (item : α) (lost : Nat) : Ledger α :=
  { l with
    puts := l.puts + 1
    waiting := l.waiting.drop lost ++ [(item, l.puts)]
    evicted := l.evicted ++ l.waiting.take lost }

/-- Enters a put. Where the new item is dropped, a put that has lost something has
lost that. -/
def enterPut (policy : Policy) (l : Ledger α) (item : α) : Outcome α → Ledger α
  | .stored => l.receive item 0
  | .refused back =>
    { l with puts := l.puts + 1, handedBack := l.handedBack ++ [(back, l.puts)] }
  | .lost 0 => l.receive item 0
  | .lost (count + 1) =>
    if policy = .dropNewest then
      { l with puts := l.puts + 1, dropped := l.dropped ++ [(item, l.puts)] }
    else l.receive item (count + 1)

/-- Enters an event. What leaves the queue leaves it at the head. -/
def enter (policy : Policy) (l : Ledger α) : Event α → Ledger α
  | .put item outcome => l.enterPut policy item outcome
  | .take (some _) =>
    { l with waiting := l.waiting.drop 1, taken := l.taken ++ l.waiting.take 1 }
  | .take none | .resize .. => l
  | .clear count =>
    { l with waiting := l.waiting.drop count, cleared := l.cleared ++ l.waiting.take count }

/-- All entries, place by place. -/
def entries (l : Ledger α) : List (α × Nat) :=
  l.waiting ++ l.taken ++ l.cleared ++ l.evicted ++ l.dropped ++ l.handedBack

end Ledger

/-- The ledger of events, the latest event first. -/
def ledger (policy : Policy) : List (Event α) → Ledger α
  | [] => .blank
  | event :: earlier => (ledger policy earlier).enter policy event

/-! ## Events counted up -/

variable {event : Event α} {events : List (Event α)} {item : α}

theorem itemsOf_cons_of_some {item? : Event α → Option α} (h : item? event = some item) :
    itemsOf item? (event :: events) = itemsOf item? events ++ [item] := by
  rw [itemsOf, List.reverse_cons, List.filterMap_append, itemsOf]
  simp [h]

theorem itemsOf_cons_of_none {item? : Event α → Option α} (h : item? event = none) :
    itemsOf item? (event :: events) = itemsOf item? events := by
  rw [itemsOf, List.reverse_cons, List.filterMap_append, itemsOf]
  simp [h]

theorem countOf_cons (count : Event α → Nat) :
    countOf count (event :: events) = count event + countOf count events := by
  rw [countOf, List.map_cons, List.sum_cons, countOf]

theorem countOf_cons_of_zero {count : Event α → Nat} (h : count event = 0) :
    countOf count (event :: events) = countOf count events := by
  rw [countOf_cons, h, Nat.zero_add]

/-! ## The ledger is right -/

theorem coe_split (count : Nat) (entries : List (α × Nat)) :
    (entries : Multiset (α × Nat)) = ↑(entries.take count) + ↑(entries.drop count) := by
  rw [Multiset.coe_add, List.take_append_drop]

/-- What a ledger has to do with the events entered and with the queue. -/
structure Ledger.Fits (l : Ledger α) (policy : Policy) (events : List (Event α)) (q : Queue α) :
    Prop where
  puts : l.puts = (itemsOf Event.put? events).length
  waiting : l.waiting.map Prod.fst = q.items
  order : ((l.taken ++ l.waiting).map Prod.snd).Pairwise (· < ·)
  entries : l.entries.Perm (itemsOf Event.put? events).zipIdx
  taken : l.taken.map Prod.fst = itemsOf Event.taken? events
  cleared : l.cleared.length = countOf Event.cleared events
  handedBack : l.handedBack.map Prod.fst = itemsOf Event.handedBack? events
  lost : l.evicted.length + l.dropped.length = countOf Event.lost events
  evicted : policy ≠ .evictOldest → l.evicted = []
  dropped : policy ≠ .dropNewest → l.dropped = []
  refused : policy ≠ .refuse → l.handedBack = []

namespace Ledger.Fits

variable {l : Ledger α} {policy : Policy} {q q' : Queue α}

theorem blank (policy : Policy) (capacity : Nat) :
    (Ledger.blank : Ledger α).Fits policy [] (withCapacity capacity) where
  puts := rfl
  waiting := rfl
  order := .nil
  entries := .refl _
  taken := rfl
  cleared := rfl
  handedBack := rfl
  lost := rfl
  evicted _ := rfl
  dropped _ := rfl
  refused _ := rfl

theorem lt_puts (h : l.Fits policy events q) {entry : α × Nat} (hentry : entry ∈ l.entries) :
    entry.2 < l.puts := by
  have hmem := h.entries.mem_iff.mp hentry
  have hlt := (List.mem_zipIdx hmem).2.1
  rw [h.puts]
  omega

theorem length_waiting (h : l.Fits policy events q) : l.waiting.length = q.items.length := by
  rw [← h.waiting, List.length_map]

theorem perm_concat (h : l.Fits policy events q) {outcome : Outcome α}
    {entries : List (α × Nat)} (hentries : entries.Perm (l.entries ++ [(item, l.puts)])) :
    entries.Perm (itemsOf Event.put? (.put item outcome :: events)).zipIdx := by
  rw [itemsOf_cons_of_some rfl, List.zipIdx_append, Nat.zero_add, ← h.puts]
  exact hentries.trans (h.entries.append_right _)

theorem succ_puts (h : l.Fits policy events q) (item : α) (outcome : Outcome α) :
    l.puts + 1 = (itemsOf Event.put? (.put item outcome :: events)).length := by
  rw [itemsOf_cons_of_some rfl, List.length_append, ← h.puts, List.length_singleton]

theorem receive (h : l.Fits policy events q) {outcome : Outcome α} {count : Nat}
    (hcount : count ≤ q.items.length) (hlost : (Event.put item outcome).lost = count)
    (hback : (Event.put item outcome).handedBack? = none)
    (hevict : policy ≠ .evictOldest → count = 0)
    (hitems : q'.items = q.items.drop count ++ [item]) :
    (l.receive item count).Fits policy (.put item outcome :: events) q' where
  puts := h.succ_puts item outcome
  waiting := by
    rw [Ledger.receive, hitems, List.map_append, List.map_drop, h.waiting]
    rfl
  order := by
    have hold : ((l.taken ++ l.waiting.drop count).map Prod.snd).Pairwise (· < ·) :=
      h.order.sublist (((List.drop_sublist ..).append_left _).map _)
    have hnew : ∀ n ∈ (l.taken ++ l.waiting.drop count).map Prod.snd, n < l.puts := by
      intro n hn
      obtain ⟨entry, hentry, rfl⟩ := List.mem_map.mp hn
      refine h.lt_puts ?_
      rcases List.mem_append.mp hentry with htaken | hwaiting
      · simp [Ledger.entries, htaken]
      · simp [Ledger.entries, List.mem_of_mem_drop hwaiting]
    rw [Ledger.receive, ← List.append_assoc, List.map_append]
    exact List.pairwise_append.mpr ⟨hold, List.pairwise_singleton .., by simpa using hnew⟩
  entries := by
    refine h.perm_concat (Multiset.coe_eq_coe.mp ?_)
    simp only [Ledger.entries, Ledger.receive, ← Multiset.coe_add]
    rw [coe_split count l.waiting]
    abel
  taken := h.taken.trans (itemsOf_cons_of_none rfl).symm
  cleared := h.cleared.trans (countOf_cons_of_zero rfl).symm
  handedBack := h.handedBack.trans (itemsOf_cons_of_none hback).symm
  lost := by
    have hsum := h.lost
    have hwaiting := h.length_waiting
    rw [countOf_cons, hlost]
    simp only [Ledger.receive, List.length_append, List.length_take]
    omega
  evicted hpolicy := by
    rw [Ledger.receive, h.evicted hpolicy, hevict hpolicy]
    rfl
  dropped := h.dropped
  refused := h.refused

theorem refuse (h : l.Fits .refuse events q) (item : α) :
    (l.enterPut .refuse item (.refused item)).Fits .refuse
      (.put item (.refused item) :: events) q where
  puts := h.succ_puts item _
  waiting := h.waiting
  order := h.order
  entries := by
    refine h.perm_concat ?_
    rw [Ledger.entries, Ledger.entries, List.append_assoc _ _ [(item, l.puts)]]
    exact .refl _
  taken := h.taken.trans (itemsOf_cons_of_none rfl).symm
  cleared := h.cleared.trans (countOf_cons_of_zero rfl).symm
  handedBack := by
    rw [itemsOf_cons_of_some rfl, ← h.handedBack]
    exact List.map_append
  lost := h.lost.trans (countOf_cons_of_zero rfl).symm
  evicted := h.evicted
  dropped := h.dropped
  refused hpolicy := absurd rfl hpolicy

theorem dropNew (h : l.Fits .dropNewest events q) (item : α) :
    (l.enterPut .dropNewest item (.lost 1)).Fits .dropNewest
      (.put item (.lost 1) :: events) q where
  puts := h.succ_puts item _
  waiting := h.waiting
  order := h.order
  entries := by
    refine h.perm_concat (Multiset.coe_eq_coe.mp ?_)
    simp only [Ledger.entries, Ledger.enterPut, if_true, ← Multiset.coe_add]
    abel
  taken := h.taken.trans (itemsOf_cons_of_none rfl).symm
  cleared := h.cleared.trans (countOf_cons_of_zero rfl).symm
  handedBack := h.handedBack.trans (itemsOf_cons_of_none rfl).symm
  lost := by
    have hsum := h.lost
    rw [countOf_cons]
    simp only [Ledger.enterPut, if_true, List.length_append, List.length_singleton, Event.lost]
    omega
  evicted := h.evicted
  dropped hpolicy := absurd rfl hpolicy
  refused := h.refused

theorem take (h : l.Fits policy events q) (hitems : q.items = item :: q'.items) :
    (l.enter policy (.take (some item))).Fits policy (.take (some item) :: events) q' where
  puts := by
    rw [itemsOf_cons_of_none rfl]
    exact h.puts
  waiting := by
    rw [Ledger.enter, List.map_drop, h.waiting, hitems]
    rfl
  order := by
    rw [Ledger.enter, List.append_assoc, List.take_append_drop]
    exact h.order
  entries := by
    rw [itemsOf_cons_of_none rfl]
    refine (Multiset.coe_eq_coe.mp ?_).trans h.entries
    simp only [Ledger.entries, Ledger.enter, ← Multiset.coe_add]
    rw [coe_split 1 l.waiting]
    abel
  taken := by
    rw [itemsOf_cons_of_some rfl, Ledger.enter, List.map_append, List.map_take, h.taken,
      h.waiting, hitems]
    rfl
  cleared := h.cleared.trans (countOf_cons_of_zero rfl).symm
  handedBack := h.handedBack.trans (itemsOf_cons_of_none rfl).symm
  lost := h.lost.trans (countOf_cons_of_zero rfl).symm
  evicted := h.evicted
  dropped := h.dropped
  refused := h.refused

theorem clear (h : l.Fits policy events q) (hitems : q'.items = []) :
    (l.enter policy (.clear q.items.length)).Fits policy (.clear q.items.length :: events) q' where
  puts := by
    rw [itemsOf_cons_of_none rfl]
    exact h.puts
  waiting := by
    rw [Ledger.enter, ← h.length_waiting, List.drop_length, hitems]
    rfl
  order := by
    rw [Ledger.enter, ← h.length_waiting, List.drop_length]
    exact h.order.sublist ((List.append_sublist_append_left _).mpr (List.nil_sublist _) |>.map _)
  entries := by
    rw [itemsOf_cons_of_none rfl]
    refine (Multiset.coe_eq_coe.mp ?_).trans h.entries
    rw [Ledger.entries, Ledger.entries, Ledger.enter, ← h.length_waiting, List.drop_length,
      List.take_length]
    simp only [← Multiset.coe_add, Multiset.coe_nil]
    abel
  taken := h.taken.trans (itemsOf_cons_of_none rfl).symm
  cleared := by
    rw [countOf_cons, ← h.cleared, Ledger.enter, List.length_append, ← h.length_waiting,
      List.take_length, Nat.add_comm]
    rfl
  handedBack := h.handedBack.trans (itemsOf_cons_of_none rfl).symm
  lost := h.lost.trans (countOf_cons_of_zero rfl).symm
  evicted := h.evicted
  dropped := h.dropped
  refused := h.refused

theorem idle (h : l.Fits policy events q) (hitems : q'.items = q.items)
    (hput : event.put? = none) (htaken : event.taken? = none)
    (hback : event.handedBack? = none) (hcleared : event.cleared = 0) (hlost : event.lost = 0) :
    l.Fits policy (event :: events) q' where
  puts := by
    rw [itemsOf_cons_of_none hput]
    exact h.puts
  waiting := h.waiting.trans hitems.symm
  order := h.order
  entries := by
    rw [itemsOf_cons_of_none hput]
    exact h.entries
  taken := h.taken.trans (itemsOf_cons_of_none htaken).symm
  cleared := h.cleared.trans (countOf_cons_of_zero hcleared).symm
  handedBack := h.handedBack.trans (itemsOf_cons_of_none hback).symm
  lost := h.lost.trans (countOf_cons_of_zero hlost).symm
  evicted := h.evicted
  dropped := h.dropped
  refused := h.refused

/-! ## Every call -/

theorem put (h : l.Fits policy events q) {outcome : Outcome α}
    (hputs : q.Puts item policy outcome q') :
    (l.enter policy (.put item outcome)).Fits policy (.put item outcome :: events) q' := by
  cases hputs with
  | stored hroom houtcome hitems =>
    have hreceive : l.enter policy (.put item outcome) = l.receive item 0 := by
      rcases houtcome with rfl | rfl <;> rfl
    rw [hreceive]
    refine h.receive (Nat.zero_le _) ?_ ?_ (fun _ => rfl) hitems <;>
      rcases houtcome with rfl | rfl <;> rfl
  | refused => exact h.refuse item
  | evicted hfull hitems =>
    have hsome : 1 ≤ q.items.length := length_of_isFull hfull ▸ q.capacity_pos
    exact h.receive hsome rfl rfl (fun hpolicy => absurd rfl hpolicy) hitems
  | dropped => exact h.dropNew item

theorem took (h : l.Fits policy events q) :
    (l.enter policy (.take q.take.1)).Fits policy (.take q.take.1 :: events) q.take.2 := by
  cases hitems : q.items with
  | nil =>
    rw [take_nil hitems]
    exact h.idle rfl rfl rfl rfl rfl rfl
  | cons item rest =>
    obtain ⟨q', htake, hrest, -⟩ := take_cons hitems
    rw [htake]
    exact h.take (hrest ▸ hitems)

/-- Whatever is asked of the queue, the ledger follows. -/
theorem perform (h : l.Fits policy events q) (call : Call α) :
    (l.enter policy (q.perform policy call).1).Fits policy
      ((q.perform policy call).1 :: events) (q.perform policy call).2 := by
  cases call with
  | put item => exact h.put (puts_put policy q item)
  | putWithin item wakes =>
    rw [Queue.perform, putWithin_eq]
    exact h.put (puts_put policy q item)
  | take => exact h.took
  | takeWithin wakes =>
    rw [Queue.perform, takeWithin_eq]
    exact h.took
  | resize capacity =>
    refine h.idle ?_ rfl rfl rfl rfl rfl
    simp only [Queue.perform, resize]
    split
    · rename_i hempty
      rw [List.isEmpty_iff.mp hempty]
      rfl
    · rfl
  | clear => exact h.clear rfl

end Ledger.Fits

theorem puts_of_perform {policy : Policy} {q : Queue α} {call : Call α} {outcome : Outcome α}
    (h : (q.perform policy call).1 = .put item outcome) :
    ∃ q', q.Puts item policy outcome q' := by
  cases call with
  | put item' =>
    cases h
    exact ⟨_, puts_put policy q item⟩
  | putWithin item' wakes =>
    rw [perform, putWithin_eq] at h
    cases h
    exact ⟨_, puts_put policy q item⟩
  | take | takeWithin | resize | clear => cases h

/-- In every run the ledger is right. -/
theorem fits_ledger (policy : Policy) (capacity : Nat) (calls : List (Call α)) :
    (ledger policy (history policy capacity calls)).Fits policy (history policy capacity calls)
      (after policy capacity calls) := by
  induction calls with
  | nil => exact .blank policy capacity
  | cons call earlier ih => exact ih.perform call

/-- **Every item is in one place.** Whatever is asked of a queue, in any order, it
holds no more items than fit, and one fits at least. Each item that was put is in one
place of the ledger, and only there: it waits in the queue, was taken, was removed by a
clearing call that counted it, was evicted at the head by a later put that counted it,
was dropped by a put that counted it, or was handed back. What takes to wait is what
the queue holds, what is taken comes in the order in which it was put, and the three
ways to lose an item to a put belong to the three policies. And a put loses nothing
unless the queue is full, and then one item. -/
theorem every_item_in_one_place (policy : Policy) (capacity : Nat) (calls : List (Call α)) :
    let q := after policy capacity calls
    let events := history policy capacity calls
    let l := ledger policy events
    (1 ≤ q.capacity ∧ q.items.length ≤ q.capacity) ∧
    l.entries.Perm (itemsOf Event.put? events).zipIdx ∧
    l.waiting.map Prod.fst = q.items ∧
    l.taken.map Prod.fst = itemsOf Event.taken? events ∧
    ((l.taken ++ l.waiting).map Prod.snd).Pairwise (· < ·) ∧
    l.cleared.length = countOf Event.cleared events ∧
    l.handedBack.map Prod.fst = itemsOf Event.handedBack? events ∧
    (l.evicted.length + l.dropped.length = countOf Event.lost events ∧
      (policy ≠ .refuse → l.handedBack = []) ∧ (policy ≠ .evictOldest → l.evicted = []) ∧
      (policy ≠ .dropNewest → l.dropped = [])) ∧
    ∀ call item outcome, (q.perform policy call).1 = .put item outcome →
      outcome.losses ≤ 1 ∧ (outcome.losses ≠ 0 → q.isFull = true) := by
  intro q events l
  have h : l.Fits policy events q := fits_ledger policy capacity calls
  refine ⟨⟨q.capacity_pos, q.length_le⟩, h.entries, h.waiting, h.taken, h.order, h.cleared,
    h.handedBack, ⟨h.lost, h.refused, h.evicted, h.dropped⟩, fun call item outcome hput => ?_⟩
  obtain ⟨q', hputs⟩ := puts_of_perform hput
  exact hputs.losses

/-- The four latest of six items stay, in their order. -/
example : (after .evictOldest 4 ((List.range 6).reverse.map Call.put)).items = [2, 3, 4, 5] := by
  decide

end SlotTransport.Queue
