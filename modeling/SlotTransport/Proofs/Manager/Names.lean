/-
What becomes of names. A manager touches the name of its own key alone, and not
while it works or leaves (`keeps_guarded`, `keeps_shutdown`): it gives the name to an
object that it makes (`Connected`), and takes it away when it ends and is the creator
(`entry?_drop`).
-/
import SlotTransport.Proofs.Manager.Connection

namespace SlotTransport

open Segment

/-! ## Names of a host -/

namespace Host

variable {host host' : Host} {key other : Key} {number : Nat}

theorem entry?_congr (h : host'.names = host.names) (key : Key) :
    host'.entry? key = host.entry? key := by
  unfold entry?
  rw [h]

theorem number?_eq_some_iff : host.number? key = some number ↔
    host.entry? key = some (.object number) := by
  unfold number?
  split <;> simp_all

theorem entry?_withoutName_self (host : Host) (key : Key) :
    Host.entry? (host.withoutName key) key = none := by
  unfold entry?
  rw [withoutName, List.find?_filter, Option.map_eq_none_iff]
  exact List.find?_eq_none.mpr fun name _ => by simp

theorem entry?_withoutName_of_ne (h : other ≠ key) :
    Host.entry? (host.withoutName key) other = host.entry? other := by
  unfold entry?
  rw [withoutName, List.find?_filter]
  congr 2
  funext name
  by_cases hname : name.1 = other
  · simp [hname, h]
  · simp [hname]

theorem entry?_place_self (host : Host) (key : Key) (segment : Segment) :
    Host.entry? (host.place key segment) key = some (.object host.objects.length) := by
  simp [place, withName, entry?]

theorem entry?_place_of_ne (segment : Segment) (h : other ≠ key) :
    Host.entry? (host.place key segment) other = host.entry? other := by
  have hother : (key == other) = false := by simpa using h.symm
  unfold entry?
  rw [place, withName, List.find?_cons, hother]
  exact entry?_withoutName_of_ne h

theorem entry?_unlink_of_ne (h : other ≠ key) :
    Host.entry? (host.unlink key) other = host.entry? other := by
  unfold unlink
  split
  · rfl
  · exact entry?_withoutName_of_ne h

theorem entry?_unlink_self (h : host.entry? key ≠ some .directory) :
    Host.entry? (host.unlink key) key = none := by
  rw [unlink, if_neg h]
  exact host.entry?_withoutName_self key

end Host

/-! ## What managers do to names -/

namespace Manager

/-- The names are as they were, and what the manager has to do with its own. -/
structure Keeps (manager : Manager) (host : Host) (manager' : Manager) (host' : Host) : Prop where
  names : host'.names = host.names
  config : manager'.config = manager.config
  created : manager'.created = manager.created

variable {manager : Manager} {host : Host}

theorem keeps_shutdown (manager : Manager) (host : Host) :
    manager.Keeps host (manager.shutdown false host).1 (manager.shutdown false host).2 := by
  cases hmapping : manager.mapping? host with
  | none =>
    rw [shutdown_of_detached false hmapping]
    exact ⟨rfl, rfl, rfl⟩
  | some m =>
    rw [shutdown_eq false hmapping rfl]
    exact ⟨rfl, rfl, rfl⟩

/-- An operation does nothing to names, also if it breaches the slot protocol. -/
theorem keeps_guarded {α : Type} (op : Program α) (manager : Manager) (host : Host) :
    manager.Keeps host ((guarded op).on manager host).2.1 ((guarded op).on manager host).2.2 := by
  simp only [guarded, Action.on_of]
  cases manager.mapping? host with
  | none => exact ⟨rfl, rfl, rfl⟩
  | some m =>
    simp only
    cases (op.on m).1 with
    | ok told => exact ⟨rfl, rfl, rfl⟩
    | error breach =>
      have hkeeps := keeps_shutdown { manager with attachment := some (op.on m).2.me }
        (host.store m.me.object (op.on m).2.segment)
      exact ⟨hkeeps.names, hkeeps.config, hkeeps.created⟩

/-- A creator that ends takes a name away, and nobody else does. -/
theorem drop_cases (h : manager.attachment = none ∨ ∃ m, manager.mapping? host = some m) :
    ∃ host', host'.names = host.names ∧
      manager.drop host = if manager.created then host'.unlink manager.key else host' := by
  rcases h with hdetached | ⟨m, hmapping⟩
  · refine ⟨host, rfl, ?_⟩
    have hmapping : manager.mapping? host = none := by simp [mapping?, hdetached]
    cases hcreated : manager.created <;>
      simp [drop, isAttached, hdetached, hcreated, shutdown_of_detached true hmapping]
  · rw [drop_eq hmapping]
    cases manager.created with
    | true => exact ⟨host.store m.me.object (ended m), rfl, rfl⟩
    | false => exact ⟨host.store m.me.object m.left, rfl, rfl⟩

theorem entry?_drop_self (h : manager.attachment = none ∨ ∃ m, manager.mapping? host = some m)
    (hcreated : manager.created = true) (hentry : host.entry? manager.key ≠ some .directory) :
    Host.entry? (manager.drop host) manager.key = none := by
  obtain ⟨host', hnames, hdrop⟩ := drop_cases h
  rw [hdrop, if_pos hcreated]
  exact Host.entry?_unlink_self (by rwa [Host.entry?_congr hnames])

theorem entry?_drop_of_other (h : manager.attachment = none ∨ ∃ m, manager.mapping? host = some m)
    {key : Key} (hother : manager.created = true → key ≠ manager.key) :
    Host.entry? (manager.drop host) key = host.entry? key := by
  obtain ⟨host', hnames, hdrop⟩ := drop_cases h
  rw [hdrop, ← Host.entry?_congr hnames]
  split
  · rename_i hcreated
    exact Host.entry?_unlink_of_ne (hother hcreated)
  · rfl

end Manager

end SlotTransport
