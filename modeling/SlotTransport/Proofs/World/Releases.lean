/-
How often a record has been released, next to how many are to see it. A release counts
itself and compares with the readers that there are at the moment, and the slot stays full
only if there are more (`Run.releases_lt`). That holds on as readers come, and until one
goes or turns writer (`releases_lt_readers`). Nobody compares again then, and a slot may
stay full that every reader has released (`full_after_every_release`).
-/
import SlotTransport.Proofs.World.Membership
import SlotTransport.Proofs.World.Readiness

namespace SlotTransport

open Segment

/-! ## One operation -/

namespace Segment

theorem Control.readers_pos (control : Control) : 0 < control.readers :=
  Nat.lt_of_lt_of_le Nat.one_pos (le_max_right ..)

namespace Slot

variable {s s' : Slot}

theorem releases_reclaimed {staleness : Staleness} {entitled : Bool}
    (h : s.reclaimed? staleness entitled = some s') :
    s'.releases = 0 ∨ s'.releases = s.releases := by
  rcases (reclaimed?_cases h).2 with ⟨-, rfl⟩ | ⟨-, rfl⟩ | ⟨-, -, -, rfl⟩
  · exact .inr rfl
  · exact .inl rfl
  · exact .inl rfl

theorem releases_swept (s : Slot) (staleness : Staleness) :
    (s.swept staleness).releases = 0 ∨ (s.swept staleness).releases = s.releases := by
  by_cases hkept : s.swept staleness = s
  · exact .inr (by rw [hkept])
  · exact releases_reclaimed (reclaimed?_of_swept_ne hkept)

theorem releases_leftBy (s : Slot) (id : ManagerId) : (s.leftBy id).releases = s.releases := by
  rcases s.leftBy_cases id with h | ⟨-, -, h⟩ | ⟨-, -, h⟩ <;> simp [h]

end Slot

namespace Mapping

variable {m after : Mapping} {operation : Operation} {answer : Answer} {k : Nat} {s' : Slot}

/-- A slot that is released has been released by fewer than are to see its record. -/
theorem releases_released (m : Mapping) (s : Slot) :
    (m.released s).releases < m.segment.control.readers := by
  unfold released
  split
  · exact m.segment.control.readers_pos
  · rename_i hmore
    simp only [Bool.or_eq_true, decide_eq_true_eq, not_or, not_le] at hmore
    exact hmore.2

/-- A release counts itself, and nothing else counts. -/
theorem Move.releases (h : m.Move operation answer after) (hs' : after.slots[k]? = some s') :
    (operation = .release k ∧ after.me = m.me ∧ s'.releases < m.segment.control.readers) ∨
    (operation ≠ .release k ∧
      ∃ s, m.slots[k]? = some s ∧ (s'.releases = 0 ∨ s'.releases = s.releases)) := by
  by_cases hrelease : operation = .release k
  · subst hrelease
    refine .inl ⟨rfl, ?_⟩
    cases h with
    | idle hidle => cases hidle
    | wrote htransfer | read htransfer => cases htransfer
    | declared hdeclared => cases hdeclared
    | @released _ s hs =>
      rw [touch, slots_store, List.getElem?_set_self (List.getElem?_eq_some_iff.mp hs).1] at hs'
      cases hs'
      exact ⟨rfl, m.releases_released s⟩
  · obtain ⟨s, hs, hchange⟩ := h.exists_change hs'
    refine .inr ⟨hrelease, s, hs, ?_⟩
    cases hchange with
    | kept | wrote | read | checked => exact .inr rfl
    | swept => exact s.releases_swept _
    | reset _ hreset => exact Slot.releases_reclaimed hreset
    | claimedForWriting | published | evicted => exact .inl rfl
    | claimedForReading => exact s.releases_swept _
    | released heq => exact absurd heq hrelease

end Mapping

end Segment

namespace Party

variable {p : Party} {number n k : Nat} {s : Slot}

theorem Fresh.releases (h : p.Fresh number) (hs : p.segment.slots[k]? = some s) :
    s.releases = 0 := by
  cases h with
  | blank size => cases hs
  | formatted now i =>
    have hfresh : s = .fresh now := List.eq_of_mem_replicate (List.mem_of_getElem? hs)
    rw [hfresh]
    rfl

end Party

/-! ## One turn -/

namespace World

variable {past : List Moment} {w : World} {call : Call} {number n k : Nat} {p p' : Party}
  {s s' : Slot}

/-- Whether a slot is released at a moment. -/
def Moment.releases (number k : Nat) (moment : Moment) : Bool :=
  (moment.deed? number).any (·.operation == .release k)

/-- Whether the object has a reader less after a moment: one that is attached and no writer
goes, or turns writer. -/
def Moment.thins (number : Nat) (moment : Moment) : Prop :=
  ∃ i, (moment.before.member number i).any (!·.isWriter) = true ∧
    (moment.after.member number i).any (!·.isWriter) = false

instance (number : Nat) (moment : Moment) : Decidable (moment.thins number) :=
  decidable_of_iff (∃ i, i < moment.before.managers.length ∧
      (moment.before.member number i).any (!·.isWriter) = true ∧
      (moment.after.member number i).any (!·.isWriter) = false) <| by
    constructor
    · rintro ⟨i, -, h⟩
      exact ⟨i, h⟩
    · rintro ⟨i, hreads, h⟩
      obtain ⟨me, hme, -⟩ := (Option.any_eq_true ..).mp hreads
      exact ⟨i, lt_of_member hme, hreads, h⟩

/-- At a turn a slot is released, or the releases of its record stay, or are none. -/
theorem releases_of_turn (hw : w.Coherent) (hp : w.party? number = some p)
    (hturn : p.Turn number w.now call p') (hs' : p'.segment.slots[k]? = some s') :
    ((⟨w, call⟩ : Moment).releases number k = true ∧
      s'.releases < p.segment.control.readers ∧
      ∃ i me after, p.member i = some me ∧ p' = p.follow i after ∧ after.me = me) ∨
    ((⟨w, call⟩ : Moment).releases number k = false ∧
      ∃ s, p.segment.slots[k]? = some s ∧ (s'.releases = 0 ∨ s'.releases = s.releases)) := by
  have hidle : (⟨w, call⟩ : Moment).deed? number = none →
      (⟨w, call⟩ : Moment).releases number k = false := by
    intro hnone
    rw [Moment.releases, hnone]
    rfl
  have hdismissed : ∀ (i : Nat) (me : Attachment), (p.dismiss i me).segment.slots[k]? = some s' →
      ∃ s, p.segment.slots[k]? = some s ∧ (s'.releases = 0 ∨ s'.releases = s.releases) := by
    intro i me hs'
    rw [Party.slots_dismiss] at hs'
    obtain ⟨s, hs, rfl⟩ := Option.map_eq_some_iff.mp hs'
    exact ⟨s, hs, .inr (s.releases_leftBy me.id)⟩
  cases hturn with
  | others hother => exact .inr ⟨hidle (deed?_of_others hw hp hother), s', hs', .inr rfl⟩
  | entered hcall => exact .inr ⟨hidle (deed?_of_no_operation hcall), s', hs', .inr rfl⟩
  | left hcall hbreach hme =>
    exact .inr ⟨hidle (deed?_of_left hw hp hcall hme hbreach), hdismissed _ _ hs'⟩
  | @ended i me | @returned i me =>
    exact .inr ⟨hidle (deed?_of_no_operation rfl), hdismissed i me hs'⟩
  | @moved _ i operation me answer after hcall hme hmove =>
    have hdeed : (⟨w, call⟩ : Moment).releases number k = (operation == .release k) := by
      rw [Moment.releases, deed?_of_moved hw hp hcall hme hmove]
      rfl
    rw [hdeed]
    rcases (Operation.apply_move hmove).releases hs' with ⟨heq, hme', hlt⟩ | ⟨hne, hkept⟩
    · exact .inl ⟨by simp [heq], hlt, i, me, after, hme, rfl, hme'⟩
    · exact .inr ⟨by simp [hne], hkept⟩

/-! ## Runs -/

/-- Where nobody goes who only reads, or turns writer, there are as many readers at least. -/
theorem count_le_of_not_thins (hp : w.party? number = some p)
    (hp' : (w.step call).party? number = some p')
    (hthick : ¬ (⟨w, call⟩ : Moment).thins number) :
    p.count n (!·.isWriter) ≤ p'.count n (!·.isWriter) := by
  refine Finset.sum_le_sum fun i _ => ?_
  rw [(party?_eq_some_iff.mp hp).2, (party?_eq_some_iff.mp hp').2]
  cases hreads : (w.member number i).any (!·.isWriter) with
  | false => exact Nat.zero_le _
  | true =>
    cases hafter : ((w.step call).member number i).any (!·.isWriter) with
    | true => exact le_refl _
    | false => exact absurd ⟨i, hreads, hafter⟩ hthick

/-- In every run a slot has been released by fewer than were to see its record when it was
last released, or by nobody. -/
theorem Run.releases_lt (h : Run past w) (hp : w.party? number = some p)
    (hs : p.segment.slots[k]? = some s) : s.releases = 0 ∨ ∃ moment segment₀,
      past.find? (·.releases number k) = some moment ∧
        moment.before.segment? number = some segment₀ ∧
        s.releases < segment₀.control.readers := by
  refine Run.party_induction (motive := fun past _ p => ∀ {s : Slot},
      p.segment.slots[k]? = some s → s.releases = 0 ∨ ∃ moment segment₀,
        past.find? (·.releases number k) = some moment ∧
          moment.before.segment? number = some segment₀ ∧
          s.releases < segment₀.control.readers)
    (fun _ _ _ _ hfresh _ hs => .inl (hfresh.releases hs))
    (fun {past w call p p'} hrun hp _ hturn ih s' hs' => ?_) h hp hs
  rcases releases_of_turn hrun.coherent hp hturn hs' with
    ⟨hreleases, hlt, -⟩ | ⟨hreleases, s, hs, hnone | hsame⟩
  · exact .inr ⟨⟨w, call⟩, p.segment, List.find?_cons_of_pos hreleases,
      (party?_eq_some_iff.mp hp).1, hlt⟩
  · exact .inl hnone
  · rw [hsame, List.find?_cons_of_neg (by simp [hreleases])]
    exact ih hs

/-- In every run a slot has been released by fewer than are to see its record, if there are
as many as when it was last released. -/
theorem Run.releases_lt_count (h : Run past w) (hp : w.party? number = some p)
    (hn : w.managers.length ≤ n) (hs : p.segment.slots[k]? = some s)
    (hthick : ∀ moment ∈ past.takeWhile (!·.releases number k), ¬ moment.thins number) :
    s.releases < max (p.count n (!·.isWriter)) 1 := by
  refine Run.party_induction (motive := fun past w p => w.managers.length ≤ n →
      (∀ moment ∈ past.takeWhile (!·.releases number k), ¬ moment.thins number) →
      ∀ {s : Slot}, p.segment.slots[k]? = some s → s.releases < max (p.count n (!·.isWriter)) 1)
    (fun _ _ _ _ hfresh _ _ _ hs => ?_)
    (fun {past w call p p'} hrun hp hp' hturn ih hn hthick s' hs' => ?_) h hp hn hthick hs
  · rw [hfresh.releases hs]
    exact Nat.lt_of_lt_of_le Nat.one_pos (le_max_right ..)
  · have hbefore : w.managers.length ≤ n := (length_le_step w call).trans hn
    rcases releases_of_turn hrun.coherent hp hturn hs' with
      ⟨-, hlt, i, me, after, hme, rfl, hsame⟩ | ⟨hreleases, s, hs, hcases⟩
    · have hcount : (p.follow i after).count n (!·.isWriter) = p.count n (!·.isWriter) := by
        have hfollow := Party.count_follow (within_of_length hp hbefore hme) hme after (!·.isWriter)
        rw [hsame] at hfollow
        exact Nat.add_right_cancel hfollow
      rw [hcount]
      exact hlt.trans_le (hrun.counted hp hbefore).readers_le
    · rw [List.takeWhile_cons_of_pos (by simp [hreleases])] at hthick
      have hmore := count_le_of_not_thins (n := n) hp hp' (hthick _ List.mem_cons_self)
      rcases hcases with hnone | hkept
      · rw [hnone]
        exact Nat.lt_of_lt_of_le Nat.one_pos (le_max_right ..)
      · rw [hkept]
        exact (ih hbefore (fun moment hmoment => hthick moment (List.mem_cons_of_mem _ hmoment))
          hs).trans_le (max_le_max_right 1 hmore)

/-- **Releases and readers.** In every run a slot has been released by nobody, or by fewer
than there were readers when it was last released; and if since then nobody has gone who
only reads, or turned writer, by fewer than there are readers, as long as fewer than 2³¹
are attached. -/
theorem releases_lt_readers {past : List Moment} {w : World} (hrun : Run past w)
    {number k : Nat} {segment : Segment} {s : Slot} (hsegment : w.segment? number = some segment)
    (hs : segment.slots[k]? = some s) :
    (s.releases = 0 ∨ ∃ moment segment₀, past.find? (·.releases number k) = some moment ∧
      moment.before.segment? number = some segment₀ ∧ s.releases < segment₀.control.readers) ∧
    (w.attendance number < 2 ^ 31 →
      (∀ moment ∈ past.takeWhile (!·.releases number k), ¬ moment.thins number) →
        s.releases < segment.control.readers) := by
  have hp := party?_of_segment? hsegment
  refine ⟨hrun.releases_lt hp hs, fun hfew hthick => ?_⟩
  rw [attendance_eq_count hp, Party.count_all] at hfew
  rw [(hrun.counted hp (le_refl _)).readers (by omega)]
  exact hrun.releases_lt_count hp (le_refl _) hs hthick

/-- One of two readers has released a record, and another joins. -/
theorem releases_lt_readers_joined :
    let config : Segment.Config := ⟨7, 1, 8, 0, false, 0⟩
    let calls : List Call := [.attach config .manual, .attach config .manual,
      .attach config .manual, .perform 0 (.claimForWriting false), .perform 0 (.publish 0 .any),
      .perform 1 .claimForReading, .perform 1 (.release 0), .attach config .manual]
    ∃ segment s, (run calls).2.segment? 0 = some segment ∧ segment.slots[0]? = some s ∧
      s.state = .full ∧ s.releases = 1 ∧ s.releases < segment.control.readers := by
  intro config calls
  obtain ⟨segment, hsegment, hslot⟩ := (Option.any_eq_true (fun segment : Segment =>
      (segment.slots[0]?).any fun s => s.state == .full && s.releases == 1)
    ((run calls).2.segment? 0)).mp (by decide +kernel)
  obtain ⟨s, hs, hfacts⟩ := (Option.any_eq_true ..).mp hslot
  simp only [Bool.and_eq_true, beq_iff_eq] at hfacts
  obtain ⟨-, hlt⟩ := releases_lt_readers (run_run calls) hsegment hs
  exact ⟨segment, s, hsegment, hs, hfacts.1, hfacts.2,
    hlt (by decide +kernel) (by decide +kernel)⟩

/-- **A slot may stay full.** Of two readers one has released a record when the other
leaves. Every reader has released it then, and its slot is full: nobody may read it, and a
writer that does not overwrite gets none. -/
theorem full_after_every_release :
    let config : Segment.Config := ⟨7, 1, 8, 0, false, 0⟩
    let calls : List Call := [.attach config .manual, .attach config .manual,
      .attach config .manual, .perform 0 (.claimForWriting false), .perform 0 (.publish 0 .any),
      .perform 1 .claimForReading, .perform 1 (.release 0), .detach 2]
    let w := (run calls).2
    (∃ segment s, w.segment? 0 = some segment ∧ segment.control.isDestructive = false ∧
      segment.slots[0]? = some s ∧ s.state = .full ∧ segment.control.readers ≤ s.releases) ∧
    w.mayRead 1 0 = false ∧
    w.answer? 0 (.claimForWriting false) = some (.ok (.slot none)) := by
  intro config calls w
  obtain ⟨segment, hsegment, hfacts⟩ := (Option.any_eq_true (fun segment : Segment =>
      !segment.control.isDestructive && (segment.slots[0]?).any fun s => s.state == .full &&
        decide (segment.control.readers ≤ s.releases)) (w.segment? 0)).mp (by decide +kernel)
  simp only [Bool.and_eq_true, Bool.not_eq_true'] at hfacts
  obtain ⟨s, hs, hslot⟩ := (Option.any_eq_true ..).mp hfacts.2
  simp only [Bool.and_eq_true, beq_iff_eq, decide_eq_true_eq] at hslot
  exact ⟨⟨segment, s, hsegment, hfacts.1, hs, hslot.1, hslot.2⟩, by decide +kernel,
    by decide +kernel⟩

end World

end SlotTransport
