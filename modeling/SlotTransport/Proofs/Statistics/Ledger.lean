/-
What becomes of the samples of a monitored quantity. A ledger puts them into batches by what is
asked of the quantity and whether it calculates, without a look into it. It is right in every run
(`no_sample_lost`): the quantity keeps the figures of the batch that is pending and the count of
those it has moved on, and its bins, which are used in turn, those of the last ones (`inBins_perm`).
-/
import Mathlib.Algebra.BigOperators.Group.List.Basic
import Mathlib.Algebra.Ring.Nat
import Mathlib.Data.List.Induction
import SlotTransport.Statistics.Quantity

namespace SlotTransport.Statistics

/-! ## The figures of samples -/

namespace Batch

/-- What a batch keeps of its samples, each figure for itself. -/
def figures (samples : List Float) : Batch where
  count := samples.length
  sum := samples.foldl (fun sum value => sum + value) 0
  sumOfSquares := samples.foldl (fun sum value => sum + value * value) 0
  min := samples.foldl least infinity
  max := samples.foldl greatest (-infinity)
  last := samples.getLast?.getD 0

theorem ofSamples_concat (samples : List Float) (value : Float) :
    ofSamples (samples ++ [value]) = (ofSamples samples).add value :=
  List.foldl_concat ..

theorem ofSamples_eq (samples : List Float) : ofSamples samples = figures samples := by
  induction samples using List.reverseRecOn with
  | nil => rfl
  | append_singleton samples value ih => simp [ofSamples_concat, ih, figures, add]

theorem count_ofSamples (samples : List Float) : (ofSamples samples).count = samples.length := by
  rw [ofSamples_eq, figures]

theorem count_foldl_merge (batch : Batch) (batches : List Batch) :
    (batches.foldl merge batch).count = batch.count + (batches.map count).sum := by
  induction batches generalizing batch with
  | nil => simp
  | cons later rest ih => simp [ih, merge, Nat.add_assoc]

end Batch

theorem Summary.count_total (parts : List Summary) :
    (total parts).batch.count = (parts.map fun part => part.batch.count).sum := by
  have hbatch : ∀ (acc : Summary), (parts.foldl (fun acc part =>
      ⟨acc.batch.merge part.batch, acc.duration + part.duration⟩) acc).batch =
        (parts.map Summary.batch).foldl Batch.merge acc.batch := by
    induction parts with
    | nil => exact fun _ => rfl
    | cons part rest ih => exact fun acc => ih _
  rw [total, hbatch, Batch.count_foldl_merge, List.map_map]
  exact Nat.zero_add _

/-! ## Bins used in turn -/

section Window

variable {α : Type} {batches : List (List α)} {bins bin n : Nat}

/-- The latest of the batches that were put into one bin, where each goes into the bin after the
one before; empty if there is none. -/
def latestIn (batches : List (List α)) (bins bin : Nat) : List α :=
  ((batches.zipIdx.filter fun batch => batch.2 % bins = bin).getLast?.map Prod.fst).getD []

/-- What is in each bin. -/
def inBins (batches : List (List α)) (bins : Nat) : List (List α) :=
  (List.range bins).map (latestIn batches bins)

theorem inBins_nil (bins : Nat) : inBins ([] : List (List α)) bins = List.replicate bins [] := by
  rw [inBins, List.eq_replicate_iff]
  simp [latestIn]

theorem latestIn_concat (batches : List (List α)) (batch : List α) (bins bin : Nat) :
    latestIn (batches ++ [batch]) bins bin =
      if batches.length % bins = bin then batch else latestIn batches bins bin := by
  unfold latestIn
  rw [List.zipIdx_append, List.filter_append]
  by_cases hbin : batches.length % bins = bin <;> simp [hbin]

/-- A bin whose turn has not come yet is empty. -/
theorem latestIn_of_length_le (hbin : bin < bins) (h : batches.length ≤ bin) :
    latestIn batches bins bin = [] := by
  induction batches using List.reverseRecOn with
  | nil => rfl
  | append_singleton batches batch ih =>
    rw [List.length_append, List.length_singleton] at h
    have hother : batches.length % bins ≠ bin := by
      rw [Nat.mod_eq_of_lt (by omega)]
      omega
    rw [latestIn_concat, if_neg hother]
    exact ih (by omega)

theorem mod_ne_mod {m n bins : Nat} (hlt : m < n) (hnear : n < m + bins) :
    n % bins ≠ m % bins := by
  intro hmod
  have hzero := Nat.sub_mod_eq_zero_of_mod_eq hmod
  rw [Nat.mod_eq_of_lt (by omega)] at hzero
  omega

theorem latestIn_mod (hn : n < batches.length) (h : batches.length ≤ n + bins) :
    latestIn batches bins (n % bins) = batches[n] := by
  induction batches using List.reverseRecOn with
  | nil => cases hn
  | append_singleton batches batch ih =>
    rw [List.length_append, List.length_singleton] at h hn
    rw [latestIn_concat]
    rcases Nat.lt_or_eq_of_le (Nat.le_of_lt_succ hn) with hearlier | rfl
    · rw [if_neg (mod_ne_mod hearlier (by omega)), List.getElem_append_left hearlier]
      exact ih hearlier (by omega)
    · simp

theorem inBins_concat (batches : List (List α)) (batch : List α) (bins : Nat) :
    inBins (batches ++ [batch]) bins =
      (inBins batches bins).set (batches.length % bins) batch := by
  refine List.ext_getElem (by simp [inBins]) fun bin _ _ => ?_
  simp only [inBins, List.getElem_map, List.getElem_range, List.getElem_set, latestIn_concat]

/-- The bin whose turn it is holds the batch that leaves the last ones next, if one does. -/
theorem leaves_perm (batches : List (List α)) (hbins : 0 < bins) :
    (batches.drop (batches.length - bins) ++ List.replicate (bins - batches.length) []).Perm
      (latestIn batches bins (batches.length % bins) ::
        (batches.drop (batches.length + 1 - bins) ++
          List.replicate (bins - (batches.length + 1)) [])) := by
  rcases Nat.lt_or_ge batches.length bins with hfresh | hfull
  · rw [Nat.mod_eq_of_lt hfresh, latestIn_of_length_le hfresh (Nat.le_refl _),
      Nat.sub_eq_zero_of_le hfresh, Nat.sub_eq_zero_of_le (Nat.le_of_lt hfresh),
      show bins - batches.length = bins - (batches.length + 1) + 1 by omega]
    exact List.perm_middle
  · have hleast : batches.length - bins < batches.length := by omega
    rw [Nat.mod_eq_sub_mod hfull, latestIn_mod hleast (by omega),
      List.drop_eq_getElem_cons hleast,
      show batches.length - bins + 1 = batches.length + 1 - bins by omega,
      Nat.sub_eq_zero_of_le hfull, Nat.sub_eq_zero_of_le (Nat.le_succ_of_le hfull)]
    exact .refl _

theorem perm_set {entries rest : List α} (h : n < entries.length) (entry : α)
    (hrest : entries.Perm (entries[n] :: rest)) : (entries.set n entry).Perm (entry :: rest) := by
  have hothers := ((List.getElem_cons_eraseIdx_perm h).trans hrest).cons_inv
  exact (List.set_perm_cons_eraseIdx h entry).trans (hothers.cons entry)

/-- **The window.** The bins hold the last batches, as many as there are bins, and those that
no batch has reached yet are empty. -/
theorem inBins_perm (batches : List (List α)) (hbins : 0 < bins) :
    (inBins batches bins).Perm
      (batches.drop (batches.length - bins) ++ List.replicate (bins - batches.length) []) := by
  induction batches using List.reverseRecOn with
  | nil => simp [inBins_nil]
  | append_singleton batches batch ih =>
    have hturn : batches.length % bins < (inBins batches bins).length := by
      simpa [inBins] using Nat.mod_lt _ hbins
    have hleaves : (inBins batches bins)[batches.length % bins] =
        latestIn batches bins (batches.length % bins) := by
      simp [inBins]
    have hrest := ih.trans (leaves_perm batches hbins)
    rw [← hleaves] at hrest
    rw [inBins_concat, List.length_append, List.length_singleton,
      List.drop_append_of_le_length (by omega), List.append_assoc]
    exact (perm_set hturn batch hrest).trans List.perm_middle.symm

/-- The fourth batch goes into the first of three bins. -/
example : inBins [[1], [2, 2], [], [4]] 3 = [[4], [2, 2], []] := by decide

end Window

namespace Quantity

/-! ## Calls -/

/-- What may be asked of a quantity. -/
inductive Call where
  | add (value : Float)
  | addCount (value : Nat)
  | calculate (now : Float)
  | reset
  | enable
  | disable
  | setWindow (window : Nat)

/-- What comes of a call, and whether a calculation took place. -/
def perform (q : Quantity) : Call → Bool × Quantity
  | .add value => (false, q.add value)
  | .addCount value => (false, q.addCount value)
  | .calculate now => q.calculate now
  | .reset => (false, q.reset)
  | .enable => (false, q.enable)
  | .disable => (false, q.disable)
  | .setWindow window => (false, q.setWindow window)

/-- What calls make of a new quantity, the latest call first. -/
def after (interval window : Nat) : List Call → Quantity
  | [] => new interval window
  | call :: earlier => ((after interval window earlier).perform call).2

/-- Calls of a new quantity, the latest first, each with whether a calculation took place. -/
def answered (interval window : Nat) : List Call → List (Call × Bool)
  | [] => []
  | call :: earlier =>
    (call, ((after interval window earlier).perform call).1) :: answered interval window earlier

/-! ## The ledger -/

/-- The samples since a quantity was last cleared, each list in the order in which they came. -/
structure Ledger where
  /-- Whether samples count. -/
  enabled : Bool
  samples : List Float
  /-- The samples of each calculation, that of the earliest one first. -/
  batches : List (List Float)
  /-- The samples that no calculation has taken. -/
  pending : List Float

namespace Ledger

/-- The ledger of a quantity without samples. -/
def blank (enabled : Bool) : Ledger :=
  ⟨enabled, [], [], []⟩

def receive (l : Ledger) (value : Float) : Ledger :=
  if l.enabled then { l with samples := l.samples ++ [value], pending := l.pending ++ [value] }
  else l

/-- Enters a call. A calculation takes what is pending; a quantity starts anew when it is reset,
gets another window, or is enabled after it was disabled. -/
def enter (l : Ledger) : Call × Bool → Ledger
  | (.add value, _) => l.receive value
  | (.addCount value, _) => l.receive (Duration.toFloat value)
  | (.calculate _, true) => { l with batches := l.batches ++ [l.pending], pending := [] }
  | (.calculate _, false) => l
  | (.enable, _) => if l.enabled then l else blank true
  | (.disable, _) => { l with enabled := false }
  | (.reset, _) | (.setWindow _, _) => blank l.enabled

end Ledger

/-- The ledger of calls, the latest call first. -/
def ledger : List (Call × Bool) → Ledger
  | [] => .blank true
  | call :: earlier => (ledger earlier).enter call

/-! ## The ledger is right -/

/-- What a ledger has to do with the quantity. -/
structure Ledger.Fits (l : Ledger) (q : Quantity) : Prop where
  enabled : q.enabled = l.enabled
  samples : l.samples = l.batches.flatten ++ l.pending
  working : q.working = Batch.ofSamples l.pending
  count : q.history.batch.count = (l.batches.map List.length).sum
  bins_pos : 0 < q.bins.length
  bins : q.bins.map Summary.batch = (inBins l.batches q.bins.length).map Batch.ofSamples
  nextBin : q.nextBin = l.batches.length % q.bins.length

theorem binCount_pos (interval window : Float) : 0 < binCount interval window :=
  Nat.le_max_right ..

namespace Ledger.Fits

variable {l : Ledger} {q : Quantity}

theorem blank (interval : Float) (enabled : Bool) {bins : Nat} (hbins : 0 < bins) :
    (Ledger.blank enabled).Fits (cleared interval enabled bins) where
  enabled := rfl
  samples := rfl
  working := rfl
  count := rfl
  bins_pos := by simpa [cleared] using hbins
  bins := by simp [cleared, Ledger.blank, inBins_nil, Batch.ofSamples, Summary.empty]
  nextBin := by simp [cleared, Ledger.blank]

theorem add (h : l.Fits q) (value : Float) : (l.receive value).Fits (q.add value) := by
  cases henabled : l.enabled with
  | true =>
    rw [Quantity.add, if_pos (h.enabled.trans henabled), Ledger.receive, if_pos henabled]
    exact { h with
      samples := by simp [h.samples]
      working := by simp [h.working, Batch.ofSamples_concat] }
  | false =>
    rw [Quantity.add, if_neg (by simp [h.enabled, henabled]), Ledger.receive,
      if_neg (by simp [henabled])]
    exact h

theorem flush (h : l.Fits q) (now elapsed : Float) (period : Period) :
    (l.enter (.calculate now, true)).Fits { q with
      working := Batch.empty
      history := ⟨q.history.batch.merge q.working, now - period.start⟩
      bins := q.bins.set q.nextBin ⟨q.working, elapsed⟩
      nextBin := (q.nextBin + 1) % q.bins.length
      period := some ⟨period.start, now⟩
      latestRate := q.working.sum / elapsed } where
  enabled := h.enabled
  samples := by simp [Ledger.enter, h.samples]
  working := rfl
  count := by simp [Ledger.enter, Batch.merge, h.count, h.working, Batch.count_ofSamples]
  bins_pos := by simpa using h.bins_pos
  bins := by
    rw [List.map_set, h.bins, h.nextBin, List.length_set, Ledger.enter, inBins_concat,
      List.map_set, h.working]
  nextBin := by simp [Ledger.enter, h.nextBin, Nat.add_mod]

theorem calculate (h : l.Fits q) (now : Float) :
    (l.enter (.calculate now, (q.calculate now).1)).Fits (q.calculate now).2 := by
  unfold Quantity.calculate
  split
  · cases q.period with
    | none => exact { h with }
    | some period =>
      dsimp only
      split
      · exact h
      · exact h.flush now _ period
  · exact h

theorem clear (h : l.Fits q) {bins : Nat} (hbins : 0 < bins) :
    (Ledger.blank l.enabled).Fits (cleared q.interval q.enabled bins) :=
  h.enabled ▸ blank _ _ hbins

theorem enable (h : l.Fits q) : (l.enter (.enable, false)).Fits q.enable := by
  rw [Quantity.enable, h.enabled, Ledger.enter]
  split
  · exact h
  · exact blank _ _ h.bins_pos

theorem perform (h : l.Fits q) (call : Call) :
    (l.enter (call, (q.perform call).1)).Fits (q.perform call).2 := by
  cases call with
  | add value => exact h.add value
  | addCount value => exact h.add _
  | calculate now => exact h.calculate now
  | reset => exact h.clear h.bins_pos
  | enable => exact h.enable
  | disable => exact { h with enabled := rfl }
  | setWindow window => exact h.clear (binCount_pos ..)

/-- The recent figures are of the samples in the last batches, as many as there are bins. -/
theorem count_recent (h : l.Fits q) : q.recent.batch.count =
    ((l.batches.drop (l.batches.length - q.bins.length)).map List.length).sum := by
  have hcounts : (q.bins.map fun summary => summary.batch.count) =
      (inBins l.batches q.bins.length).map List.length := by
    have hbins := congrArg (List.map Batch.count) h.bins
    simpa only [List.map_map, Function.comp_def, Batch.count_ofSamples] using hbins
  rw [recent, Summary.count_total, hcounts,
    ((inBins_perm l.batches h.bins_pos).map List.length).sum_eq]
  simp

end Ledger.Fits

/-- In every run the ledger is right. -/
theorem fits_ledger (interval window : Nat) (calls : List Call) :
    (ledger (answered interval window calls)).Fits (after interval window calls) := by
  induction calls with
  | nil => exact .blank _ _ (binCount_pos ..)
  | cons call earlier ih => exact ih.perform call

/-- **No sample is lost.** Whatever is asked of a quantity, in any order and at any times, the
samples since it was last cleared are those of the calculations since then, batch after batch,
and behind them the pending ones. It keeps the count of the former and all figures of the latter.
Each bin keeps the figures of the latest batch whose turn was at that bin, and the recent figures
count the samples of the last batches, as many as there are bins. -/
theorem no_sample_lost (interval window : Nat) (calls : List Call) :
    let q := after interval window calls
    let l := ledger (answered interval window calls)
    q.enabled = l.enabled ∧
    l.samples = l.batches.flatten ++ l.pending ∧
    q.history.batch.count = (l.batches.map List.length).sum ∧
    q.working = Batch.figures l.pending ∧
    0 < q.bins.length ∧
    (∀ bin : Fin q.bins.length,
      q.bins[bin].batch = Batch.figures (latestIn l.batches q.bins.length bin)) ∧
    q.recent.batch.count =
      ((l.batches.drop (l.batches.length - q.bins.length)).map List.length).sum := by
  intro q l
  have h : l.Fits q := fits_ledger interval window calls
  refine ⟨h.enabled, h.samples, h.count, h.working.trans (Batch.ofSamples_eq _), h.bins_pos,
    fun bin => ?_, h.count_recent⟩
  have hbin := congrArg (fun batches => batches[(bin : Nat)]?) h.bins
  simpa [inBins, Batch.ofSamples_eq] using hbin

end Quantity

end SlotTransport.Statistics
