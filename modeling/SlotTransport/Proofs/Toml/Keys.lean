/-
Keys of a TOML document. A table under construction is only added to where a key is
not there yet, or where its part may be extended; so whatever the document, no table
in what is read has a key twice (`read?_keyed`).
-/
import SlotTransport.Toml.Reader

namespace SlotTransport.Toml

/-- No table in the value has a key twice. -/
inductive Value.Keyed : Value → Prop where
  | string (text : String) : Keyed (.string text)
  | integer (value : Int) : Keyed (.integer value)
  | float (value : Float) : Keyed (.float value)
  | boolean (value : Bool) : Keyed (.boolean value)
  | datetime : Keyed .datetime
  | array {items : List Value} (h : ∀ v ∈ items, Keyed v) : Keyed (.array items)
  | table {entries : Table} (hkeys : (entries.map Prod.fst).Nodup)
    (h : ∀ entry ∈ entries, Keyed entry.2) : Keyed (.table entries)

/-- No table in the part has a key twice. -/
inductive Node.Keyed : Node → Prop where
  | value {v : Value} (h : v.Keyed) : Keyed (.value v)
  | table {origin : Origin} {entries : Entries} (hkeys : (entries.map Prod.fst).Nodup)
    (h : ∀ entry ∈ entries, Keyed entry.2) : Keyed (.table origin entries)
  | tables {latest : Entries} {earlier : List Entries}
    (hkeys : ∀ entries ∈ latest :: earlier, (entries.map Prod.fst).Nodup)
    (h : ∀ entries ∈ latest :: earlier, ∀ entry ∈ entries, Keyed entry.2) :
    Keyed (.tables latest earlier)

namespace Entries

/-- No key is there twice, in the table and in those below it. -/
structure Keyed (entries : Entries) : Prop where
  nodup : (entries.map Prod.fst).Nodup
  parts : ∀ entry ∈ entries, entry.2.Keyed

variable {entries entries' : Entries} {key : String} {node : Node} {path : List String} {v : Value}

theorem mem_put {entry : String × Node} (h : entry ∈ entries.put key node) :
    entry = (key, node) ∨ entry ∈ entries := by
  induction entries with
  | nil => exact .inl (List.mem_singleton.mp h)
  | cons first entries ih =>
    obtain ⟨k, n⟩ := first
    rw [put] at h
    split at h
    · rcases List.mem_cons.mp h with h | h
      · exact .inl h
      · exact .inr (List.mem_cons_of_mem _ h)
    · rcases List.mem_cons.mp h with rfl | h
      · exact .inr List.mem_cons_self
      · exact (ih h).imp_right (List.mem_cons_of_mem _)

theorem mem_of_get? (h : entries.get? key = some node) : (key, node) ∈ entries := by
  obtain ⟨before, after, rfl, -⟩ := List.lookup_eq_some_iff.mp h
  exact List.mem_append_right before List.mem_cons_self

namespace Keyed

theorem nil : Keyed [] :=
  ⟨List.nodup_nil, fun _ h => by cases h⟩

theorem put (h : entries.Keyed) (hnode : node.Keyed) : (entries.put key node).Keyed := by
  refine ⟨?_, fun entry hentry => ?_⟩
  · obtain ⟨hnodup, -⟩ := h
    induction entries with
    | nil => simp [Entries.put]
    | cons first entries ih =>
      obtain ⟨k, n⟩ := first
      obtain ⟨hk, hnodup⟩ := List.nodup_cons.mp hnodup
      rw [Entries.put]
      split
      · rename_i heq
        exact List.nodup_cons.mpr ⟨heq ▸ hk, hnodup⟩
      · rename_i hne
        refine List.nodup_cons.mpr ⟨fun hmem => ?_, ih hnodup⟩
        obtain ⟨entry, hentry, heq⟩ := List.mem_map.mp hmem
        rcases mem_put hentry with rfl | hentry
        · exact hne heq.symm
        · exact hk (List.mem_map.mpr ⟨entry, hentry, heq⟩)
  · rcases mem_put hentry with rfl | hentry
    · exact hnode
    · exact h.parts entry hentry

theorem get? (h : entries.Keyed) (hnode : entries.get? key = some node) : node.Keyed :=
  h.parts _ (mem_of_get? hnode)

theorem of_table {origin : Origin} (h : (Node.table origin entries).Keyed) : entries.Keyed := by
  cases h with
  | table hkeys hparts => exact ⟨hkeys, hparts⟩

theorem table {origin : Origin} (h : entries.Keyed) : (Node.table origin entries).Keyed :=
  .table h.nodup h.parts

theorem of_tables {latest : Entries} {earlier : List Entries}
    (h : (Node.tables latest earlier).Keyed) : ∀ entries ∈ latest :: earlier, entries.Keyed := by
  cases h with
  | tables hkeys hparts => exact fun entries hmem => ⟨hkeys entries hmem, hparts entries hmem⟩

theorem tables {latest : Entries} {earlier : List Entries}
    (h : ∀ entries ∈ latest :: earlier, entries.Keyed) : (Node.tables latest earlier).Keyed :=
  .tables (fun entries hmem => (h entries hmem).nodup) fun entries hmem => (h entries hmem).parts

/-- Another table in the place of the latest. -/
theorem retable {latest latest' : Entries} {earlier : List Entries}
    (h : (Node.tables latest earlier).Keyed) (hlatest : latest'.Keyed) :
    (Node.tables latest' earlier).Keyed := by
  refine tables fun entries hmem => ?_
  rcases List.mem_cons.mp hmem with rfl | hmem
  · exact hlatest
  · exact of_tables h entries (List.mem_cons_of_mem _ hmem)

/-- A value is given to a key that has none. -/
theorem assign? {isDotted : Bool} (h : entries.Keyed) (hv : v.Keyed)
    (hassign : entries.assign? path key v isDotted = some entries') : entries'.Keyed := by
  induction path generalizing entries entries' isDotted with
  | nil =>
    rw [Entries.assign?] at hassign
    split at hassign
    · cases hassign
      exact h.put (.value hv)
    · cases hassign
  | cons step path ih =>
    rw [Entries.assign?] at hassign
    split at hassign
    · obtain ⟨inner, hinner, heq⟩ := Option.bind_eq_some_iff.mp hassign
      cases heq
      exact h.put (ih nil hinner).table
    · rename_i origin inner hnode
      split at hassign
      · cases hassign
      · obtain ⟨inner', hinner, heq⟩ := Option.bind_eq_some_iff.mp hassign
        cases heq
        exact h.put (ih (of_table (h.get? hnode)) hinner).table
    · rename_i latest earlier hnode
      obtain ⟨latest', hlatest, heq⟩ := Option.bind_eq_some_iff.mp hassign
      cases heq
      have hkeyed := of_tables (h.get? hnode) latest List.mem_cons_self
      exact h.put (retable (h.get? hnode) (ih hkeyed hlatest))
    · cases hassign

/-- The table that a path leads to is changed. -/
theorem descend? {change : Entries → Option Entries}
    (hchange : ∀ {inner inner' : Entries}, inner.Keyed → change inner = some inner' → inner'.Keyed)
    (h : entries.Keyed) (hdescend : entries.descend? path change = some entries') :
    entries'.Keyed := by
  induction path generalizing entries entries' with
  | nil => exact hchange h hdescend
  | cons step path ih =>
    rw [Entries.descend?] at hdescend
    split at hdescend
    · obtain ⟨inner, hinner, heq⟩ := Option.bind_eq_some_iff.mp hdescend
      cases heq
      exact h.put (ih nil hinner).table
    · rename_i origin inner hnode
      obtain ⟨inner', hinner, heq⟩ := Option.bind_eq_some_iff.mp hdescend
      cases heq
      exact h.put (ih (of_table (h.get? hnode)) hinner).table
    · rename_i latest earlier hnode
      obtain ⟨latest', hlatest, heq⟩ := Option.bind_eq_some_iff.mp hdescend
      cases heq
      have hkeyed := of_tables (h.get? hnode) latest List.mem_cons_self
      exact h.put (retable (h.get? hnode) (ih hkeyed hlatest))
    · cases hdescend

theorem openTable? (h : entries.Keyed) (hopen : entries.openTable? path key = some entries') :
    entries'.Keyed := by
  refine descend? (fun {inner inner'} hinner hopen => ?_) h hopen
  split at hopen
  · cases hopen
    exact hinner.put nil.table
  · rename_i part hnode
    cases hopen
    exact hinner.put (of_table (hinner.get? hnode)).table
  · cases hopen

theorem openNext? (h : entries.Keyed) (hopen : entries.openNext? path key = some entries') :
    entries'.Keyed := by
  refine descend? (fun {inner inner'} hinner hopen => ?_) h hopen
  split at hopen
  · cases hopen
    refine hinner.put (tables fun entries hmem => ?_)
    cases List.mem_singleton.mp hmem
    exact nil
  · rename_i latest earlier hnode
    cases hopen
    refine hinner.put (tables fun entries hmem => ?_)
    rcases List.mem_cons.mp hmem with rfl | hmem
    · exact nil
    · exact of_tables (hinner.get? hnode) entries hmem
  · cases hopen

end Keyed

end Entries

/-! ## Complete tables -/

theorem closeEntries_eq_map (entries : Entries) :
    closeEntries entries = entries.map fun entry => (entry.1, entry.2.close) := by
  induction entries with
  | nil => rw [closeEntries, List.map_nil]
  | cons entry entries ih => rw [closeEntries, ih, List.map_cons]

theorem mem_closeTables {tables : List Entries} {v : Value} (h : v ∈ closeTables tables) :
    ∃ entries ∈ tables, v = .table (closeEntries entries) := by
  induction tables with
  | nil =>
    rw [closeTables] at h
    cases h
  | cons entries tables ih =>
    rw [closeTables] at h
    rcases List.mem_append.mp h with h | h
    · obtain ⟨entries', hmem, heq⟩ := ih h
      exact ⟨entries', List.mem_cons_of_mem _ hmem, heq⟩
    · exact ⟨entries, List.mem_cons_self, List.mem_singleton.mp h⟩

theorem keyed_closeEntries {entries : Entries} (hkeys : (entries.map Prod.fst).Nodup)
    (h : ∀ entry ∈ entries, entry.2.close.Keyed) : (Value.table (closeEntries entries)).Keyed := by
  rw [closeEntries_eq_map]
  refine .table ?_ fun entry hentry => ?_
  · rw [List.map_map]
    exact hkeys
  · obtain ⟨entry', hentry', rfl⟩ := List.mem_map.mp hentry
    exact h entry' hentry'

theorem Node.Keyed.close {node : Node} (h : node.Keyed) : node.close.Keyed := by
  induction h with
  | value h =>
    rw [Node.close]
    exact h
  | table hkeys _ ih =>
    rw [Node.close]
    exact keyed_closeEntries hkeys ih
  | tables hkeys _ ih =>
    rw [Node.close]
    refine .array fun v hv => ?_
    rcases List.mem_append.mp hv with hv | hv
    · obtain ⟨entries, hmem, rfl⟩ := mem_closeTables hv
      exact keyed_closeEntries (hkeys entries (List.mem_cons_of_mem _ hmem))
        (ih entries (List.mem_cons_of_mem _ hmem))
    · cases List.mem_singleton.mp hv
      exact keyed_closeEntries (hkeys _ List.mem_cons_self) (ih _ List.mem_cons_self)

theorem Entries.Keyed.close {entries : Entries} (h : entries.Keyed) :
    (Value.table (closeEntries entries)).Keyed :=
  keyed_closeEntries h.nodup fun entry hentry => (h.parts entry hentry).close

/-! ## Reading -/

variable {fuel depth : Nat} {input rest : Input} {v : Value} {draft draft' : Draft}

theorem keyed_scalar? {text : List Char} (h : scalar? text = some v) : v.Keyed := by
  unfold scalar? at h
  split at h
  · cases h
    exact .boolean true
  · split at h
    · cases h
      exact .boolean false
    · split at h
      · cases h
        exact .datetime
      · split at h
        · cases h
          exact .integer _
        · obtain ⟨value, -, rfl⟩ := Option.map_eq_some_iff.mp h
          exact .float value

/-- A value is read with the items of an array and the members of an inline table, which
are values; the induction is on the fuel of all three. -/
theorem keyed_of_fuel (fuel : Nat) :
    (∀ {depth input v rest}, value? fuel depth input = some (v, rest) → v.Keyed) ∧
    (∀ {depth input acc v rest}, (∀ item ∈ acc, item.Keyed) →
      items? fuel depth input acc = some (v, rest) → v.Keyed) ∧
    ∀ {depth input entries v rest}, entries.Keyed →
      members? fuel depth input entries = some (v, rest) → v.Keyed := by
  induction fuel with
  | zero => simp [value?, items?, members?]
  | succ fuel ih =>
    obtain ⟨hvalue, hitems, hmembers⟩ := ih
    refine ⟨fun {depth input v rest} h => ?_, fun {depth input acc v rest} hacc h => ?_,
      fun {depth input entries v rest} hentries h => ?_⟩
    · unfold value? at h
      split at h
      · obtain ⟨_, -, heq⟩ := Option.map_eq_some_iff.mp h
        cases heq
        exact .string _
      · obtain ⟨_, -, heq⟩ := Option.map_eq_some_iff.mp h
        cases heq
        exact .string _
      · exact hitems (fun _ hitem => by cases hitem) h
      · exact hmembers .nil h
      · obtain ⟨_, hscalar, heq⟩ := Option.map_eq_some_iff.mp h
        cases heq
        exact keyed_scalar? hscalar
    · unfold items? at h
      split at h
      · cases h
        exact .array fun item hitem => hacc item (List.mem_reverse.mp hitem)
      · split at h
        · cases h
        · rename_i item _ hitem
          have hmore : ∀ item' ∈ item :: acc, item'.Keyed :=
            List.forall_mem_cons.mpr ⟨hvalue hitem, hacc⟩
          split at h
          · exact hitems hmore h
          · cases h
            exact .array fun item' hitem' => hmore item' (List.mem_reverse.mp hitem')
          · cases h
    · unfold members? at h
      split at h
      · cases h
        exact hentries.close
      · split at h
        · split at h
          · cases h
          · rename_i member _ hmember
            split at h
            · cases h
            · rename_i entries' hassign
              have hentries' := hentries.assign? (hvalue hmember) hassign
              split at h
              · exact hmembers hentries' h
              · cases h
                exact hentries'.close
              · cases h
        · cases h

theorem keyed_readValue? (h : readValue? input = some (v, rest)) : v.Keyed :=
  (keyed_of_fuel _).1 h

/-- A line adds to the tables what it says. -/
theorem keyed_statement? (hdraft : draft.root.Keyed)
    (h : statement? draft input = some (draft', rest)) : draft'.root.Keyed := by
  unfold statement? at h
  split at h
  · simp only [nextTable?, Option.bind_eq_bind, Option.bind_eq_some_iff] at h
    obtain ⟨_, -, _, -, _, -, _, -, root, hroot, heq⟩ := h
    cases heq
    exact hdraft.openNext? hroot
  · simp only [oneTable?, Option.bind_eq_bind, Option.bind_eq_some_iff] at h
    obtain ⟨_, -, _, -, _, -, root, hroot, heq⟩ := h
    cases heq
    exact hdraft.openTable? hroot
  · simp only [assignment?, Option.bind_eq_bind, Option.bind_eq_some_iff] at h
    obtain ⟨_, -, _, -, _, -, ⟨v, _⟩, hv, root, hroot, heq⟩ := h
    cases heq
    exact hdraft.descend? (fun hinner hassign => hinner.assign? (keyed_readValue? hv) hassign) hroot

theorem keyed_lines? (hdraft : draft.root.Keyed) (h : lines? fuel draft input = some draft') :
    draft'.root.Keyed := by
  induction fuel generalizing draft input with
  | zero => cases h
  | succ fuel ih =>
    rw [lines?] at h
    split at h
    · cases h
      exact hdraft
    · simp only [Option.bind_eq_bind, Option.bind_eq_some_iff] at h
      obtain ⟨⟨next, _⟩, hnext, _, -, hlines⟩ := h
      exact ih (keyed_statement? hdraft hnext) hlines

/-- **A key is never given twice.** No table of a document that is read, and none in it,
has a key twice. -/
theorem read?_keyed {text : String} {table : Table} (h : read? text = some table) :
    (Value.table table).Keyed := by
  unfold read? at h
  obtain ⟨draft, hdraft, heq⟩ := Option.bind_eq_some_iff.mp h
  cases heq
  exact (keyed_lines? .nil hdraft).close

end SlotTransport.Toml
