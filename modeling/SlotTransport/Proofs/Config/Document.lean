/-
What is loaded from a document. A configuration comes of the values of its own keys
alone, whatever else the document holds and in whatever order (`ofFields?_congr`), and
every configuration comes of the table of its values (`ofFields?_toTable`). Where only
the key of a segment is given it is one to attach to, which passes. To load is not to
validate: a document is not there, or cannot be read as a configuration, or is one
(`load_cases`).
-/
import SlotTransport.Config.Document
import SlotTransport.Proofs.Toml.Keys

namespace SlotTransport

open Toml (Value Table)

namespace Toml.Value

theorem integerIn?_eq_some {least greatest n : Int} (hleast : least ≤ n)
    (hgreatest : n ≤ greatest) : integerIn? least greatest (.integer n) = some n :=
  if_pos ⟨hleast, hgreatest⟩

@[simp]
theorem word32?_toNat (word : UInt32) : word32? (.integer word.toNat) = some word := by
  have hlt := word.toNat_lt
  rw [word32?, integerIn?_eq_some (by omega) (by omega)]
  simp

@[simp]
theorem word64?_toNat (word : UInt64) : word64? (.integer word.toNat) = some word := by
  have hlt := word.toNat_lt
  rw [word64?, integerIn?_eq_some (by omega) (by omega)]
  simp

@[simp]
theorem int32?_toInt (n : Int32) : int32? (.integer n.toInt) = some n := by
  have hle := n.le_toInt
  have hlt := n.toInt_lt
  rw [int32?, integerIn?_eq_some (by omega) (by omega)]
  simp

@[simp]
theorem logLevel?_name (level : LogLevel) : logLevel? (.string level.name) = some level := by
  cases level <;> rfl

end Toml.Value

namespace Segment.Config

/-- The keys of a segment's configuration, in the order of its fields. -/
def keys : List String :=
  ["key", "slot_count", "slot_size", "stale_timeout_us", "destructive_read", "rank"]

/-- The values of a segment's configuration, by key. -/
def toTable (config : Config) : Table :=
  [("key", .integer config.key.toNat), ("slot_count", .integer config.slotCount.toNat),
    ("slot_size", .integer config.slotSize.toNat),
    ("stale_timeout_us", .integer config.staleTimeout.toNat),
    ("destructive_read", .boolean config.destructive), ("rank", .integer config.rank.toInt)]

/-- Keys that a configuration does not know, and the order of keys, do not matter. -/
theorem ofFields?_congr {table table' : Table}
    (h : ∀ key ∈ keys, table.get? key = table'.get? key) :
    ofFields? (.byName table) = ofFields? (.byName table') := by
  simp only [keys, List.forall_mem_cons] at h
  obtain ⟨hkey, hslotCount, hslotSize, htimeout, hdestructive, hrank, -⟩ := h
  simp only [ofFields?, Fields.required, Fields.optional, Fields.get?, hkey, hslotCount,
    hslotSize, htimeout, hdestructive, hrank]

/-- A configuration comes of the table of its values, and of their list. -/
theorem ofFields?_toTable (config : Config) :
    ofFields? (.byName config.toTable) = some config ∧
      ofFields? (.byPlace (config.toTable.map Prod.snd)) = some config := by
  constructor <;> simp [ofFields?, Fields.required, Fields.optional, Fields.get?, Table.get?,
    toTable, List.lookup_cons, Value.boolean?]

/-- Where only the key is given, the segment is one to attach to, and that passes. -/
theorem ofFields?_key (key : Key) :
    ofFields? (.byName [("key", .integer key.toNat)]) = some (.attachOnly key) ∧
      (attachOnly key).validate = .ok () := by
  refine ⟨?_, rfl⟩
  simp [ofFields?, Fields.required, Fields.optional, Fields.get?, Table.get?, List.lookup_cons,
    attachOnly, Config.new]

end Segment.Config

namespace TransportConfig

/-- The values of a transport configuration, by key. -/
def toTable (config : TransportConfig) : Table :=
  [("log_level", .string config.logLevel.name), ("data", .table config.data.toTable)] ++
    (config.broadcast.map fun broadcast => ("broadcast", .table broadcast.toTable)).toList

/-- A configuration comes of the table of its values; what is not wanted is left out. -/
theorem ofFields?_toTable (config : TransportConfig) :
    ofFields? (.byName config.toTable) = some config := by
  obtain ⟨logLevel, data, _ | broadcast⟩ := config <;>
    simp [ofFields?, Fields.required, Fields.optional, Fields.get?, Table.get?, toTable,
      List.lookup_cons, Segment.Config.ofValue?, Fields.ofValue?, Segment.Config.ofFields?_toTable]

end TransportConfig

namespace Document

variable {α : Type} {ofFields? : Fields → Option α} {document : Document} {config : α}

/-- A document is not there, cannot be read as a configuration, or holds the text of a
table that is one. -/
theorem load_cases (ofFields? : Fields → Option α) (document : Document) :
    document = .missing ∧ document.load ofFields? = .error .notFound ∨
      (document ≠ .missing ∧ ∃ detail, document.load ofFields? = .error (.malformed detail)) ∨
      ∃ bytes text table config, document = .content bytes ∧ text? bytes = some text ∧
        Toml.read? text = some table ∧ ofFields? (.byName table) = some config ∧
        document.load ofFields? = .ok config := by
  cases document with
  | missing => exact .inl ⟨rfl, rfl⟩
  | unreadable => exact .inr (.inl ⟨by simp, "no content", rfl⟩)
  | content bytes =>
    cases htext : text? bytes with
    | none => exact .inr (.inl ⟨by simp, "not a text", by simp only [load, htext]⟩)
    | some text =>
      cases htable : Toml.read? text with
      | none => exact .inr (.inl ⟨by simp, "not a document", by simp only [load, htext, htable]⟩)
      | some table =>
        cases hconfig : ofFields? (.byName table) with
        | none =>
          exact .inr (.inl ⟨by simp, "not a configuration",
            by simp only [load, htext, htable, hconfig]⟩)
        | some config =>
          exact .inr (.inr ⟨bytes, text, table, config, rfl, htext, htable, hconfig,
            by simp only [load, htext, htable, hconfig]⟩)

theorem load_eq_notFound_iff :
    document.load ofFields? = .error .notFound ↔ document = .missing := by
  rcases load_cases ofFields? document with
    ⟨rfl, h⟩ | ⟨hthere, _, h⟩ | ⟨_, _, _, _, rfl, -, -, -, h⟩
  · simp [h]
  · simp [h, hthere]
  · simp [h]

/-- To load is not to validate. -/
theorem load_ne_rejected (reason : Rejection) :
    document.load ofFields? ≠ .error (.rejected reason) := by
  rcases load_cases ofFields? document with ⟨-, h⟩ | ⟨-, _, h⟩ | ⟨_, _, _, _, -, -, -, -, h⟩ <;>
    simp [h]

theorem load_eq_ok_iff : document.load ofFields? = .ok config ↔
    ∃ bytes text table, document = .content bytes ∧ text? bytes = some text ∧
      Toml.read? text = some table ∧ ofFields? (.byName table) = some config := by
  constructor
  · intro hload
    rcases load_cases ofFields? document with
      ⟨-, h⟩ | ⟨-, _, h⟩ | ⟨bytes, text, table, _, rfl, htext, htable, hconfig, h⟩
    · cases h.symm.trans hload
    · cases h.symm.trans hload
    · cases h.symm.trans hload
      exact ⟨bytes, text, table, rfl, htext, htable, hconfig⟩
  · rintro ⟨bytes, text, table, rfl, htext, htable, hconfig⟩
    simp only [load, htext, htable, hconfig]

/-- Every configuration that is loaded comes of a table in which no key is twice. -/
theorem exists_keyed_of_load (h : document.load ofFields? = .ok config) :
    ∃ table, (Value.table table).Keyed ∧ ofFields? (.byName table) = some config := by
  obtain ⟨_, _, table, -, -, htable, hconfig⟩ := load_eq_ok_iff.mp h
  exact ⟨table, Toml.read?_keyed htable, hconfig⟩

end Document

end SlotTransport
