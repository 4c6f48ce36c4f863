/-
Fragment kinds. A kind is one byte: zero is invalid, 1 to 224 belong to payload
formats, 225 and up are reserved for the system, the first nine of them with a
meaning. `ofRaw_raw` and `raw_ofRaw` say that kinds and bytes are the same
thing.
-/

namespace SlotTransport.Fragment

/-- A kind reserved for the system. -/
inductive SystemKind where
  /-- No more data follows on the stream. -/
  | endOfData
  | data
  /-- Data that every reader gets once at the start. -/
  | init
  | endOfRun
  | endOfSubrun
  | shutdown
  /-- A placeholder without payload. -/
  | empty
  /-- Other fragments packed into one. -/
  | container
  | error
  /-- A system byte without a meaning yet. -/
  | reserved (raw : UInt8) (lower : 233 < raw)
  deriving DecidableEq, Repr

/-- What a fragment holds. -/
inductive Kind where
  | invalid
  /-- Free for payload formats. -/
  | user (raw : UInt8) (lower : 0 < raw) (upper : raw ≤ 224)
  | system (kind : SystemKind)
  deriving DecidableEq, Repr

namespace SystemKind

/-- The byte of a system kind. -/
def raw : SystemKind → UInt8
  | endOfData => 225
  | data => 226
  | init => 227
  | endOfRun => 228
  | endOfSubrun => 229
  | shutdown => 230
  | empty => 231
  | container => 232
  | error => 233
  | reserved raw _ => raw

/-- The name of a system kind; a kind without a meaning goes by its number. -/
def name : SystemKind → String
  | endOfData => "EndOfData"
  | data => "Data"
  | init => "Init"
  | endOfRun => "EndOfRun"
  | endOfSubrun => "EndOfSubrun"
  | shutdown => "Shutdown"
  | empty => "Empty"
  | container => "Container"
  | error => "Error"
  | reserved raw _ => s!"System({raw})"

end SystemKind

namespace Kind

/-- The byte of a kind. -/
def raw : Kind → UInt8
  | invalid => 0
  | user raw _ _ => raw
  | system kind => kind.raw

/-- The system kind of a byte above the user range. -/
def ofSystemRaw (raw : UInt8) : SystemKind :=
  if lower : 233 < raw then .reserved raw lower
  else if raw = 225 then .endOfData
  else if raw = 226 then .data
  else if raw = 227 then .init
  else if raw = 228 then .endOfRun
  else if raw = 229 then .endOfSubrun
  else if raw = 230 then .shutdown
  else if raw = 231 then .empty
  else if raw = 232 then .container
  else .error

/-- The user kind of a byte, if the byte is in the user range. -/
def ofUserRaw? (raw : UInt8) : Option Kind :=
  if lower : 0 < raw then
    if upper : raw ≤ 224 then some (.user raw lower upper) else none
  else none

def ofRaw (raw : UInt8) : Kind :=
  if raw = 0 then .invalid
  else (ofUserRaw? raw).getD (.system (ofSystemRaw raw))

def isSystem : Kind → Bool
  | system _ => true
  | _ => false

/-- Whether the kind is free for payload formats. -/
def isUser : Kind → Bool
  | user .. => true
  | _ => false

def name : Kind → String
  | invalid => "Invalid"
  | user raw _ _ => s!"User({raw})"
  | system kind => kind.name

theorem raw_ofRaw (raw : UInt8) : (ofRaw raw).raw = raw := by
  unfold ofRaw ofUserRaw? ofSystemRaw
  split
  · simp [Kind.raw, *]
  · split
    · split
      · rfl
      · simp only [Option.getD_none, Kind.raw]
        repeat' split
        all_goals simp_all [SystemKind.raw]
        apply UInt8.toNat.inj
        simp_all [UInt8.le_iff_toNat_le, UInt8.lt_iff_toNat_lt, ← UInt8.toNat_inj]
        omega
    · simp_all [UInt8.lt_iff_toNat_lt, ← UInt8.toNat_inj]

theorem ofRaw_raw (kind : Kind) : ofRaw kind.raw = kind := by
  cases kind with
  | invalid => rfl
  | user raw lower upper =>
    have : raw ≠ 0 := by rintro rfl; exact absurd lower (by decide)
    simp [Kind.raw, ofRaw, ofUserRaw?, this, lower, upper]
  | system kind =>
    cases kind with
    | reserved raw lower =>
      have h0 : raw ≠ 0 := by rintro rfl; exact absurd lower (by decide)
      have hu : ¬ raw ≤ 224 := by
        simp only [UInt8.le_iff_toNat_le, UInt8.lt_iff_toNat_lt] at *
        have : (233 : UInt8).toNat = 233 := rfl
        have : (224 : UInt8).toNat = 224 := rfl
        omega
      simp [Kind.raw, SystemKind.raw, ofRaw, ofUserRaw?, ofSystemRaw, h0, hu, lower]
    | _ => rfl

theorem raw_inj {a b : Kind} (h : a.raw = b.raw) : a = b := by
  rw [← ofRaw_raw a, ← ofRaw_raw b, h]

/-! ## Order -/

/-- Invalid comes first, then the user kinds by number, then the system kinds:
the order of the bytes. -/
instance : LT Kind := ⟨fun a b => a.raw < b.raw⟩

instance (a b : Kind) : Decidable (a < b) := inferInstanceAs (Decidable (a.raw < b.raw))

/-- Adds `kind` to an ascending list that holds no kind twice. -/
def insert (kind : Kind) : List Kind → List Kind
  | [] => [kind]
  | other :: rest =>
    if kind = other then other :: rest
    else if kind < other then kind :: other :: rest
    else other :: insert kind rest

/-- The kinds of a list in ascending order, each once. -/
def distinct (kinds : List Kind) : List Kind :=
  kinds.foldl (fun set kind => insert kind set) []

end Kind

/-- Selects fragments by kind. -/
inductive Filter where
  | any
  | only (kind : Kind)
  deriving DecidableEq, Repr

/-- Whether a fragment of this kind is selected. -/
def Filter.selects : Filter → Kind → Bool
  | any, _ => true
  | only wanted, kind => wanted == kind

end SlotTransport.Fragment
