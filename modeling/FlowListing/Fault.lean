import FlowListing.Text.Shown

/-!
# Faults, failed accesses and log records

`Abort` is a fault that stops a listing together with the place where it was met. `ToolError` is any error that these tools report
about their input: a container that cannot be read, or a listing that was stopped. `AccessFault` is what the system reports about a
file.

Reading a container and writing a listing leave a trail of records. They are returned in order with the result, never printed on the
way.
-/

namespace FlowListing

/-! ## What stops a listing -/

/-- The kinds of faults that stop a listing. -/
inductive FaultKind where
  | unknownOpcode
  | malformedInput
  | referenceNotFound
  deriving DecidableEq, Repr

/-- The name of a kind of fault. -/
def FaultKind.description : FaultKind → String
  | .unknownOpcode => "unknown opcode"
  | .malformedInput => "malformed input"
  | .referenceNotFound => "reference not found"

/-- A fault that stops a listing. -/
inductive Fault where
  /-- A fault of no closer description. -/
  | general (detail : String)
  /-- The code belongs to no opcode. -/
  | unknownOpcode (code : Int)
  /-- The instructions do not fit together. -/
  | malformed (detail : String)
  /-- A reference names no entry of its table. -/
  | unresolved (detail : String) (reference : Int)
  deriving DecidableEq, Repr

namespace Fault

/-- The kind of a fault. -/
def kind : Fault → FaultKind
  | .general _ | .malformed _ => .malformedInput
  | .unknownOpcode _ => .unknownOpcode
  | .unresolved _ _ => .referenceNotFound

/-- What a fault says of itself. -/
def detail : Fault → String
  | .general detail | .malformed detail | .unresolved detail _ => detail
  | .unknownOpcode code => s!"unknown opcode {code}"

/-- An instruction whose operand fills the next slot stands in the last slot. -/
def missingPayload : Fault :=
  .malformed "extended operand opcode in last slot has no operand slot"

/-- No string has the id. -/
def missingString (id : Int) : Fault :=
  .unresolved s!"no string for string reference id {id} in string table" id

/-- The position lies outside a label table with this many entries. -/
def missingLabel (table : String) (entries : Nat) (position : Int) : Fault :=
  .unresolved s!"no label for label reference id {position} in {table} ({entries} entries)" position

end Fault

/-- A fault and the slot where it was met, if it was met at one. -/
structure Abort where
  fault : Fault
  index : Option Int
  deriving DecidableEq, Repr

/-- The text of an abort: the slot, if there is one, and what the fault says. -/
def Abort.message (abort : Abort) : String :=
  match abort.index with
  | none => abort.fault.detail
  | some index => s!"instruction {index}: {abort.fault.detail}"

/-- An error that the tools report about their input. -/
inductive ToolError where
  /-- An error of no closer description. -/
  | general (message : String)
  /-- The container cannot be read. -/
  | format (message : String)
  /-- The listing was stopped. -/
  | stopped (abort : Abort)
  deriving DecidableEq, Repr

/-- The text of an error. -/
def ToolError.message : ToolError → String
  | .general message | .format message => message
  | .stopped abort => abort.message

/-! ## Failed accesses -/

/-- A failed access to a file, as the system reports it: a number, a text and, if known, the path. -/
structure AccessFault where
  number : Int
  text : String
  path : Option String
  deriving DecidableEq, Repr

/-- The text of a failed access. -/
def AccessFault.message (fault : AccessFault) : String :=
  match fault.path with
  | some path => s!"[Errno {fault.number}] {fault.text}: {Text.quote path}"
  | none => s!"[Errno {fault.number}] {fault.text}"

/-- The file is missing or may not be used. -/
def AccessFault.isDenied (fault : AccessFault) : Bool :=
  fault.number == 1 || fault.number == 2 || fault.number == 13

/-! ## Log records -/

/-- How much a record matters. -/
inductive Level where
  | debug
  | warning
  | error
  deriving DecidableEq, Repr

/-- The name of a level. -/
def Level.label : Level → String
  | .debug => "DEBUG"
  | .warning => "WARNING"
  | .error => "ERROR"

/-- The activity that made a record. -/
inductive Origin where
  /-- Reading a container. -/
  | reading
  /-- Writing the line of one instruction. -/
  | line
  /-- Writing a listing. -/
  | listing
  deriving DecidableEq, Repr

/-- A log record. -/
structure Record where
  level : Level
  origin : Origin
  message : String
  deriving DecidableEq, Repr

/-! ## Results that may be a fault -/

section Results

variable {ε ε' α β : Type}

/-- A value of a mapped result comes from one of the result. -/
theorem exists_of_map_eq_ok {result : Except ε α} {f : α → β} {b : β} (h : result.map f = .ok b) :
    ∃ a, result = .ok a ∧ f a = b := by
  cases result with
  | error fault => cases h
  | ok a => exact ⟨a, rfl, Except.ok.inj h⟩

/-- What comes second has a value only when the first part has one. -/
theorem exists_of_bind_eq_ok {result : Except ε α} {next : α → Except ε β} {b : β} (h : (result >>= next) = .ok b) :
    ∃ a, result = .ok a ∧ next a = .ok b := by
  cases result with
  | error fault => cases h
  | ok a => exact ⟨a, rfl, h⟩

/-- What comes second fails only when the first part did not. -/
theorem bind_eq_error_iff {result : Except ε α} {next : α → Except ε β} {fault : ε} :
    (result >>= next) = .error fault ↔ result = .error fault ∨ ∃ a, result = .ok a ∧ next a = .error fault := by
  cases result with
  | error other =>
    constructor
    · intro h
      cases h
      exact .inl rfl
    · rintro (h | ⟨a, ha, -⟩)
      · cases h
        rfl
      · cases ha
  | ok a =>
    constructor
    · intro h
      exact .inr ⟨a, rfl, h⟩
    · rintro (h | ⟨b, hb, h⟩)
      · cases h
      · cases hb
        exact h

/-- What comes second matters only for the values that the first part has. -/
theorem bind_congr_of_ok {result : Except ε α} {next next' : α → Except ε β} (h : ∀ a, result = .ok a → next a = next' a) :
    (result >>= next) = (result >>= next') := by
  cases result with
  | error fault => rfl
  | ok a => exact h a rfl

/-- Another name for a fault changes no value. -/
theorem mapError_eq_ok_iff {result : Except ε α} {f : ε → ε'} {a : α} : result.mapError f = .ok a ↔ result = .ok a := by
  constructor
  · intro h
    cases result with
    | error fault => cases h
    | ok b => exact congrArg Except.ok (Except.ok.inj h)
  · rintro rfl
    rfl

/-- A fault has its other name where there was a fault. -/
theorem mapError_eq_error_iff {result : Except ε α} {f : ε → ε'} {fault : ε'} :
    result.mapError f = .error fault ↔ ∃ reason, result = .error reason ∧ fault = f reason := by
  constructor
  · intro h
    cases result with
    | error reason => exact ⟨reason, rfl, (Except.error.inj h).symm⟩
    | ok a => cases h
  · rintro ⟨reason, rfl, rfl⟩
    rfl

end Results

end FlowListing
