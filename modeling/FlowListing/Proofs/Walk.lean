import FlowListing.Listing.Run

/-!
# The positions of a walk

The positions of the instructions follow from the codes in the text section alone (`Script.position`): the walk moves two slots past
an instruction whose operand fills the next slot, and one slot past any other. `Script.FailsAt` says which instructions cannot be
listed, and why, and `Script.OddPayloadAt` which operands should be words and are none, both without reference to the walk.

`visit_error_of_failsAt`, `visit_error_of_oddPayloadAt` and `exists_visit` say that a visit fails exactly there, and `visit_congr`
what a visit looks at. `walkAt_visit_induction` is the induction over the walks from all slots, and `walkAt_induction` the same with
the reasons for which a visit fails. They carry these facts along the walk: where it ends and why (`walkAt_stop`), and where its
visits stand (`walk_position`).
-/

namespace FlowListing

/-! ## Codes -/

/-- A code outside the instruction set belongs to no opcode. -/
theorem Opcode.ofCode?_eq_none {code : Int} (h : code < 0 ∨ 34 < code) : ofCode? code = Option.none := by
  cases code with
  | ofNat n =>
    have hn : 35 ≤ n := by
      rcases h with h | h
      · exact absurd h (by simp)
      · exact Int.ofNat_lt.mp h
    exact List.getElem?_eq_none hn
  | negSucc n => rfl

/-- A code inside the instruction set is the code of an opcode. -/
theorem Opcode.exists_code_eq (code : Int) (h0 : 0 ≤ code) (h34 : code ≤ 34) : ∃ op : Opcode, code = op.code := by
  obtain ⟨n, rfl⟩ := Int.eq_ofNat_of_zero_le h0
  have hn : n < all.length := by
    have : n ≤ 34 := Int.ofNat_le.mp h34
    exact Nat.lt_succ_of_le this
  have hcode : ∀ i : Fin all.length, (all.get i).code = i := by decide
  exact ⟨all.get ⟨n, hn⟩, by rw [hcode ⟨n, hn⟩]⟩

/-- Requiring the code of an opcode gives the opcode. -/
@[simp] theorem Opcode.require_code (op : Opcode) (index : Option Int) : require op.code index = .ok op := by
  simp [require]

/-! ## Positions -/

/-- The code in a slot is that of an instruction whose operand fills the next slot. -/
def Slot.takesNext (slot : Slot) : Bool :=
  slot.opcode = Opcode.pushi.code || slot.opcode = Opcode.pushf.code

/-- How far the walk moves past the instruction in a slot. -/
def Slot.stride (slot : Slot) : Nat :=
  if slot.takesNext then 2 else 1

/-- Where the instruction with a number stands, the first one having number zero. -/
def Script.position (script : Script) : Nat → Nat
  | 0 => 0
  | j + 1 => script.position j + (script.text[script.position j]?.map Slot.stride).getD 1

/-- The slot at an index holds an instruction whose operand fills the next slot. -/
def Script.takesNextAt (script : Script) (p : Nat) : Bool :=
  script.text[p]?.any Slot.takesNext

/-- A slot takes the next one as its operand when its opcode does. -/
theorem Slot.takesNext_of_code {slot : Slot} {op : Opcode} (h : slot.opcode = op.code) :
    slot.takesNext = op.isExtended := by
  cases op <;> simp [takesNext, h, Opcode.code, Opcode.isExtended, Opcode.operandClass, OperandClass.isExtended,
    Opcode.ctorIdx]

/-- An instruction takes at least one slot. -/
theorem Slot.one_le_stride (slot : Slot) : 1 ≤ slot.stride := by
  unfold stride
  split <;> omega

/-- An instruction stands where the one before it ends. -/
theorem Script.position_succ (script : Script) (j : Nat) {slot : Slot}
    (here : script.text[script.position j]? = some slot) :
    script.position (j + 1) = script.position j + slot.stride := by
  simp [position, here]

/-- Each instruction stands behind the one before it. -/
theorem Script.position_lt_succ (script : Script) (j : Nat) : script.position j < script.position (j + 1) := by
  have h1 : 1 ≤ (script.text[script.position j]?.map Slot.stride).getD 1 := by
    cases script.text[script.position j]? with
    | none => exact Nat.le_refl 1
    | some slot => exact slot.one_le_stride
  rw [position]
  omega

/-- Instructions stand in their order. -/
theorem Script.position_strictMono (script : Script) {i j : Nat} (h : i < j) : script.position i < script.position j := by
  induction j with
  | zero => omega
  | succ j ih =>
    have hj := script.position_lt_succ j
    rcases Nat.lt_or_eq_of_le (Nat.le_of_lt_succ h) with hij | rfl
    · exact Nat.lt_trans (ih hij) hj
    · exact hj

/-- A later instruction does not stand before an earlier one. -/
theorem Script.position_mono (script : Script) {i j : Nat} (h : i ≤ j) : script.position i ≤ script.position j := by
  rcases Nat.lt_or_eq_of_le h with hlt | rfl
  · exact Nat.le_of_lt (script.position_strictMono hlt)
  · exact Nat.le_refl _

/-- A position lies beyond its number by the number of payloads passed on the way. -/
theorem Script.position_eq_add_countP (script : Script) (n : Nat) :
    script.position n = n + (List.range n).countP fun j => script.takesNextAt (script.position j) := by
  induction n with
  | zero => rfl
  | succ n ih =>
    have hstep : (script.text[script.position n]?.map Slot.stride).getD 1
        = 1 + if script.takesNextAt (script.position n) then 1 else 0 := by
      unfold takesNextAt
      cases script.text[script.position n]? with
      | none => rfl
      | some slot =>
        by_cases hs : slot.takesNext <;> simp [Slot.stride, hs]
    rw [position, hstep, List.range_succ, List.countP_append, List.countP_singleton]
    omega

/-! ## Instructions that cannot be listed -/

/-- The instruction at a slot cannot be listed because of a fault. -/
inductive Script.FailsAt (script : Script) (p : Nat) : Fault → Prop where
  /-- The code is outside the instruction set. -/
  | opcode {slot : Slot} (here : script.text[p]? = some slot) (outside : slot.opcode < 0 ∨ 34 < slot.opcode) :
      FailsAt script p (.unknownOpcode slot.opcode)
  /-- The operand should fill the next slot, and there is none. -/
  | payload {slot : Slot} (here : script.text[p]? = some slot)
      (code : slot.opcode = Opcode.pushi.code ∨ slot.opcode = Opcode.pushf.code)
      (last : script.text.length ≤ p + 1) : FailsAt script p .missingPayload
  /-- The short is the id of no string. -/
  | string {slot : Slot} (here : script.text[p]? = some slot) (code : slot.opcode = Opcode.pushstr.code)
      (absent : slot.short ∉ script.strings.map (·.1)) : FailsAt script p (.missingString slot.short)
  /-- The short is no position in the table of procedure labels. -/
  | procedure {slot : Slot} (here : script.text[p]? = some slot)
      (code : slot.opcode = Opcode.proc.code ∨ slot.opcode = Opcode.call.code)
      (outside : slot.short < 0 ∨ script.procedures.length ≤ slot.short) :
      FailsAt script p (.missingLabel "procedure labels" script.procedures.length slot.short)
  /-- The short is no position in the table of jump labels. -/
  | jump {slot : Slot} (here : script.text[p]? = some slot)
      (code : slot.opcode = Opcode.jump.code ∨ slot.opcode = Opcode.goto.code ∨ slot.opcode = Opcode.if.code)
      (outside : slot.short < 0 ∨ script.jumps.length ≤ slot.short) :
      FailsAt script p (.missingLabel "jump labels" script.jumps.length slot.short)

/-- The instruction at a slot should find its operand in the next slot, and what stands there is no word of 32 bits. -/
def Script.OddPayloadAt (script : Script) (p : Nat) : Prop :=
  ∃ slot payload, script.text[p]? = some slot ∧ slot.takesNext = true ∧ script.text[p + 1]? = some payload ∧
    ¬(0 ≤ payload.payload ∧ payload.payload < 0x100000000)

/-- What fails stands in the text section. -/
theorem Script.FailsAt.lt_length {script : Script} {p : Nat} {fault : Fault} (h : script.FailsAt p fault) :
    p < script.text.length := by
  cases h <;> exact (List.getElem?_eq_some_iff.mp ‹_›).1

/-- The slots that take the next one as their operand push a word or a number. -/
theorem Slot.takesNext_iff (slot : Slot) :
    slot.takesNext = true ↔ slot.opcode = Opcode.pushi.code ∨ slot.opcode = Opcode.pushf.code := by
  rw [takesNext, Bool.or_eq_true, decide_eq_true_eq, decide_eq_true_eq]

/-- An instruction that cannot be listed has no operand to look at. -/
theorem Script.FailsAt.not_oddPayloadAt {script : Script} {p : Nat} {fault : Fault} (h : script.FailsAt p fault) :
    ¬script.OddPayloadAt p := by
  rintro ⟨slot, payload, here, htakes, hnext, -⟩
  rw [slot.takesNext_iff] at htakes
  cases h with
  | payload here' code last =>
    rw [List.getElem?_eq_none last] at hnext
    cases hnext
  | opcode here' outside =>
    cases Option.some.inj (here.symm.trans here')
    rcases htakes with htakes | htakes <;> rw [htakes] at outside <;> exact absurd outside (by decide)
  | string here' code =>
    cases Option.some.inj (here.symm.trans here')
    rw [code] at htakes
    exact absurd htakes (by decide)
  | procedure here' code =>
    cases Option.some.inj (here.symm.trans here')
    rcases code with code | code <;> rw [code] at htakes <;> exact absurd htakes (by decide)
  | jump here' code =>
    cases Option.some.inj (here.symm.trans here')
    rcases code with code | code | code <;> rw [code] at htakes <;> exact absurd htakes (by decide)

/-- The end of a procedure can always be listed. -/
theorem Script.FailsAt.opcode_ne_end {script : Script} {p : Nat} {fault : Fault} {slot : Slot} (h : script.FailsAt p fault)
    (here : script.text[p]? = some slot) : slot.opcode ≠ Opcode.end.code := by
  intro hend
  cases h with
  | opcode here' outside =>
    cases Option.some.inj (here.symm.trans here')
    rw [hend] at outside
    exact absurd outside (by decide)
  | string here' code =>
    cases Option.some.inj (here.symm.trans here')
    exact absurd (hend.symm.trans code) (by decide)
  | payload here' code | procedure here' code =>
    cases Option.some.inj (here.symm.trans here')
    rw [hend] at code
    exact absurd code (by decide)
  | jump here' code =>
    cases Option.some.inj (here.symm.trans here')
    rw [hend] at code
    exact absurd code (by decide)

/-! ## Visits -/

/-- An opcode that was required has the code that it was required by. -/
theorem Opcode.code_of_require {code : Int} {index : Option Int} {op : Opcode} (h : require code index = .ok op) :
    code = op.code := by
  by_cases hc : code < 0 ∨ 34 < code
  · simp [require, ofCode?_eq_none hc] at h
  · obtain ⟨op', rfl⟩ := exists_code_eq code (by omega) (by omega)
    rw [require_code] at h
    rw [Except.ok.inj h]

/-- The visit of an instruction whose opcode is known: its operand decides. -/
theorem Script.visit_of_code (script : Script) (p : Nat) {slot : Slot} (next : Option Slot) {op : Opcode}
    (h : slot.opcode = op.code) :
    script.visit p slot next
      = (script.operand p slot next op.operandClass).map fun operand => ⟨p, op, operand, separates op next⟩ := by
  unfold visit
  rw [h, Opcode.require_code]

/-- A visit tells what it visited: the slot, its opcode, and the operand that the opcode asks for. -/
theorem Script.visit_eq_ok {script : Script} {p : Nat} {slot : Slot} {next : Option Slot} {visit : Visit}
    (h : script.visit p slot next = .ok visit) :
    slot.opcode = visit.opcode.code ∧ visit.index = p ∧ visit.separated = separates visit.opcode next ∧
      script.operand p slot next visit.opcode.operandClass = .ok visit.operand := by
  cases hr : Opcode.require slot.opcode (some (p : Int)) with
  | error abort => simp [Script.visit, hr] at h
  | ok op =>
    have hc := Opcode.code_of_require hr
    rw [script.visit_of_code p next hc] at h
    obtain ⟨operand, ho, rfl⟩ := exists_of_map_eq_ok h
    exact ⟨hc, rfl, rfl, ho⟩

/-- A string is not found exactly when its id is not in the table. -/
theorem StringTable.find?_eq_none_iff (table : StringTable) (id : Int) :
    table.find? id = none ↔ id ∉ table.map (·.1) := by
  rw [find?, List.lookup_eq_none_iff, List.mem_map]
  constructor
  · rintro h ⟨entry, hmem, rfl⟩
    simpa using h entry hmem
  · intro h entry hmem
    rw [bne_iff_ne]
    rintro rfl
    exact h ⟨entry, hmem, rfl⟩

/-- A string that is found is in the table under its id. -/
theorem StringTable.mem_of_find? {table : StringTable} {id : Int} {text : String} (h : table.find? id = some text) :
    (id, text) ∈ table := by
  obtain ⟨before, after, rfl, -⟩ := List.lookup_eq_some_iff.mp h
  simp

/-- A position outside the table has no label. -/
theorem requireLabel_of_outside (table : String) {labels : List Label} (index : Int) {position : Int}
    (h : position < 0 ∨ labels.length ≤ position) :
    requireLabel table labels index position = .error (.fatal ⟨.missingLabel table labels.length position, index⟩) := by
  unfold requireLabel
  by_cases hneg : position < 0
  · rw [if_pos hneg]
  · rw [if_neg hneg, List.getElem?_eq_none (by omega)]

/-- A position inside the table has a label. -/
theorem requireLabel_of_inside (table : String) (labels : List Label) (index position : Int)
    (h0 : 0 ≤ position) (h : position < labels.length) :
    ∃ label ∈ labels, requireLabel table labels index position = .ok label := by
  have hlt : position.toNat < labels.length := by omega
  refine ⟨labels[position.toNat], List.getElem_mem hlt, ?_⟩
  unfold requireLabel
  rw [if_neg (by omega), List.getElem?_eq_getElem hlt]

/-- All payloads of a script are words of 32 bits. -/
def Script.WordPayloads (script : Script) : Prop :=
  ∀ slot ∈ script.text, 0 ≤ slot.payload ∧ slot.payload < 0x100000000

/-- Where all payloads are words no operand fails to be one. -/
theorem Script.WordPayloads.not_oddPayloadAt {script : Script} (h : script.WordPayloads) (p : Nat) :
    ¬script.OddPayloadAt p := by
  rintro ⟨slot, payload, -, -, hnext, hodd⟩
  exact hodd (h payload (List.mem_of_getElem? hnext))

/-- A payload in the range of words is the word. -/
theorem Slot.word_of_range {slot : Slot} (h : 0 ≤ slot.payload ∧ slot.payload < 0x100000000) :
    slot.word = .ok slot.payload.toNat := by
  unfold word
  rw [if_neg (by omega), if_neg (by omega)]

/-- A visit fails where the instruction cannot be listed, with the fault that says so. -/
theorem Script.visit_error_of_failsAt {script : Script} {p : Nat} {slot : Slot} {fault : Fault}
    (here : script.text[p]? = some slot) (h : script.FailsAt p fault) :
    script.visit p slot script.text[p + 1]? = .error (.fatal ⟨fault, some p⟩) := by
  cases h with
  | @opcode slot' here' outside =>
    cases Option.some.inj (here.symm.trans here')
    simp [visit, Opcode.require, Opcode.ofCode?_eq_none outside]
  | @payload slot' here' code last =>
    cases Option.some.inj (here.symm.trans here')
    have hnext : script.text[p + 1]? = none := List.getElem?_eq_none last
    rcases code with code | code <;>
      rw [script.visit_of_code p _ code, hnext] <;> rfl
  | @string slot' here' code absent =>
    cases Option.some.inj (here.symm.trans here')
    rw [script.visit_of_code p _ code]
    simp [Opcode.operandClass, operand, (StringTable.find?_eq_none_iff _ _).mpr absent, Except.map]
  | @procedure slot' here' code outside =>
    cases Option.some.inj (here.symm.trans here')
    rcases code with code | code <;>
      simp [script.visit_of_code p _ code, Opcode.operandClass, operand, requireLabel_of_outside _ _ outside, Except.map]
  | @jump slot' here' code outside =>
    cases Option.some.inj (here.symm.trans here')
    rcases code with code | code | code <;>
      simp [script.visit_of_code p _ code, Opcode.operandClass, operand, requireLabel_of_outside _ _ outside, Except.map]

/-- The payload after an instruction that can be listed can be read. -/
theorem Script.requirePayload_of_listable {script : Script} {p : Nat} {slot : Slot} (here : script.text[p]? = some slot)
    (hok : ∀ fault, ¬script.FailsAt p fault) (hword : ¬script.OddPayloadAt p)
    (code : slot.opcode = Opcode.pushi.code ∨ slot.opcode = Opcode.pushf.code) :
    ∃ payload w, requirePayload p script.text[p + 1]? = .ok payload ∧ payload.word = .ok w := by
  have hlt : p + 1 < script.text.length := by
    rcases Nat.lt_or_ge (p + 1) script.text.length with hlt | hge
    · exact hlt
    · exact absurd (.payload here code hge) (hok _)
  have hnext : script.text[p + 1]? = some script.text[p + 1] := List.getElem?_eq_getElem hlt
  have hrange : 0 ≤ script.text[p + 1].payload ∧ script.text[p + 1].payload < 0x100000000 :=
    Decidable.not_not.mp fun hodd => hword ⟨slot, script.text[p + 1], here, slot.takesNext_iff.mpr code, hnext, hodd⟩
  rw [hnext]
  exact ⟨script.text[p + 1], _, rfl, Slot.word_of_range hrange⟩

/-- The opcodes whose operand can be missing, by the class of the operand. -/
theorem Opcode.cases_of_operandClass (op : Opcode) :
    match op.operandClass with
    | .word => op = .pushi
    | .real => op = .pushf
    | .string => op = .pushstr
    | .procedure => op = .proc ∨ op = .call
    | .jump => op = .jump ∨ op = .goto ∨ op = .if
    | _ => True := by
  cases op <;> simp [operandClass]

/-- Where nothing speaks against it, the operand of an instruction is found. -/
theorem Script.exists_operand {script : Script} {p : Nat} {slot : Slot} {op : Opcode} (here : script.text[p]? = some slot)
    (hok : ∀ fault, ¬script.FailsAt p fault) (hword : ¬script.OddPayloadAt p) (code : slot.opcode = op.code) :
    ∃ operand, script.operand p slot script.text[p + 1]? op.operandClass = .ok operand := by
  have hop := op.cases_of_operandClass
  cases hclass : op.operandClass <;> rw [hclass] at hop
  case none => exact ⟨_, rfl⟩
  case short => exact ⟨_, rfl⟩
  case comm => exact ⟨_, rfl⟩
  case word =>
    subst hop
    obtain ⟨payload, w, hp, hword⟩ := script.requirePayload_of_listable here hok hword (.inl code)
    refine ⟨.word (Int.bmod w 0x100000000), ?_⟩
    rw [operand, hp]
    change (payload.signed.map Operand.word).mapError StepFault.payload = _
    rw [Slot.signed, hword]
    rfl
  case real =>
    subst hop
    obtain ⟨payload, w, hp, hword⟩ := script.requirePayload_of_listable here hok hword (.inr code)
    refine ⟨.real (Number.binary32.decode w), ?_⟩
    rw [operand, hp]
    change (payload.real.map Operand.real).mapError StepFault.payload = _
    rw [Slot.real, hword]
    rfl
  case string =>
    subst hop
    cases hfind : script.strings.find? slot.short with
    | none => exact absurd (.string here code ((StringTable.find?_eq_none_iff _ _).mp hfind)) (hok _)
    | some text => exact ⟨.string slot.short text, by simp [operand, hfind]⟩
  case procedure =>
    have hcode : slot.opcode = Opcode.proc.code ∨ slot.opcode = Opcode.call.code := by
      rcases hop with rfl | rfl
      · exact .inl code
      · exact .inr code
    have hin : ¬(slot.short < 0 ∨ script.procedures.length ≤ slot.short) :=
      fun outside => hok _ (.procedure here hcode outside)
    obtain ⟨label, -, hl⟩ :=
      requireLabel_of_inside "procedure labels" script.procedures p slot.short (by omega) (by omega)
    exact ⟨.procedure slot.short label, by simp [operand, hl, Except.map]⟩
  case jump =>
    have hcode : slot.opcode = Opcode.jump.code ∨ slot.opcode = Opcode.goto.code ∨ slot.opcode = Opcode.if.code := by
      rcases hop with rfl | rfl | rfl
      · exact .inl code
      · exact .inr (.inl code)
      · exact .inr (.inr code)
    have hin : ¬(slot.short < 0 ∨ script.jumps.length ≤ slot.short) := fun outside => hok _ (.jump here hcode outside)
    obtain ⟨label, -, hl⟩ := requireLabel_of_inside "jump labels" script.jumps p slot.short (by omega) (by omega)
    exact ⟨.jump slot.short label, by simp [operand, hl, Except.map]⟩

/-- Where nothing speaks against it, an instruction is visited. -/
theorem Script.exists_visit {script : Script} {p : Nat} {slot : Slot} (here : script.text[p]? = some slot)
    (hok : ∀ fault, ¬script.FailsAt p fault) (hword : ¬script.OddPayloadAt p) :
    ∃ visit, script.visit p slot script.text[p + 1]? = .ok visit := by
  have hin : ¬(slot.opcode < 0 ∨ 34 < slot.opcode) := fun outside => hok _ (.opcode here outside)
  obtain ⟨op, code⟩ := Opcode.exists_code_eq slot.opcode (by omega) (by omega)
  obtain ⟨operand, ho⟩ := script.exists_operand here hok hword code
  rw [script.visit_of_code p _ code, ho]
  exact ⟨_, rfl⟩

/-- A payload outside the range of words is no word. -/
theorem Slot.exists_word_error {slot : Slot} (h : ¬(0 ≤ slot.payload ∧ slot.payload < 0x100000000)) :
    ∃ fault, slot.word = .error fault := by
  unfold word
  split
  · exact ⟨_, rfl⟩
  · rw [if_pos (by omega)]
    exact ⟨_, rfl⟩

/-- Where the operand should be a word and is none, the visit fails for that reason. -/
theorem Script.visit_error_of_oddPayloadAt {script : Script} {p : Nat} {slot : Slot} (here : script.text[p]? = some slot)
    (h : script.OddPayloadAt p) : ∃ fault, script.visit p slot script.text[p + 1]? = .error (.payload fault) := by
  obtain ⟨slot', payload, here', htakes, hnext, hodd⟩ := h
  cases Option.some.inj (here.symm.trans here')
  obtain ⟨fault, hword⟩ := Slot.exists_word_error hodd
  refine ⟨fault, ?_⟩
  rcases slot.takesNext_iff.mp htakes with code | code
  · have hoperand : script.operand p slot (some payload) .word = .error (.payload fault) := by
      change (payload.signed.map Operand.word).mapError StepFault.payload = _
      rw [Slot.signed, hword]
      rfl
    rw [script.visit_of_code p _ code, hnext, Opcode.operandClass, hoperand]
    rfl
  · have hoperand : script.operand p slot (some payload) .real = .error (.payload fault) := by
      change (payload.real.map Operand.real).mapError StepFault.payload = _
      rw [Slot.real, hword]
      rfl
    rw [script.visit_of_code p _ code, hnext, Opcode.operandClass, hoperand]
    rfl

/-! ## What a visit looks at -/

/-- Two scripts have the same labels, and the same strings under the same ids. -/
structure Script.SameTables (script script' : Script) : Prop where
  jumps : script'.jumps = script.jumps
  procedures : script'.procedures = script.procedures
  strings : ∀ id, script'.strings.find? id = script.strings.find? id

theorem Script.SameTables.refl (script : Script) : script.SameTables script :=
  ⟨rfl, rfl, fun _ => rfl⟩

/-- The slot holds the end of a procedure. -/
def Slot.endsProcedure (slot : Slot) : Bool :=
  slot.opcode = Opcode.end.code

/-- The operand depends on the tables and on the short or, where it fills the next slot, on the payload there. -/
theorem Script.operand_congr {script script' : Script} (htables : script.SameTables script') (index : Int) {slot slot' : Slot}
    {next next' : Option Slot} {operandClass : OperandClass}
    (hshort : operandClass.isExtended = false → slot.short = slot'.short)
    (hpayload : operandClass.isExtended = true → next.map Slot.payload = next'.map Slot.payload) :
    script.operand index slot next operandClass = script'.operand index slot' next' operandClass := by
  cases operandClass with
  | none | short | comm => simp only [operand, hshort rfl]
  | string => simp only [operand, hshort rfl, htables.strings]
  | procedure => simp only [operand, hshort rfl, htables.procedures]
  | jump => simp only [operand, hshort rfl, htables.jumps]
  | word | real =>
    have hsame := hpayload rfl
    cases next with
    | none => cases next' with
      | none => rfl
      | some payload' => cases hsame
    | some payload => cases next' with
      | none => cases hsame
      | some payload' =>
        have hword : payload.word = payload'.word := by rw [Slot.word, Slot.word, Option.some.inj hsame]
        simp only [operand, requirePayload, bind, Except.bind, Slot.signed, Slot.real, hword]

/-- Before another slot, a blank line follows the end of a procedure unless that slot ends one too. -/
theorem separates_some (op : Opcode) (slot : Slot) : separates op (some slot) = (op.endsProcedure && !slot.endsProcedure) := by
  simp [separates, Slot.endsProcedure]

/-- Whether a blank line follows depends on whether the next slot ends a procedure, and for an extended instruction on nothing. -/
theorem separates_congr {op : Opcode} {next next' : Option Slot}
    (hnext : op.isExtended = false → next.map Slot.endsProcedure = next'.map Slot.endsProcedure) :
    separates op next = separates op next' := by
  by_cases hend : op = .end
  · have hsame := hnext (hend ▸ rfl)
    cases next with
    | none => cases next' with
      | none => rfl
      | some slot' => cases hsame
    | some slot => cases next' with
      | none => cases hsame
      | some slot' => rw [separates_some, separates_some, Option.some.inj hsame]
  · have hkeep : op.endsProcedure = false := by simpa [Opcode.endsProcedure] using hend
    simp only [separates, hkeep, Bool.false_and]

/-- A visit looks at the tables, at the opcode and the short of its slot, and at the next slot as a payload where the operand fills it
and elsewhere only to see whether it ends a procedure. -/
theorem Script.visit_congr {script script' : Script} (htables : script.SameTables script') (index : Nat) {slot slot' : Slot}
    {next next' : Option Slot} (hopcode : slot.opcode = slot'.opcode) (hshort : slot.short = slot'.short)
    (hpayload : slot.takesNext = true → next.map Slot.payload = next'.map Slot.payload)
    (hnext : slot.takesNext = false → next.map Slot.endsProcedure = next'.map Slot.endsProcedure) :
    script.visit index slot next = script'.visit index slot' next' := by
  rw [visit, visit, ← hopcode]
  cases hrequire : Opcode.require slot.opcode (some index) with
  | error abort => rfl
  | ok op =>
    have hext := Slot.takesNext_of_code (Opcode.code_of_require hrequire)
    rw [hext] at hpayload hnext
    simp only [operand_congr htables index (fun _ => hshort) hpayload, separates_congr hnext]

/-! ## Along the walk -/

/-- The walk from a slot on. -/
def Script.walkAt (script : Script) (p : Nat) : Walk :=
  script.walkFrom p (script.text.drop p)

/-- Behind the last slot the walk has ended. -/
theorem Script.walkAt_end (script : Script) {p : Nat} (h : script.text.length ≤ p) :
    script.walkAt p = ⟨[], p, none⟩ := by
  rw [walkAt, List.drop_eq_nil_of_le h, walkFrom]

/-- The rest of a list starts with the element that stands there. -/
theorem drop_of_getElem? {α : Type} {xs : List α} {i : Nat} {x : α} (h : xs[i]? = some x) :
    xs.drop i = x :: xs.drop (i + 1) := by
  rw [List.drop_eq_getElem?_toList_append, h]
  rfl

/-- At an instruction that cannot be listed the walk stops. -/
theorem Script.walkAt_of_error (script : Script) {p : Nat} {slot : Slot} {fault : StepFault}
    (here : script.text[p]? = some slot) (h : script.visit p slot script.text[p + 1]? = .error fault) :
    script.walkAt p = ⟨[], p, some fault⟩ := by
  rw [walkAt, drop_of_getElem? here, walkFrom, List.head?_drop, h]

/-- An instruction whose operand fills the next slot is visited only when there is a next slot. -/
theorem Script.exists_next_of_visit {script : Script} {p : Nat} {slot : Slot} {next : Option Slot} {visit : Visit}
    (h : script.visit p slot next = .ok visit) (hext : visit.opcode.isExtended = true) : ∃ payload, next = some payload := by
  obtain ⟨-, -, -, ho⟩ := visit_eq_ok h
  cases next with
  | some payload => exact ⟨payload, rfl⟩
  | none =>
    unfold Opcode.isExtended at hext
    cases hclass : visit.opcode.operandClass <;> simp [hclass, OperandClass.isExtended] at hext
    · rw [hclass] at ho
      cases ho
    · rw [hclass] at ho
      cases ho

/-- The walk visits an instruction that can be listed and goes on behind it. -/
theorem Script.walkFrom_of_visit (script : Script) {index : Nat} {slot : Slot} {rest : List Slot} {visit : Visit}
    (h : script.visit index slot rest.head? = .ok visit) :
    script.walkFrom index (slot :: rest) =
      (script.walkFrom (index + slot.stride) (rest.drop (slot.stride - 1))).after visit := by
  have hext := Slot.takesNext_of_code (visit_eq_ok h).1
  rw [walkFrom, h]
  by_cases htwo : visit.opcode.isExtended = true
  · obtain ⟨payload, hnext⟩ := exists_next_of_visit h htwo
    obtain ⟨later, rfl⟩ := List.head?_eq_some_iff.mp hnext
    rw [htwo] at hext
    simp [htwo, Slot.stride, hext]
  · have hone : visit.opcode.isExtended = false := by simpa using htwo
    rw [hone] at hext
    simp [hone, Slot.stride, hext]

/-- A walk that can visit its first instruction goes on behind it. -/
theorem Script.walkAt_of_visit (script : Script) {p : Nat} {slot : Slot} {visit : Visit}
    (here : script.text[p]? = some slot) (h : script.visit p slot script.text[p + 1]? = .ok visit) :
    script.walkAt p = (script.walkAt (p + slot.stride)).after visit := by
  have hnext : p + 1 + (slot.stride - 1) = p + slot.stride := by
    have := slot.one_le_stride
    omega
  rw [← List.head?_drop] at h
  rw [walkAt, drop_of_getElem? here, walkFrom_of_visit script h, List.drop_drop, hnext, walkAt]

/-- What holds of the walks from all slots: it is enough to look at a walk that has ended, at one whose first visit fails, and at one
that goes on behind its first visit. The induction is on the slots that are left, of which each instruction takes at least one. -/
theorem Script.walkAt_visit_induction (script : Script) {motive : Nat → Walk → Prop}
    (ended : ∀ p, script.text.length ≤ p → motive p ⟨[], p, none⟩)
    (stopped : ∀ p slot fault, script.text[p]? = some slot → script.visit p slot script.text[p + 1]? = .error fault →
      motive p ⟨[], p, some fault⟩)
    (visited : ∀ p slot visit, script.text[p]? = some slot → script.visit p slot script.text[p + 1]? = .ok visit →
      motive (p + slot.stride) (script.walkAt (p + slot.stride)) → motive p ((script.walkAt (p + slot.stride)).after visit))
    (p : Nat) : motive p (script.walkAt p) := by
  induction hleft : script.text.length - p using Nat.strongRecOn generalizing p with
  | ind left ih =>
    rcases Nat.lt_or_ge p script.text.length with hlt | hge
    · have here : script.text[p]? = some script.text[p] := List.getElem?_eq_getElem hlt
      cases hvisit : script.visit p script.text[p] script.text[p + 1]? with
      | error fault =>
        rw [script.walkAt_of_error here hvisit]
        exact stopped p _ fault here hvisit
      | ok visit =>
        have hone := script.text[p].one_le_stride
        rw [script.walkAt_of_visit here hvisit]
        exact visited p _ visit here hvisit (ih _ (by omega) _ rfl)
    · rw [script.walkAt_end hge]
      exact ended p hge

/-- The same where a visit fails because the instruction cannot be listed or because the operand is no word, and succeeds because
neither is the case. -/
theorem Script.walkAt_induction (script : Script) {motive : Nat → Walk → Prop}
    (ended : ∀ p, script.text.length ≤ p → motive p ⟨[], p, none⟩)
    (failed : ∀ p fault, script.FailsAt p fault → motive p ⟨[], p, some (.fatal ⟨fault, some p⟩)⟩)
    (odd : ∀ p fault, script.OddPayloadAt p → motive p ⟨[], p, some (.payload fault)⟩)
    (visited : ∀ p slot visit, script.text[p]? = some slot → (∀ fault, ¬script.FailsAt p fault) → ¬script.OddPayloadAt p →
      script.visit p slot script.text[p + 1]? = .ok visit → motive (p + slot.stride) (script.walkAt (p + slot.stride)) →
      motive p ((script.walkAt (p + slot.stride)).after visit))
    (p : Nat) : motive p (script.walkAt p) := by
  refine script.walkAt_visit_induction ended ?_ ?_ p
  · intro p slot fault here herror
    by_cases hfails : ∃ fault, script.FailsAt p fault
    · obtain ⟨other, hfail⟩ := hfails
      cases herror.symm.trans (visit_error_of_failsAt here hfail)
      exact failed p other hfail
    · by_cases hodd : script.OddPayloadAt p
      · obtain ⟨other, hother⟩ := visit_error_of_oddPayloadAt here hodd
        cases herror.symm.trans hother
        exact odd p other hodd
      · obtain ⟨visit, hvisit⟩ := exists_visit here (fun fault hfail => hfails ⟨fault, hfail⟩) hodd
        cases herror.symm.trans hvisit
  · intro p slot visit here hvisit ih
    refine visited p slot visit here (fun fault hfail => ?_) (fun hodd => ?_) hvisit ih
    · cases hvisit.symm.trans (visit_error_of_failsAt here hfail)
    · obtain ⟨fault, hfault⟩ := visit_error_of_oddPayloadAt here hodd
      cases hvisit.symm.trans hfault

/-- The slot where a walk ends is behind the last one, or its instruction cannot be listed, or the operand there is no word; and this
is what the walk says of it. -/
theorem Script.walkAt_stop (script : Script) (p : Nat) :
    p ≤ (script.walkAt p).reached ∧
      ((script.text.length ≤ (script.walkAt p).reached ∧ (script.walkAt p).fault = none) ∨
        (∃ fault, script.FailsAt (script.walkAt p).reached fault ∧
          (script.walkAt p).fault = some (.fatal ⟨fault, some (script.walkAt p).reached⟩)) ∨
        (script.OddPayloadAt (script.walkAt p).reached ∧ ∃ fault, (script.walkAt p).fault = some (.payload fault))) := by
  refine script.walkAt_induction (motive := fun p walk => p ≤ walk.reached ∧
    ((script.text.length ≤ walk.reached ∧ walk.fault = none) ∨
      (∃ fault, script.FailsAt walk.reached fault ∧ walk.fault = some (.fatal ⟨fault, some walk.reached⟩)) ∨
      (script.OddPayloadAt walk.reached ∧ ∃ fault, walk.fault = some (.payload fault)))) ?_ ?_ ?_ ?_ p
  · intro p hend
    exact ⟨Nat.le_refl p, .inl ⟨hend, rfl⟩⟩
  · intro p fault hfail
    exact ⟨Nat.le_refl p, .inr (.inl ⟨fault, hfail, rfl⟩)⟩
  · intro p fault hodd
    exact ⟨Nat.le_refl p, .inr (.inr ⟨hodd, fault, rfl⟩)⟩
  · rintro p slot visit - - - - ⟨hle, hstop⟩
    exact ⟨Nat.le_trans (Nat.le_add_right p slot.stride) hle, hstop⟩

/-- An instruction that stopped a walk stands where the walk ended. -/
theorem Script.failsAt_of_fatal {script : Script} {p : Nat} {abort : Abort}
    (h : (script.walkAt p).fault = some (.fatal abort)) :
    script.FailsAt (script.walkAt p).reached abort.fault ∧ abort.index = some ((script.walkAt p).reached : Int) := by
  rcases (script.walkAt_stop p).2 with ⟨-, hnone⟩ | ⟨fault, hfails, hfatal⟩ | ⟨-, fault, hpayload⟩
  · cases hnone.symm.trans h
  · cases hfatal.symm.trans h
    exact ⟨hfails, rfl⟩
  · cases hpayload.symm.trans h

/-- Every visit of a walk is the visit of the slot where it stands. -/
theorem Script.visit_of_mem {script : Script} {p : Nat} {visit : Visit} (h : visit ∈ (script.walkAt p).visits) :
    ∃ slot, script.text[visit.index]? = some slot ∧
      script.visit visit.index slot script.text[visit.index + 1]? = .ok visit := by
  refine script.walkAt_visit_induction (motive := fun _ walk => ∀ visit ∈ walk.visits, ∃ slot,
    script.text[visit.index]? = some slot ∧ script.visit visit.index slot script.text[visit.index + 1]? = .ok visit)
    ?_ ?_ ?_ p visit h
  · intro p _ visit hvisit
    cases hvisit
  · intro p slot fault _ _ visit hvisit
    cases hvisit
  · intro p slot first here hfirst ih visit hvisit
    rcases List.mem_cons.mp hvisit with rfl | hvisit
    · obtain ⟨-, hindex, -, -⟩ := visit_eq_ok hfirst
      rw [hindex]
      exact ⟨slot, here, hfirst⟩
    · exact ih visit hvisit

/-- The visits of a walk stand at the positions, one after another, and the walk ends at the next one. -/
theorem Script.walkAt_position (script : Script) (n : Nat) :
    (script.walkAt (script.position n)).visits.map Visit.index =
        (List.range' n (script.walkAt (script.position n)).visits.length).map script.position ∧
      (script.walkAt (script.position n)).reached =
        script.position (n + (script.walkAt (script.position n)).visits.length) := by
  refine script.walkAt_visit_induction (motive := fun p walk => ∀ n, script.position n = p →
    walk.visits.map Visit.index = (List.range' n walk.visits.length).map script.position ∧
      walk.reached = script.position (n + walk.visits.length)) ?_ ?_ ?_ (script.position n) n rfl
  · rintro p - n rfl
    exact ⟨rfl, rfl⟩
  · rintro p slot fault - - n rfl
    exact ⟨rfl, rfl⟩
  · rintro p slot visit here hvisit ih n rfl
    obtain ⟨hindices, hreached⟩ := ih (n + 1) (script.position_succ n here)
    obtain ⟨-, hindex, -, -⟩ := visit_eq_ok hvisit
    constructor
    · rw [Walk.after, List.map_cons, List.length_cons, List.range'_succ, List.map_cons, hindices, hindex]
    · rw [Walk.after, List.length_cons, Nat.add_comm _ 1, ← Nat.add_assoc]
      exact hreached

/-- The walk over a script visits the first of the positions and ends at the next one. -/
theorem Script.walk_position (script : Script) :
    script.walk.visits.map Visit.index = (List.range script.walk.visits.length).map script.position ∧
      script.walk.reached = script.position script.walk.visits.length := by
  obtain ⟨hindices, hreached⟩ := script.walkAt_position 0
  rw [Nat.zero_add] at hreached
  rw [List.range_eq_range']
  exact ⟨hindices, hreached⟩

/-- A walk looks at the tables of its script and at the slots that it is given. -/
theorem Script.walkFrom_of_sameTables {script script' : Script} (htables : script.SameTables script') (index : Nat)
    (slots : List Slot) : script'.walkFrom index slots = script.walkFrom index slots := by
  have hvisit : ∀ index slot next, script'.visit index slot next = script.visit index slot next :=
    fun index slot next => (visit_congr htables index rfl rfl (fun _ => rfl) (fun _ => rfl)).symm
  fun_induction script.walkFrom index slots with
  | case1 index => rfl
  | case2 index slot rest fault herror => rw [walkFrom, hvisit, herror]
  | case3 index slot visit payload later hext hok ih => simp only [walkFrom, hvisit, hok, hext, ih]
  | case4 index slot visit rest hno hok ih =>
    rw [walkFrom, hvisit, hok]
    simp only [ih]

/-- The walk over given slots does not look at the text section. -/
theorem Script.walkFrom_with_text (script : Script) (text : List Slot) (index : Nat) (slots : List Slot) :
    { script with text := text }.walkFrom index slots = script.walkFrom index slots := by
  have htables : script.SameTables { script with text := text } := ⟨rfl, rfl, fun _ => rfl⟩
  exact walkFrom_of_sameTables htables index slots

/-- A walk does not look at the message data. -/
theorem Script.walk_with_message (script : Script) (message : List UInt8) :
    { script with message := message }.walk = script.walk := by
  have htables : script.SameTables { script with message := message } := ⟨rfl, rfl, fun _ => rfl⟩
  exact walkFrom_of_sameTables htables 0 script.text

/-- As long as no position fails, the walk is one visit for each position passed and then the walk from the position reached. -/
theorem Script.exists_visits (script : Script) (hw : script.WordPayloads) (k : Nat)
    (hin : ∀ j < k, script.position j < script.text.length)
    (hok : ∀ j < k, ∀ fault, ¬script.FailsAt (script.position j) fault) :
    ∃ visits : List Visit, visits.length = k ∧
      script.walk = { script.walkAt (script.position k) with
        visits := visits ++ (script.walkAt (script.position k)).visits } := by
  induction k with
  | zero => exact ⟨[], rfl, rfl⟩
  | succ k ih =>
    obtain ⟨visits, hlen, hwalk⟩ := ih (fun j hj => hin j (by omega)) (fun j hj => hok j (by omega))
    have hlt := hin k (by omega)
    have here : script.text[script.position k]? = some script.text[script.position k] := List.getElem?_eq_getElem hlt
    obtain ⟨visit, hvisit⟩ := script.exists_visit here (hok k (by omega)) (hw.not_oddPayloadAt _)
    refine ⟨visits ++ [visit], by simp [hlen], ?_⟩
    rw [hwalk, script.walkAt_of_visit here hvisit, script.position_succ k here]
    simp [Walk.after]

end FlowListing
