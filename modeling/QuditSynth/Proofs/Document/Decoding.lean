import QuditSynth.Proofs.Document.Bounds
import QuditSynth.Proofs.Document.Circuit

namespace QuditSynth

/-! # What is decoded from a text

All numbers of a text are bounded, and so are those of the values decoded from
it: a circuit that was read has finite doubles only, and the machine can hold it.
-/

namespace Document

variable {α : Type} {document : Document}

theorem forall_mem_mapM {good : α → Prop} {β : Type} {f : β → Option α} {items : List β}
    {values : List α} (each : ∀ item ∈ items, ∀ value, f item = some value → good value)
    (mapped : items.mapM f = some values) : ∀ value ∈ values, good value := by
  induction items generalizing values with
  | nil =>
      cases mapped
      exact List.forall_mem_nil good
  | cons item items ih =>
      obtain ⟨first, others⟩ := List.forall_mem_cons.mp each
      rw [List.mapM_cons] at mapped
      obtain ⟨value, made, mapped⟩ := Option.bind_eq_some_iff.mp mapped
      obtain ⟨rest, more, assembled⟩ := Option.bind_eq_some_iff.mp mapped
      cases assembled
      exact List.forall_mem_cons.mpr ⟨first value made, ih others more⟩

namespace Bounded

theorem asList {good : α → Prop} {f : Document → Option α} {values : List α}
    (bounded : document.Bounded) (read : document.asList f = some values)
    (each : ∀ item : Document, item.Bounded → ∀ value, f item = some value → good value) :
    ∀ value ∈ values, good value := by
  cases bounded with
  | list all => exact forall_mem_mapM (fun item member => each item (all item member)) read
  | _ => cases read

theorem asFloat {x : Float} (bounded : document.Bounded) (read : document.asFloat = some x) :
    x.isFinite = true := by
  cases bounded with
  | whole least most =>
      cases read
      exact Decimal.isFinite_toFloat (by omega) _
  | real finite =>
      cases read
      exact finite
  | _ => cases read

theorem entries {entries : List (String × Document)} (bounded : document.Bounded)
    (found : document.entries = some entries) : ∀ entry ∈ entries, entry.2.Bounded := by
  cases bounded with
  | record all =>
      refine forall_mem_mapM (fun field member entry named => ?_) found
      obtain ⟨name, _, rfl⟩ := Option.map_eq_some_iff.mp named
      exact all field member
  | _ => cases found

theorem valuesOf {entries : List (String × Document)} (all : ∀ entry ∈ entries, entry.2.Bounded)
    (name : String) : ∀ value ∈ Document.valuesOf name entries, value.Bounded := by
  intro value member
  obtain ⟨entry, kept, rfl⟩ := List.mem_map.mp member
  exact all entry (List.mem_filter.mp kept).1

theorem valueOf {entries : List (String × Document)} (all : ∀ entry ∈ entries, entry.2.Bounded)
    {name : String} {value : Document} (found : Document.valueOf name entries = some (some value)) :
    value.Bounded := by
  unfold Document.valueOf at found
  split at found
  · cases found
  · next single =>
    cases found
    exact valuesOf all name value (by simp [single])
  · cases found

theorem fields {names : List String} {values : List (Option Document)} (bounded : document.Bounded)
    (found : document.fields names = some values) :
    ∀ value, some value ∈ values → value.Bounded := by
  intro value member
  cases bounded with
  | list all =>
      dsimp only [Document.fields] at found
      split at found
      · cases found
        obtain ⟨position, _, present⟩ := List.mem_map.mp member
        exact all value (List.mem_of_getElem? present)
      · cases found
  | @record fields all =>
      obtain ⟨entries, named, mapped⟩ := Option.bind_eq_some_iff.mp found
      have each := Bounded.entries (.record all) named
      have present : ∀ found ∈ values, ∀ value, found = some value → value.Bounded :=
        forall_mem_mapM (fun name _ found is value same => valueOf each (same ▸ is)) mapped
      exact present _ member value rfl
  | _ => cases found

theorem required {names : List String} {values : List Document} (bounded : document.Bounded)
    (found : document.required names = some values) : ∀ value ∈ values, value.Bounded := by
  obtain ⟨present, read, mapped⟩ := Option.bind_eq_some_iff.mp found
  exact forall_mem_mapM (fun item member value same => bounded.fields read value (same ▸ member))
    mapped

theorem untag {tag label : String} {rest : Document} (bounded : document.Bounded)
    (found : document.untag tag = some (label, rest)) : rest.Bounded := by
  cases bounded with
  | @list items all =>
      cases items with
      | nil => cases found
      | cons first items =>
          obtain ⟨value, _, made⟩ := Option.bind_eq_some_iff.mp found
          cases made
          exact .list (List.forall_mem_cons.mp all).2
  | @record fields all =>
      obtain ⟨entries, named, found⟩ := Option.bind_eq_some_iff.mp found
      obtain ⟨value, _, found⟩ := Option.bind_eq_some_iff.mp found
      obtain ⟨text, _, made⟩ := Option.bind_eq_some_iff.mp found
      cases made
      have each := Bounded.entries (.record all) named
      refine .record fun field member => ?_
      obtain ⟨entry, kept, rfl⟩ := List.mem_map.mp member
      exact each entry (List.mem_filter.mp kept).1
  | _ => cases found

end Bounded
end Document

/-! ## Operators -/

theorem Amplitude.isFinite_of_ofDocument? {document : Document} {z : Amplitude Float}
    (bounded : document.Bounded) (read : ofDocument? document = some z) :
    ∀ x ∈ z.parts, x.isFinite = true := by
  obtain ⟨parts, floats, made⟩ := Option.bind_eq_some_iff.mp read
  split at made
  · cases made
    exact bounded.asList floats fun item small x => small.asFloat
  · cases made

namespace Table

theorem isFinite_of_entries {entries : List (String × Document)}
    (all : ∀ entry ∈ entries, entry.2.Bounded) {lists : List (List (Amplitude Float))}
    (mapped : (Document.valuesOf "data" entries).mapM (Document.asList Amplitude.ofDocument?) =
      some lists)
    {cells : List (Amplitude Float)} (last : lists.getLast? = some cells) :
    ∀ z ∈ cells, ∀ x ∈ z.parts, x.isFinite = true := by
  have each : ∀ cells ∈ lists, ∀ z ∈ cells, ∀ x ∈ z.parts, x.isFinite = true :=
    Document.forall_mem_mapM (fun document member cells read =>
      (Document.Bounded.valuesOf all "data" document member).asList read
        fun item bounded z => Amplitude.isFinite_of_ofDocument? bounded) mapped
  exact each cells (List.mem_of_getLast? last)

variable {document : Document}

theorem isFinite_of_parts? {version rows cols : Nat} {cells : List (Amplitude Float)}
    (bounded : document.Bounded) (read : parts? document = some (version, (rows, cols), cells)) :
    ∀ z ∈ cells, ∀ x ∈ z.parts, x.isFinite = true := by
  unfold parts? at read
  dsimp only at read
  split at read
  · next first second third =>
    have all : ∀ entry ∈ [("v", first), ("dim", second), ("data", third)], entry.2.Bounded := by
      cases bounded with
      | list all => simpa using all
    simp only [Option.bind_eq_bind, Option.bind_none, Option.bind_some, Option.pure_def,
      Option.ite_none_left_eq_some, Option.bind_eq_some_iff, Option.some.injEq,
      Prod.mk.injEq] at read
    obtain ⟨_, _, _, _, _, _, lists, mapped, _, _, _, _, _, last, _, _, rfl⟩ := read
    exact isFinite_of_entries all mapped last
  · cases read
  · obtain ⟨entries, named, read⟩ := Option.bind_eq_some_iff.mp read
    simp only [Option.bind_eq_bind, Option.bind_none, Option.pure_def,
      Option.ite_none_left_eq_some, Option.bind_eq_some_iff, Option.some.injEq,
      Prod.mk.injEq] at read
    obtain ⟨_, _, _, _, _, _, lists, mapped, _, _, _, _, _, last, _, _, rfl⟩ := read
    exact isFinite_of_entries (bounded.entries named) mapped last

theorem ofDocument?_some {table : Table} (bounded : document.Bounded)
    (read : ofDocument? document = some table) :
    (∀ z ∈ table.cells, ∀ x ∈ z.parts, x.isFinite = true) ∧
      table.cells.length = table.rows * table.cols ∧
      product ([table.rows, table.cols].filter (· ≠ 0)) < 2 ^ 63 := by
  obtain ⟨⟨version, ⟨rows, cols⟩, cells⟩, parts, read⟩ := Option.bind_eq_some_iff.mp read
  dsimp only at read
  split at read
  · next filled =>
    cases read
    exact ⟨isFinite_of_parts? bounded parts, filled⟩
  · cases read

end Table

namespace Operator

variable {u : Operator Float}

/-- A table that fills its shape holds all entries of its operator. -/
theorem mem_of_ofTable {rows cols : Nat} {cells : List (Amplitude Float)}
    (made : ofTable rows cols cells = .ok u) (filled : cells.length = rows * cols) :
    u.dim = rows ∧ rows = cols ∧ ∀ z ∈ u.toList, z ∈ cells := by
  unfold ofTable at made
  split at made
  · next square =>
    cases made
    refine ⟨rfl, square, fun z member => ?_⟩
    obtain ⟨index, rfl⟩ := Array.mem_ofFn.mp (Array.mem_toList_iff.mp member)
    have within : index.val < cells.length := by
      rw [filled, ← square]
      exact index.isLt
    have place : index.val / rows * rows + index.val % rows = index.val :=
      Nat.div_add_mod' index.val rows
    have value : cells.toArray.getD (index.val / rows * rows + index.val % rows) 0 =
        cells[index.val] := by
      simp [place, within]
    dsimp only
    rw [value]
    exact List.getElem_mem within
  · cases made

theorem ofDocument?_some {document : Document} (bounded : document.Bounded)
    (read : ofDocument? document = some u) :
    (∀ x ∈ u.doubles, x.isFinite = true) ∧ u.dim * u.dim < 2 ^ 63 := by
  obtain ⟨table, parts, made⟩ := Option.bind_eq_some_iff.mp read
  obtain ⟨finite, filled, small⟩ := Table.ofDocument?_some bounded parts
  obtain ⟨dim, square, held⟩ := mem_of_ofTable (Outcome.toOption_eq_some_iff.mp made) filled
  refine ⟨fun x member => ?_, ?_⟩
  · obtain ⟨z, entry, part⟩ := List.mem_flatMap.mp member
    exact finite z (held z entry) x part
  · rw [← square, ← dim] at small
    by_cases zero : u.dim = 0
    · simp [zero]
    · simpa [zero, product] using small

end Operator

/-! ## Instructions -/

namespace Gate

/-- The doubles of the gate are finite, and its operator is a matrix that the machine can hold. -/
structure Storable (gate : Gate Float) : Prop where
  finite : ∀ x ∈ gate.doubles, x.isFinite = true
  operator : ∀ name u, gate = .unitary name u → u.dim * u.dim < 2 ^ 63

variable {gate : Gate Float} {document : Document}

theorem storable_of_ofFields? {tag : String} (bounded : document.Bounded)
    (read : ofFields? tag document = some gate) : gate.Storable := by
  have float {names : List String} {values : List Document}
      (found : document.required names = some values) :
      ∀ value ∈ values, ∀ x, value.asFloat = some x → x.isFinite = true :=
    fun value member x => (bounded.required found value member).asFloat
  unfold ofFields? at read
  split at read
  -- Gates without any number.
  case h_6 | h_7 | h_8 =>
    obtain ⟨_, _, rfl⟩ := Option.map_eq_some_iff.mp read
    exact ⟨by simp [doubles, params], by simp⟩
  -- Gates with a matrix of their own.
  case h_9 =>
    obtain ⟨values, found, read⟩ := Option.bind_eq_some_iff.mp read
    have all := bounded.required found
    split at read
    · obtain ⟨name, _, read⟩ := Option.bind_eq_some_iff.mp read
      obtain ⟨u, operator, made⟩ := Option.bind_eq_some_iff.mp read
      cases made
      obtain ⟨finite, small⟩ := Operator.ofDocument?_some (all _ (by simp)) operator
      refine ⟨finite, fun _ _ same => ?_⟩
      cases same
      exact small
    · cases read
  case h_10 => cases read
  -- Gates with angles, each of which is read from a field.
  all_goals
    obtain ⟨values, found, read⟩ := Option.bind_eq_some_iff.mp read
    have float := float found
    split at read
    · simp only [Option.bind_eq_bind, Option.bind_eq_some_iff, Option.pure_def,
        Option.some.injEq] at read
      simp only [List.forall_mem_cons] at float
      constructor
      · grind [doubles, params]
      · grind
    · cases read

theorem storable_of_ofDocument? {outer : Nat} (bounded : document.Bounded)
    (read : ofDocument? outer document = some gate) : gate.Storable := by
  unfold ofDocument? at read
  split at read
  · obtain ⟨⟨tag, fields⟩, untagged, made⟩ := Option.bind_eq_some_iff.mp read
    exact storable_of_ofFields? (bounded.untag untagged) made
  · cases read

end Gate

theorem Action.storable_of_ofDocument? {document : Document} {outer : Nat} {action : Action Float}
    (bounded : document.Bounded) (read : ofDocument? outer document = some action) :
    ∀ gate, action = .gate gate → gate.Storable := by
  rintro gate rfl
  unfold ofDocument? at read
  split at read
  · cases read
  · cases read
  · obtain ⟨made, decoded, same⟩ := Option.map_eq_some_iff.mp read
    cases same
    cases bounded with
    | record all => exact Gate.storable_of_ofDocument? (all _ (List.mem_singleton_self _)) decoded
  · cases read

theorem Document.asNat_lt {document : Document} {limit n : Nat}
    (read : document.asNat limit = some n) : n < limit := by
  unfold asNat at read
  split at read
  · split at read
    · next bounds =>
      cases read
      omega
    · cases read
  · cases read

theorem Document.asList_forall {α : Type} {good : α → Prop} {f : Document → Option α}
    {document : Document} {values : List α} (read : document.asList f = some values)
    (each : ∀ item value, f item = some value → good value) : ∀ value ∈ values, good value := by
  cases document with
  | list items => exact forall_mem_mapM (fun item _ => each item) read
  | _ => cases read

theorem Qudit.index_lt_of_asList {document : Document} {qudits : List Qudit}
    (read : document.asList ofDocument? = some qudits) :
    ∀ qudit ∈ qudits, qudit.index < limit :=
  Document.asList_forall read fun item qudit made => by
    obtain ⟨index, small, rfl⟩ := Option.map_eq_some_iff.mp made
    exact Document.asNat_lt small

theorem Controls.index_lt_of_ofDocument? {document : Document} {controls : Controls}
    (read : ofDocument? document = some controls) :
    ∀ qudit ∈ controls.qudits, qudit.index < Qudit.limit := by
  obtain ⟨values, _, read⟩ := Option.bind_eq_some_iff.mp read
  split at read
  · obtain ⟨qudits, positions, read⟩ := Option.bind_eq_some_iff.mp read
    obtain ⟨levels, _, made⟩ := Option.bind_eq_some_iff.mp read
    cases made
    exact Qudit.index_lt_of_asList positions
  · cases read

namespace Instruction

variable {document : Document} {instruction : Instruction Float}

theorem index_lt_of_controls? {document : Option Document} {controls : Option Controls}
    (read : controls? document = some controls) :
    ∀ qudit ∈ (controls.map Controls.qudits).getD [], qudit.index < Qudit.limit := by
  unfold controls? at read
  split at read
  · cases read
    exact List.forall_mem_nil _
  · cases read
    exact List.forall_mem_nil _
  · obtain ⟨present, made, rfl⟩ := Option.map_eq_some_iff.mp read
    exact Controls.index_lt_of_ofDocument? made

theorem ofDocument?_some {outer : Nat} (bounded : document.Bounded)
    (read : ofDocument? outer document = some instruction) :
    (∀ gate, instruction.action = .gate gate → gate.Storable) ∧
      ∀ qudit ∈ instruction.allQudits, qudit.index < Qudit.limit := by
  obtain ⟨values, found, read⟩ := Option.bind_eq_some_iff.mp read
  have all := bounded.fields found
  split at read
  · next kind targets controls =>
    obtain ⟨action, acts, read⟩ := Option.bind_eq_some_iff.mp read
    obtain ⟨qudits, positions, read⟩ := Option.bind_eq_some_iff.mp read
    obtain ⟨present, controlled, made⟩ := Option.bind_eq_some_iff.mp read
    cases made
    refine ⟨Action.storable_of_ofDocument? (all kind (by simp)) acts, ?_⟩
    exact List.forall_mem_append.mpr
      ⟨Qudit.index_lt_of_asList positions, index_lt_of_controls? controlled⟩
  · cases read

end Instruction

/-! ## Circuits -/

namespace Register

theorem ofDocument?_eq_some_iff {document : Document} {register : Register} :
    ofDocument? document = some register ↔ dims? document = some register.dims := by
  simp [ofDocument?, Option.bind_eq_some_iff, Outcome.toOption_eq_some_iff, ofDims_eq_ok_iff]

theorem dims_lt_of_dims? {document : Document} {dims : List Nat}
    (read : dims? document = some dims) : ∀ dim ∈ dims, dim < wordLimit :=
  Document.asList_forall read fun _ _ => Document.asNat_lt

end Register

namespace Circuit

variable {circuit : Circuit Float} {document : Document}

theorem ofDocument?_eq_some_iff : ofDocument? document = some circuit ↔
    ∃ name dims instructions,
      document.fields ["name", "dims", "instructions"] = some [some name, some dims, instructions] ∧
      name.asText = some circuit.name ∧ Register.dims? dims = some circuit.register.dims ∧
      instructions? instructions = some circuit.instructions := by
  simp only [← Register.ofDocument?_eq_some_iff]
  obtain ⟨name, register, instructions⟩ := circuit
  constructor
  · intro read
    obtain ⟨values, found, read⟩ := Option.bind_eq_some_iff.mp read
    split at read
    · simp only [Option.bind_eq_bind, Option.bind_eq_some_iff, Option.pure_def, Option.some.injEq,
        mk.injEq] at read
      obtain ⟨_, nameRead, _, registerRead, _, instructionsRead, rfl, rfl, rfl⟩ := read
      exact ⟨_, _, _, found, nameRead, registerRead, instructionsRead⟩
    · cases read
  · rintro ⟨_, _, _, found, nameRead, registerRead, instructionsRead⟩
    simp [ofDocument?, found, nameRead, registerRead, instructionsRead]

theorem representable_of_ofDocument? (bounded : document.Bounded)
    (decoded : ofDocument? document = some circuit) :
    circuit.Representable ∧ ∀ x ∈ circuit.doubles, x.isFinite = true := by
  obtain ⟨name, dims, listed, found, _, dimsRead, instructionsRead⟩ :=
    ofDocument?_eq_some_iff.mp decoded
  have each : ∀ instruction ∈ circuit.instructions,
      (∀ gate, instruction.action = .gate gate → gate.Storable) ∧
        ∀ qudit ∈ instruction.allQudits, qudit.index < Qudit.limit := by
    cases listed with
    | none =>
        rw [← Option.some.inj instructionsRead]
        exact List.forall_mem_nil _
    | some items =>
        exact (bounded.fields found items (by simp)).asList instructionsRead
          fun item small instruction => Instruction.ofDocument?_some small
  refine ⟨⟨Register.dims_lt_of_dims? dimsRead, fun instruction member => (each _ member).2,
    fun instruction member name u acts => ((each _ member).1 _ acts).operator name u rfl⟩, ?_⟩
  intro x member
  obtain ⟨instruction, inside, double⟩ := List.mem_flatMap.mp member
  cases acts : instruction.action with
  | measure => simp [Instruction.doubles, Instruction.gate?, acts] at double
  | gate gate =>
      rw [Instruction.doubles_of_gate acts] at double
      exact ((each _ inside).1 gate acts).finite x double

end Circuit
end QuditSynth
