import QuditSynth.Document.Gate
import QuditSynth.Proofs.Document.Values
import QuditSynth.Proofs.Operator.Entry

namespace QuditSynth

/-! # Gates that are written and read

A gate is read from the document that it is written as, provided that its angles
and entries are finite and its levels and sizes fit in words.
-/

/-! ## Operators -/

namespace Amplitude

def parts (z : Amplitude Float) : List Float := [z.re, z.im]

variable {z : Amplitude Float}

theorem ofDocument?_toDocument (finite : ∀ x ∈ z.parts, x.isFinite = true) :
    ofDocument? z.toDocument = some z := by
  have reFinite := finite z.re (by simp [parts])
  have imFinite := finite z.im (by simp [parts])
  simp [ofDocument?, toDocument, Document.asList, Document.asFloat_ofFloat reFinite,
    Document.asFloat_ofFloat imFinite]

theorem legible_toDocument (back : ∀ x ∈ z.parts, Document.ReadsBack x) : z.toDocument.Legible := by
  have re := Document.legible_ofFloat (back z.re (by simp [parts]))
  have im := Document.legible_ofFloat (back z.im (by simp [parts]))
  simp [toDocument, Document.Legible, Document.AllLegible, re, im]

end Amplitude

theorem Table.parts?_ofFields {first second third : Document} {rows cols : Nat}
    {cells : List (Amplitude Float)} (one : first.asNat 256 = some version)
    (shape : shape? second = some (rows, cols))
    (filled : third.asList Amplitude.ofDocument? = some cells) :
    parts? (.ofFields [("v", first), ("dim", second), ("data", third)]) =
      some (version, (rows, cols), cells) := by
  simp [parts?, Document.ofFields, Document.entries, Document.valuesOf, one, shape, filled]

namespace Operator

/-- The real and imaginary parts of all entries. -/
def doubles (u : Operator Float) : List Float := u.toList.flatMap Amplitude.parts

variable {u : Operator Float}

theorem parts_of_mem {good : Float → Prop} (all : ∀ x ∈ u.doubles, good x) {z : Amplitude Float}
    (member : z ∈ u.toList) : ∀ x ∈ z.parts, good x :=
  fun x part => all x (List.mem_flatMap.mpr ⟨z, member, part⟩)

theorem ofTable_toList (u : Operator Float) : ofTable u.dim u.dim u.toList = .ok u := by
  rw [ofTable, if_pos rfl]
  refine congrArg Except.ok (eq_of_entries rfl fun row rowBound col colBound => ?_)
  rw [dim_ofFn] at rowBound colBound
  rw [entry_ofFn _ rowBound colBound, entry_eq_cell u row colBound]
  simp [toList]

theorem dim_lt_wordLimit (small : u.dim * u.dim < 2 ^ 63) : u.dim < wordLimit := by
  change u.dim < 2 ^ 64
  have := Nat.le_mul_self u.dim
  omega

theorem parts?_toDocument (small : u.dim * u.dim < 2 ^ 63)
    (finite : ∀ x ∈ u.doubles, x.isFinite = true) :
    Table.parts? u.toDocument = some (Table.version, (u.dim, u.dim), u.toList) := by
  have word := dim_lt_wordLimit small
  have version : (Document.ofNat Table.version).asNat 256 = some Table.version :=
    Document.asNat_ofNat (by decide)
  have shape : Table.shape? (.list [.ofNat u.dim, .ofNat u.dim]) = some (u.dim, u.dim) := by
    simp [Table.shape?, Document.asList, Document.asNat_ofNat word]
  have cells : (Document.ofList Amplitude.toDocument u.toList).asList Amplitude.ofDocument? =
      some u.toList :=
    Document.asList_ofList fun z member =>
      Amplitude.ofDocument?_toDocument (parts_of_mem finite member)
  exact Table.parts?_ofFields version shape cells

theorem ofDocument?_toDocument (small : u.dim * u.dim < 2 ^ 63)
    (finite : ∀ x ∈ u.doubles, x.isFinite = true) : ofDocument? u.toDocument = some u := by
  have sides : product ([u.dim, u.dim].filter (· ≠ 0)) < Nat.pow 2 63 := by
    by_cases zero : u.dim = 0
    · simp [zero, product]
    · simpa [zero, product] using small
  have filled : u.toList.length = u.dim * u.dim := by simp [toList, u.size_cells]
  simp only [ofDocument?, Table.ofDocument?, parts?_toDocument small finite, Option.bind_eq_bind,
    Option.bind_some, if_pos (And.intro filled sides)]
  rw [Option.pure_def, Option.bind_some, Table.operator, ofTable_toList]
  rfl

theorem legible_toDocument (small : u.dim * u.dim < 2 ^ 63)
    (back : ∀ x ∈ u.doubles, Document.ReadsBack x) : u.toDocument.Legible := by
  have side := Document.legible_ofNat (dim_lt_wordLimit small)
  have version : (Document.ofNat Table.version).Legible := Document.legible_ofNat (by decide)
  have cells : (Document.ofList Amplitude.toDocument u.toList).Legible :=
    Document.legible_ofList.mpr fun z member =>
      Amplitude.legible_toDocument (parts_of_mem back member)
  rw [toDocument, Document.legible_ofFields]
  simp [version, cells, Document.Legible, Document.AllLegible, side]

theorem held_toDocument (u : Operator Float) : u.toDocument.Held 3 := by
  have amplitude (z : Amplitude Float) : z.toDocument.Held 1 :=
    Document.held_list (by simp [Document.held_ofFloat])
  have cells := Document.held_ofList fun z (_ : z ∈ u.toList) => amplitude z
  have shape : (Document.list [.ofNat u.dim, .ofNat u.dim]).Held 2 :=
    Document.held_list (by simp [Document.held_ofNat])
  exact Document.held_ofFields (by simp [Document.held_ofNat, shape, cells])

end Operator

/-! ## Gates -/

namespace Gate

/-- All angles and entries. -/
def doubles : Gate Float → List Float
  | unitary _ operator => operator.doubles
  | gate => gate.params

/-- All levels that the gate names. -/
def levels {R : Type} : Gate R → List Nat
  | r _ _ a b | rz _ a b => [a, b]
  | virtRz _ level => [level]
  | cex control a b _ => [control, a, b]
  | ms _ | h | x | csum | unitary .. => []

/-- The numbers of the gate have the size of their types. -/
structure Sized {R : Type} (gate : Gate R) : Prop where
  levels : ∀ level ∈ gate.levels, level < wordLimit
  operator : ∀ name u, gate = .unitary name u → u.dim * u.dim < 2 ^ 63

variable {gate : Gate Float}

theorem distinct_toFields (gate : Gate Float) :
    ("gate" :: gate.toFields.map Prod.fst).Nodup := by
  cases gate <;> simp [toFields]

/-! The two kinds whose first field is not a double have their values as variables here: with the
values themselves, the reader would be evaluated when the proof is checked. -/

theorem ofFields?_cex {document first second third fourth : Document} {control a b : Nat}
    {phi : Float}
    (required : document.required ["ctrl_lev", "lev_a", "lev_b", "phi"] =
      some [first, second, third, fourth])
    (controlIs : level? first = some control) (aIs : level? second = some a)
    (bIs : level? third = some b) (phiIs : fourth.asFloat = some phi) :
    ofFields? "cex" document = some (.cex control a b phi) := by
  simp [ofFields?, required, controlIs, aIs, bIs, phiIs]

theorem ofFields?_unitary {document first second : Document} {name : String} {u : Operator Float}
    (required : document.required ["name", "matrix"] = some [first, second])
    (nameIs : first.asText = some name) (operatorIs : Operator.ofDocument? second = some u) :
    ofFields? "unitary" document = some (.unitary name u) := by
  simp [ofFields?, required, nameIs, operatorIs]

theorem ofFields?_toFields (sized : gate.Sized) (finite : ∀ x ∈ gate.doubles, x.isFinite = true) :
    ofFields? gate.tag (.ofFields gate.toFields) = some gate := by
  have level {n : Nat} (member : n ∈ gate.levels) : level? (.ofNat n) = some n :=
    Document.asNat_ofNat (sized.levels n member)
  have double {x : Float} (member : x ∈ gate.doubles) : (Document.ofFloat x).asFloat = some x :=
    Document.asFloat_ofFloat (finite x member)
  have required := Document.required_ofFields (List.nodup_cons.mp gate.distinct_toFields).2
  cases gate with
  | cex control a b phi =>
      exact ofFields?_cex required (level (by simp [levels])) (level (by simp [levels]))
        (level (by simp [levels])) (double (by simp [doubles, params]))
  | unitary name u =>
      exact ofFields?_unitary required rfl
        (Operator.ofDocument?_toDocument (sized.operator name u rfl) finite)
  | _ =>
      simp only [doubles, params, levels, List.mem_cons] at level double
      simp only [toFields, List.map_cons, List.map_nil] at required
      simp [ofFields?, tag, Gate.name, toFields, required, level, double]

theorem legible_toDocument (sized : gate.Sized)
    (back : ∀ x ∈ gate.doubles, Document.ReadsBack x) : gate.toDocument.Legible := by
  have level {n : Nat} (member : n ∈ gate.levels) : (Document.ofNat n).Legible :=
    Document.legible_ofNat (sized.levels n member)
  have double {x : Float} (member : x ∈ gate.doubles) : (Document.ofFloat x).Legible :=
    Document.legible_ofFloat (back x member)
  rw [toDocument, Document.legible_ofFields, List.forall_mem_cons]
  refine ⟨trivial, ?_⟩
  cases gate with
  | unitary name u =>
      have operator := Operator.legible_toDocument (sized.operator name u rfl) back
      simp [toFields, Document.Legible, operator]
  | _ =>
      simp only [doubles, params, levels, List.mem_cons] at level double
      simp [toFields, level, double]

theorem held_toDocument (gate : Gate Float) : gate.toDocument.Held 4 := by
  rw [toDocument]
  refine Document.held_ofFields (List.forall_mem_cons.mpr ⟨Document.held_text 3 _, ?_⟩)
  have number := Document.held_ofNat 3
  have double := Document.held_ofFloat 3
  cases gate with
  | unitary name u => simp [toFields, Document.held_text, u.held_toDocument]
  | _ => simp [toFields, number, double]

/-- A gate is read back at every depth at which circuits hold gates. -/
theorem ofDocument?_toDocument {outer : Nat} (shallow : outer + 4 ≤ depthLimit)
    (sized : gate.Sized) (finite : ∀ x ∈ gate.doubles, x.isFinite = true) :
    ofDocument? outer gate.toDocument = some gate := by
  obtain ⟨readable, depth⟩ := gate.held_toDocument
  have accepted : (gate.toDocument.isReadable &&
      decide (outer + gate.toDocument.depth ≤ depthLimit)) = true := by
    rw [readable, Bool.true_and, decide_eq_true_eq]
    omega
  rw [ofDocument?, if_pos accepted, toDocument,
    Document.untag_ofFields (List.nodup_cons.mp gate.distinct_toFields).1]
  exact ofFields?_toFields sized finite

end Gate
end QuditSynth
