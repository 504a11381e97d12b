import QuditSynth.Proofs.Document.Text
import QuditSynth.Register

namespace QuditSynth.Document

/-! # Values in documents

What is written as a number, a list or a record is read by the functions for
numbers, lists and records, and its text can be read if the texts of its parts
can.
-/

theorem asNat_ofNat {n limit : Nat} (small : n < limit) : (ofNat n).asNat limit = some n := by
  simp [ofNat, asNat, small]

theorem ofFloat_finite {x : Float} (finite : x.isFinite = true) : ofFloat x = .real x :=
  if_pos finite

theorem asFloat_ofFloat {x : Float} (finite : x.isFinite = true) :
    (ofFloat x).asFloat = some x := by
  rw [ofFloat_finite finite, asFloat]

theorem asList_ofList {α : Type} {write : α → Document} {read : Document → Option α}
    {items : List α} (back : ∀ item ∈ items, read (write item) = some item) :
    (ofList write items).asList read = some items := by
  rw [ofList, asList, List.mapM_map]
  induction items with
  | nil => rfl
  | cons item items ih =>
      rw [List.forall_mem_cons] at back
      simp [back.1, ih back.2]

@[simp] theorem entries_ofFields (fields : List (String × Document)) :
    (ofFields fields).entries = some fields := by
  rw [ofFields, entries, List.mapM_map]
  induction fields with
  | nil => rfl
  | cons field fields ih => simp_all

theorem valueOf_eq_lookup {α : Type} {fields : List (String × α)}
    (distinct : (fields.map Prod.fst).Nodup) (name : String) :
    valueOf name fields = some (fields.lookup name) := by
  have values : valuesOf name fields = (fields.lookup name).toList := by
    induction fields with
    | nil => rfl
    | cons field fields ih =>
        obtain ⟨other, value⟩ := field
        rw [List.map_cons, List.nodup_cons] at distinct
        by_cases same : other = name
        · subst same
          have none : fields.filter (·.1 = other) = [] := by
            rw [List.filter_eq_nil_iff]
            rintro ⟨again, second⟩ member found
            rw [decide_eq_true_eq] at found
            exact distinct.1 (List.mem_map.mpr ⟨(again, second), member, found⟩)
          simp [valuesOf, none]
        · have differs : (name == other) = false := by simp [Ne.symm same]
          rw [List.lookup_cons, differs, ← ih distinct.2]
          simp [valuesOf, same]
  rw [valueOf, values]
  cases fields.lookup name <;> rfl

/-- The fields of a record whose names are distinct. -/
theorem fields_ofFields {fields : List (String × Document)}
    (distinct : (fields.map Prod.fst).Nodup) (names : List String) :
    (ofFields fields).fields names = some (names.map fun name => fields.lookup name) := by
  have found : (fun name => valueOf name fields) = fun name => pure (fields.lookup name) :=
    funext (valueOf_eq_lookup distinct)
  change ((ofFields fields).entries >>= fun entries =>
    names.mapM fun name => valueOf name entries) = _
  rw [entries_ofFields, Option.bind_eq_bind, Option.bind_some, found, List.mapM_pure]
  rfl

theorem lookup_of_mem {α : Type} {fields : List (String × α)}
    (distinct : (fields.map Prod.fst).Nodup) {field : String × α} (member : field ∈ fields) :
    fields.lookup field.1 = some field.2 := by
  induction fields with
  | nil => cases member
  | cons first fields ih =>
      rw [List.map_cons, List.nodup_cons] at distinct
      rcases List.mem_cons.mp member with rfl | later
      · exact List.lookup_cons_self
      · have differs : field.1 ≠ first.1 := fun same =>
          distinct.1 (same ▸ List.mem_map_of_mem later)
        rw [List.lookup_cons, beq_false_of_ne differs]
        exact ih distinct.2 later

theorem required_ofFields {fields : List (String × Document)}
    (distinct : (fields.map Prod.fst).Nodup) :
    (ofFields fields).required (fields.map Prod.fst) = some (fields.map Prod.snd) := by
  have values : (fields.map Prod.fst).map (fun name => fields.lookup name) =
      fields.map (some ∘ Prod.snd) := by
    rw [List.map_map]
    exact List.map_congr_left fun field member => lookup_of_mem distinct member
  rw [required, fields_ofFields distinct, values, Option.bind_eq_bind, Option.bind_some,
    List.mapM_map]
  exact List.mapM_pure

theorem untag_ofFields {tag label : String} {fields : List (String × Document)}
    (absent : tag ∉ fields.map Prod.fst) :
    (ofFields ((tag, .text label) :: fields)).untag tag = some (label, ofFields fields) := by
  have others : fields.filter (·.1 = tag) = [] := by
    rw [List.filter_eq_nil_iff]
    rintro ⟨name, value⟩ member found
    rw [decide_eq_true_eq] at found
    exact absent (List.mem_map.mpr ⟨(name, value), member, found⟩)
  have kept : fields.filter (·.1 ≠ tag) = fields := by
    rw [List.filter_eq_self]
    rintro ⟨name, value⟩ member
    rw [decide_eq_true_eq]
    exact fun found => absent (List.mem_map.mpr ⟨(name, value), member, found⟩)
  change ((ofFields _).entries >>= fun entries => valueOf tag entries >>= fun value =>
    value.bind asText >>= fun label =>
      return (label, ofFields (entries.filter (·.1 ≠ tag)))) = _
  simp only [ne_eq, decide_not] at kept
  rw [entries_ofFields]
  simp [valueOf, valuesOf, others, kept, asText]

theorem allLegible_iff {items : List Document} :
    AllLegible items ↔ ∀ item ∈ items, item.Legible := by
  induction items with
  | nil => simp [AllLegible]
  | cons item items ih => simp [AllLegible, ih]

theorem legible_ofFields {fields : List (String × Document)} :
    (ofFields fields).Legible ↔ ∀ field ∈ fields, field.2.Legible := by
  rw [ofFields, Legible]
  induction fields with
  | nil => simp [AllFieldsLegible]
  | cons field fields ih => simp [AllFieldsLegible, ih]

theorem legible_ofList {α : Type} {write : α → Document} {items : List α} :
    (ofList write items).Legible ↔ ∀ item ∈ items, (write item).Legible := by
  simp [ofList, Legible, allLegible_iff]

theorem legible_ofNat {n : Nat} (small : n < wordLimit) : (ofNat n).Legible := by
  have : n < 2 ^ 64 := small
  simp only [ofNat, Legible]
  omega

theorem legible_ofFloat {x : Float} (back : ReadsBack x) : (ofFloat x).Legible := by
  unfold ofFloat
  split
  · exact back
  · trivial

/-- A document that can be held while it is read: all of it is readable, and it is not deeper than
the limit. -/
def Held (limit : Nat) (document : Document) : Prop :=
  document.isReadable = true ∧ document.depth ≤ limit

theorem held_ofNat (limit n : Nat) : (ofNat n).Held limit := ⟨rfl, Nat.zero_le _⟩

theorem held_text (limit : Nat) (value : String) : (text value).Held limit := ⟨rfl, Nat.zero_le _⟩

theorem held_ofFloat (limit : Nat) (x : Float) : (ofFloat x).Held limit := by
  unfold ofFloat
  split <;> exact ⟨rfl, Nat.zero_le _⟩

theorem held_list {limit : Nat} {items : List Document} (all : ∀ item ∈ items, item.Held limit) :
    (list items).Held (limit + 1) := by
  simp only [Held, isReadable, depth, Nat.add_le_add_iff_right] at all ⊢
  induction items with
  | nil => exact ⟨rfl, Nat.zero_le _⟩
  | cons item items ih =>
      obtain ⟨⟨readable, shallow⟩, others⟩ := List.forall_mem_cons.mp all
      obtain ⟨restReadable, restShallow⟩ := ih others
      exact ⟨by simp [allReadable, readable, restReadable], Nat.max_le.mpr ⟨shallow, restShallow⟩⟩

theorem held_ofList {α : Type} {limit : Nat} {write : α → Document} {items : List α}
    (all : ∀ item ∈ items, (write item).Held limit) : (ofList write items).Held (limit + 1) :=
  held_list (List.forall_mem_map.mpr all)

theorem held_ofFields {limit : Nat} {fields : List (String × Document)}
    (all : ∀ field ∈ fields, field.2.Held limit) : (ofFields fields).Held (limit + 1) := by
  simp only [Held, ofFields, isReadable, depth, Nat.add_le_add_iff_right] at all ⊢
  induction fields with
  | nil => exact ⟨rfl, Nat.zero_le _⟩
  | cons field fields ih =>
      obtain ⟨⟨readable, shallow⟩, others⟩ := List.forall_mem_cons.mp all
      obtain ⟨restReadable, restShallow⟩ := ih others
      exact ⟨by simpa [allFieldsReadable, readable] using restReadable,
        Nat.max_le.mpr ⟨shallow, restShallow⟩⟩

end QuditSynth.Document
