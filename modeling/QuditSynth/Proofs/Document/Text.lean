import Mathlib.Data.List.DropRight
import Mathlib.Data.List.Forall2
import QuditSynth.Proofs.Document.Scalars

namespace QuditSynth.Document

/-! # Documents as text

A document that is written out reads as the same document, however its lines are
broken. The text of every part is read with the fuel that its length affords.
-/

/-! ## Blanks -/

def Blank (chars : List Char) : Prop := ∀ c ∈ chars, isSpace c = true

theorem skipSpace_blank {blanks : List Char} (blank : Blank blanks) (chars : List Char) :
    skipSpace (blanks ++ chars) = skipSpace chars :=
  List.dropWhile_append_of_pos blank

theorem skipSpace_cons {c : Char} (visible : isSpace c = false) (chars : List Char) :
    skipSpace (c :: chars) = c :: chars :=
  List.dropWhile_cons_of_neg (by simp [visible])

theorem skipSpace_blank_cons {blanks : List Char} (blank : Blank blanks) {c : Char}
    (visible : isSpace c = false) (chars : List Char) :
    skipSpace (blanks ++ c :: chars) = c :: chars := by
  rw [skipSpace_blank blank, skipSpace_cons visible]

@[simp] theorem skipSpace_skipSpace (chars : List Char) :
    skipSpace (skipSpace chars) = skipSpace chars :=
  List.dropWhile_idempotent ..

theorem readValue_skipSpace (fuel : Nat) (chars : List Char) :
    readValue fuel (skipSpace chars) = readValue fuel chars := by
  cases fuel with
  | zero => rfl
  | succ fuel => rw [readValue, readValue, skipSpace_skipSpace]

theorem readItems_skipSpace (fuel : Nat) (chars : List Char) :
    readItems fuel (skipSpace chars) = readItems fuel chars := by
  cases fuel with
  | zero => rfl
  | succ fuel => rw [readItems, readItems, readValue_skipSpace]

theorem readFields_skipSpace (fuel : Nat) (chars : List Char) :
    readFields fuel (skipSpace chars) = readFields fuel chars := by
  cases fuel with
  | zero => rfl
  | succ fuel => rw [readFields, readFields, skipSpace_skipSpace]

theorem readValue_blank {blanks : List Char} (blank : Blank blanks) (fuel : Nat)
    (chars : List Char) : readValue fuel (blanks ++ chars) = readValue fuel chars := by
  rw [← readValue_skipSpace, skipSpace_blank blank, readValue_skipSpace]

theorem readItems_blank {blanks : List Char} (blank : Blank blanks) (fuel : Nat)
    (chars : List Char) : readItems fuel (blanks ++ chars) = readItems fuel chars := by
  rw [← readItems_skipSpace, skipSpace_blank blank, readItems_skipSpace]

theorem readFields_blank {blanks : List Char} (blank : Blank blanks) (fuel : Nat)
    (chars : List Char) : readFields fuel (blanks ++ chars) = readFields fuel chars := by
  rw [← readFields_skipSpace, skipSpace_blank blank, readFields_skipSpace]

/-- The lines break at blanks, and nothing but blanks follows a colon. -/
structure Layout.Neutral (layout : Layout) : Prop where
  lineBreak : ∀ depth, Blank (layout.lineBreak depth).toList
  colon : ∃ blanks, Blank blanks ∧ layout.colon.toList = ':' :: blanks

theorem neutral_spread : spread.Neutral where
  lineBreak := by
    intro depth c member
    have indent : ∀ width, ("".pushn ' ' width).toList = List.replicate width ' ' := by
      intro width
      rw [String.pushn_eq_repeat_push]
      induction width with
      | zero => rfl
      | succ width ih => rw [Nat.repeat, String.toList_push, ih, List.replicate_succ']
    simp only [spread, String.toList_append, indent, List.mem_append, List.mem_replicate] at member
    rcases member with lineFeed | ⟨_, rfl⟩
    · rw [List.mem_singleton.mp lineFeed]
      rfl
    · rfl
  colon := ⟨[' '], by simp [Blank, isSpace], by simp [spread]⟩

/-! ## Numbers among values -/

theorem Literal.head_of_read {chars rest : List Char} {literal : Literal}
    (accepted : Literal.read chars = some (literal, rest)) :
    ∃ c tail, chars = c :: tail ∧ (c = '-' ∨ (Numeral.digit? c).isSome = true) := by
  obtain ⟨unsigned, _, _, _, rfl, splits, some, _⟩ := read_eq_some_iff.mp accepted
  cases negative : literal.negative with
  | true => exact ⟨'-', unsigned, rfl, .inl rfl⟩
  | false =>
      obtain ⟨c, tail, rfl, digit⟩ := head_of_takeDigits splits some
      exact ⟨c, tail, rfl, .inr digit⟩

theorem Literal.skipSpace_of_read {chars rest : List Char} {literal : Literal}
    (accepted : Literal.read chars = some (literal, rest)) : skipSpace chars = chars := by
  obtain ⟨c, tail, rfl, first⟩ := head_of_read accepted
  apply skipSpace_cons
  by_contra blank
  simp only [isSpace, Bool.not_eq_false, Bool.or_eq_true, beq_iff_eq] at blank
  rcases blank with ((rfl | rfl) | rfl) | rfl <;> exact absurd first (by decide)

theorem readValue_literal {chars rest : List Char} {literal : Literal}
    (accepted : Literal.read (skipSpace chars) = some (literal, rest)) (fuel : Nat) :
    readValue (fuel + 1) chars = some (literal.toDocument, rest) := by
  obtain ⟨c, tail, spelled, first⟩ := Literal.head_of_read accepted
  rw [readValue]
  split
  case h_7 => rw [accepted]; rfl
  all_goals
    next same =>
    cases spelled.symm.trans same
    exact absurd first (by decide)

/-- A double whose text is read as that double. -/
def ReadsBack (x : Float) : Prop := parse (documentStyle.text x) = some (.real x, [])

theorem ReadsBack.literal {x : Float} (back : ReadsBack x) :
    ∃ literal, Literal.read (skipSpace (documentStyle.text x).toList) = some (literal, []) ∧
      literal.toDocument = .real x := by
  unfold ReadsBack parse at back
  rw [readValue] at back
  -- No other kind of value is a double.
  split at back
  case h_4 =>
    obtain ⟨⟨pieces, rest⟩, _, made⟩ := Option.bind_eq_some_iff.mp back
    cases text : Piece.text? pieces with
    | none => simp [text] at made
    | some value => simp [text] at made
  case h_5 =>
    split at back
    · cases back
    · obtain ⟨⟨items, rest⟩, _, made⟩ := Option.bind_eq_some_iff.mp back
      cases made
  case h_6 =>
    split at back
    · cases back
    · obtain ⟨⟨fields, rest⟩, _, made⟩ := Option.bind_eq_some_iff.mp back
      cases made
  case h_7 =>
    obtain ⟨⟨literal, rest⟩, accepted, made⟩ := Option.bind_eq_some_iff.mp back
    obtain ⟨value, rfl⟩ := Prod.mk.inj (Option.some.inj made)
    exact ⟨literal, accepted, value⟩
  all_goals cases back

/-! ## Texts of values -/

/-- A text that is read as a value, whatever comes after it. -/
structure Spells (text : List Char) (document : Document) : Prop where
  /-- The value could be the first item of a list. -/
  opens : ∃ c tail, skipSpace text = c :: tail ∧ c ≠ ']'
  reads : ∀ rest fuel, Delimited rest → 2 * text.length ≤ fuel →
    readValue fuel (text ++ rest) = some (document, rest)

theorem skipSpace_append {text tail : List Char} {c : Char} (opens : skipSpace text = c :: tail)
    (rest : List Char) : skipSpace (text ++ rest) = c :: tail ++ rest := by
  induction text with
  | nil => cases opens
  | cons d text ih =>
      cases blank : isSpace d with
      | true =>
          have skips (chars : List Char) : skipSpace (d :: chars) = skipSpace chars :=
            List.dropWhile_cons_of_pos blank
          rw [skips] at opens
          rw [List.cons_append, skips, ih opens]
      | false =>
          rw [skipSpace_cons blank] at opens
          rw [List.cons_append, skipSpace_cons blank, ← opens, List.cons_append]

theorem length_pos_of_opens {text tail : List Char} {c : Char}
    (opens : skipSpace text = c :: tail) : 0 < text.length := by
  cases text with
  | nil => cases opens
  | cons d text => exact Nat.succ_pos _

theorem spells_literal {text : List Char} {literal : Literal} {document : Document}
    (accepted : Literal.read (skipSpace text) = some (literal, []))
    (value : literal.toDocument = document) : Spells text document := by
  obtain ⟨c, tail, opens, first⟩ := Literal.head_of_read accepted
  refine ⟨⟨c, tail, opens, ?_⟩, ?_⟩
  · rintro rfl
    exact absurd first (by decide)
  · intro rest fuel delimited enough
    have positive := length_pos_of_opens opens
    obtain ⟨fuel, rfl⟩ : ∃ less, fuel = less + 1 := ⟨fuel - 1, by omega⟩
    rw [← value]
    apply readValue_literal
    rw [skipSpace_append opens, ← opens]
    exact Literal.read_append delimited accepted

/-- A text that starts with a letter or a mark of its own. -/
theorem spells_of_cons {c : Char} {tail : List Char} {document : Document}
    (visible : isSpace c = false) (other : c ≠ ']')
    (reads : ∀ rest fuel, 2 * tail.length + 1 ≤ fuel →
      readValue (fuel + 1) (c :: (tail ++ rest)) = some (document, rest)) :
    Spells (c :: tail) document := by
  refine ⟨⟨c, tail, skipSpace_cons visible tail, other⟩, ?_⟩
  intro rest fuel _ enough
  rw [List.length_cons] at enough
  obtain ⟨fuel, rfl⟩ : ∃ less, fuel = less + 1 := ⟨fuel - 1, by omega⟩
  exact reads rest fuel (by omega)

theorem spells_null : Spells "null".toList .null :=
  spells_of_cons rfl (by decide) fun rest fuel _ => rfl

theorem spells_bool (value : Bool) :
    Spells (if value then "true" else "false").toList (.bool value) := by
  cases value with
  | true => exact spells_of_cons rfl (by decide) fun rest fuel _ => rfl
  | false => exact spells_of_cons rfl (by decide) fun rest fuel _ => rfl

theorem spells_text (value : String) : Spells (quoted value).toList (.text value) := by
  have spelled := toList_quoted value []
  rw [List.append_nil] at spelled
  rw [spelled]
  refine spells_of_cons rfl (by decide) fun rest fuel _ => ?_
  obtain ⟨pieces, read, joined⟩ := readPieces_quoted value rest
  rw [List.append_assoc, List.singleton_append, readValue, skipSpace_cons rfl]
  simp [read, joined]

/-! ## Texts of containers -/

theorem delimited_blank {blanks rest : List Char} (blank : Blank blanks)
    (delimited : Delimited rest) : Delimited (blanks ++ rest) := by
  cases blanks with
  | nil => exact delimited
  | cons space blanks =>
      have visible := blank space List.mem_cons_self
      simp only [isSpace, Bool.or_eq_true, beq_iff_eq] at visible
      apply delimited_cons
      rcases visible with ((rfl | rfl) | rfl) | rfl <;> decide

/-- A reader of the parts of a container, each of which spells something: it reads one part, and
then stops at the closing bracket or goes on after a comma. -/
structure ReadsParts {α : Type} (spells : List Char → α → Prop) (closing : Char)
    (read : Nat → List Char → Option (List α × List Char)) : Prop where
  visible : isSpace closing = false
  delimited : Delimited [closing]
  opens : ∀ {text part}, spells text part → ∃ c tail, skipSpace text = c :: tail ∧ c ≠ closing
  blank : ∀ blanks fuel chars, Blank blanks → read fuel (blanks ++ chars) = read fuel chars
  last : ∀ {text part rest after fuel}, spells text part → Delimited rest → 2 * text.length ≤ fuel →
    skipSpace rest = closing :: after → read (fuel + 1) (text ++ rest) = some ([part], after)
  more : ∀ {text part rest after fuel parts left}, spells text part → Delimited rest →
    2 * text.length ≤ fuel → skipSpace rest = ',' :: after →
    read fuel after = some (parts, left) →
    read (fuel + 1) (text ++ rest) = some (part :: parts, left)

theorem ReadsParts.all {α : Type} {spells : List Char → α → Prop} {closing : Char}
    {read : Nat → List Char → Option (List α × List Char)} (reader : ReadsParts spells closing read)
    {texts : List (List Char)} {parts : List α} (spelled : List.Forall₂ spells texts parts)
    (nonempty : texts ≠ []) {breaks blanks rest : List Char} (broken : Blank breaks)
    (blank : Blank blanks) {fuel : Nat}
    (enough : 2 * ((',' :: breaks).intercalate texts).length + 1 ≤ fuel) :
    read fuel ((',' :: breaks).intercalate texts ++ (blanks ++ closing :: rest)) =
      some (parts, rest) := by
  induction spelled generalizing fuel with
  | nil => exact absurd rfl nonempty
  | cons first others ih =>
      obtain ⟨fuel, rfl⟩ : ∃ less, fuel = less + 1 := ⟨fuel - 1, by omega⟩
      cases others with
      | nil =>
          rw [List.intercalate_singleton] at enough ⊢
          have stop : Delimited (blanks ++ closing :: rest) :=
            delimited_blank blank (delimited_cons rest (reader.delimited closing rfl))
          exact reader.last first stop (by omega) (skipSpace_blank_cons blank reader.visible rest)
      | cons second others =>
          rw [List.intercalate_cons_cons] at enough ⊢
          simp only [List.length_append, List.length_cons] at enough
          simp only [List.append_assoc, List.cons_append]
          refine reader.more first (delimited_cons _ (by decide)) (by omega)
            (skipSpace_cons rfl _) ?_
          rw [reader.blank _ _ _ broken]
          exact ih (by simp) (by omega)

theorem readItems_readsParts : ReadsParts Spells ']' readItems where
  visible := rfl
  delimited := delimited_cons [] (by decide)
  opens spelled := spelled.opens
  blank _ fuel chars blank := readItems_blank blank fuel chars
  last spelled delimited enough close := by
    simp [readItems, spelled.reads _ _ delimited enough, close]
  more spelled delimited enough comma others := by
    simp [readItems, spelled.reads _ _ delimited enough, comma, others]

/-- A name, a colon and a value. -/
inductive SpellsField : List Char → Option String × Document → Prop
  | intro (name : String) {blanks text : List Char} {value : Document} (blank : Blank blanks)
      (spelled : Spells text value) :
      SpellsField ((quoted name).toList ++ ':' :: (blanks ++ text)) (some name, value)

theorem SpellsField.reads {text rest : List Char} {field : Option String × Document} {fuel : Nat}
    (spelled : SpellsField text field) (delimited : Delimited rest)
    (enough : 2 * text.length ≤ fuel) :
    ∃ pieces chars, text ++ rest = '"' :: chars ∧ Piece.text? pieces = field.1 ∧
      ∃ after, readPieces [] chars = some (pieces, ':' :: after) ∧
        readValue fuel after = some (field.2, rest) := by
  obtain ⟨name, blank, value⟩ := spelled
  next blanks text value =>
  simp only [List.length_append, List.length_cons] at enough
  obtain ⟨pieces, pieced, joined⟩ := readPieces_quoted name (':' :: (blanks ++ (text ++ rest)))
  refine ⟨pieces, _, ?_, joined, _, pieced, ?_⟩
  · rw [List.append_assoc, toList_quoted]
    simp
  · rw [readValue_blank blank]
    exact value.reads rest fuel delimited (by omega)

theorem readFields_readsParts : ReadsParts SpellsField '\x7d' readFields where
  visible := rfl
  delimited := delimited_cons [] (by decide)
  opens spelled := by
    obtain ⟨name, _, _⟩ := spelled
    rw [toList_quoted]
    exact ⟨'"', _, skipSpace_cons rfl _, by decide⟩
  blank _ fuel chars blank := readFields_blank blank fuel chars
  last spelled delimited enough close := by
    obtain ⟨pieces, chars, quoted, joined, after, pieced, value⟩ := spelled.reads delimited enough
    rw [quoted, readFields, skipSpace_cons rfl]
    simp [pieced, joined, skipSpace_cons, isSpace, value, close]
  more spelled delimited enough comma others := by
    obtain ⟨pieces, chars, quoted, joined, after, pieced, value⟩ := spelled.reads delimited enough
    rw [quoted, readFields, skipSpace_cons rfl]
    simp [pieced, joined, skipSpace_cons, isSpace, value, comma, others]

theorem readValue_list {fuel : Nat} {chars rest : List Char} {items : List Document}
    (opens : ∃ c tail, skipSpace chars = c :: tail ∧ c ≠ ']')
    (read : readItems fuel chars = some (items, rest)) :
    readValue (fuel + 1) ('[' :: chars) = some (.list items, rest) := by
  obtain ⟨c, tail, first, other⟩ := opens
  have same : readItems fuel (c :: tail) = some (items, rest) := by
    rw [← first, readItems_skipSpace, read]
  rw [readValue, skipSpace_cons rfl]
  simp [first, other, same]

theorem readValue_record {fuel : Nat} {chars rest : List Char}
    {fields : List (Option String × Document)}
    (opens : ∃ c tail, skipSpace chars = c :: tail ∧ c ≠ '\x7d')
    (read : readFields fuel chars = some (fields, rest)) :
    readValue (fuel + 1) ('\x7b' :: chars) = some (.record fields, rest) := by
  obtain ⟨c, tail, first, other⟩ := opens
  have same : readFields fuel (c :: tail) = some (fields, rest) := by
    rw [← first, readFields_skipSpace, read]
  rw [readValue, skipSpace_cons rfl]
  simp [first, other, same]

theorem toList_enclose (layout : Layout) (depth : Nat) (opening closing part : String)
    (parts : List String) :
    (layout.enclose depth opening closing (part :: parts)).toList = opening.toList ++
      ((layout.lineBreak (depth + 1)).toList ++
        ((',' :: (layout.lineBreak (depth + 1)).toList).intercalate
            ((part :: parts).map String.toList) ++
          ((layout.lineBreak depth).toList ++ closing.toList))) := by
  simp [Layout.enclose]

/-- What a text starts with, after blanks, is what its first part starts with. -/
theorem skipSpace_intercalate {blanks text tail : List Char} (blank : Blank blanks) {c : Char}
    (opens : skipSpace text = c :: tail) (comma : List Char) (texts : List (List Char))
    (rest : List Char) :
    ∃ more, skipSpace (blanks ++ (comma.intercalate (text :: texts) ++ rest)) = c :: more := by
  rw [skipSpace_blank blank]
  cases texts with
  | nil =>
      rw [List.intercalate_singleton]
      exact ⟨_, skipSpace_append opens rest⟩
  | cons second texts =>
      rw [List.intercalate_cons_cons, List.append_assoc, List.append_assoc]
      exact ⟨_, skipSpace_append opens _⟩

/-- Parts that are read between brackets spell the value made of them. -/
theorem ReadsParts.spells_enclose {α : Type} {spells : List Char → α → Prop}
    (first : Char) {last : Char} {read : Nat → List Char → Option (List α × List Char)}
    (reader : ReadsParts spells last read) {layout : Layout} (neutral : layout.Neutral)
    (depth : Nat) {opening closing : String} (openingIs : opening.toList = [first])
    (closingIs : closing.toList = [last]) (visible : isSpace first = false) (other : first ≠ ']')
    {value : List α → Document}
    (none : ∀ fuel rest, readValue (fuel + 1) (first :: last :: rest) = some (value [], rest))
    (some : ∀ {fuel chars parts rest}, (∃ c tail, skipSpace chars = c :: tail ∧ c ≠ last) →
      read fuel chars = .some (parts, rest) →
      readValue (fuel + 1) (first :: chars) = .some (value parts, rest))
    {texts : List String} {parts : List α}
    (spelled : List.Forall₂ spells (texts.map String.toList) parts) :
    Spells (layout.enclose depth opening closing texts).toList (value parts) := by
  cases texts with
  | nil =>
      cases spelled
      rw [Layout.enclose, String.toList_append, openingIs, closingIs]
      exact spells_of_cons visible other fun rest fuel _ => none fuel rest
  | cons text texts =>
      rw [toList_enclose, openingIs, closingIs, List.singleton_append]
      refine spells_of_cons visible other fun rest fuel enough => ?_
      simp only [List.length_append] at enough
      simp only [List.append_assoc, List.singleton_append]
      apply some
      · cases spelled with
        | cons begun others =>
            obtain ⟨c, tail, opens, differs⟩ := reader.opens begun
            obtain ⟨more, started⟩ := skipSpace_intercalate (neutral.lineBreak (depth + 1)) opens
              (',' :: (layout.lineBreak (depth + 1)).toList) (texts.map String.toList)
              ((layout.lineBreak depth).toList ++ last :: rest)
            exact ⟨c, more, started, differs⟩
      · rw [reader.blank _ _ _ (neutral.lineBreak (depth + 1))]
        exact reader.all spelled (by simp) (neutral.lineBreak (depth + 1))
          (neutral.lineBreak depth) (by omega)

theorem spells_list {layout : Layout} (neutral : layout.Neutral) (depth : Nat) {texts : List String}
    {items : List Document} (spelled : List.Forall₂ Spells (texts.map String.toList) items) :
    Spells (layout.enclose depth "[" "]" texts).toList (.list items) :=
  readItems_readsParts.spells_enclose '[' neutral depth rfl rfl rfl (by decide)
    (fun _ _ => rfl) readValue_list spelled

theorem spells_record {layout : Layout} (neutral : layout.Neutral) (depth : Nat)
    {texts : List String} {fields : List (Option String × Document)}
    (spelled : List.Forall₂ SpellsField (texts.map String.toList) fields) :
    Spells (layout.enclose depth "\x7b" "\x7d" texts).toList (.record fields) :=
  readFields_readsParts.spells_enclose '\x7b' neutral depth rfl rfl rfl (by decide)
    (fun _ _ => rfl) readValue_record spelled

/-! ## Legible documents -/

mutual

/-- Every scalar of the document has a text that reads as the scalar, and every field has a
name. -/
def Legible : Document → Prop
  | .whole value => -2 ^ 63 ≤ value ∧ value < 2 ^ 64
  | .real value => ReadsBack value
  | .list items => AllLegible items
  | .record fields => AllFieldsLegible fields
  | .unreadable => False
  | .null | .bool _ | .text _ => True

def AllLegible : List Document → Prop
  | [] => True
  | item :: rest => item.Legible ∧ AllLegible rest

def AllFieldsLegible : List (Option String × Document) → Prop
  | [] => True
  | (name, value) :: rest => name.isSome = true ∧ value.Legible ∧ AllFieldsLegible rest

end

mutual

theorem spells_render {layout : Layout} (neutral : layout.Neutral) (depth : Nat) :
    ∀ document : Document, document.Legible → Spells (render layout depth document).toList document
  | .null, _ => spells_null
  | .bool value, _ => spells_bool value
  | .whole value, legible => by
      obtain ⟨literal, accepted, same⟩ := Literal.read_whole legible.1 legible.2
      rw [← Literal.skipSpace_of_read accepted] at accepted
      exact spells_literal accepted same
  | .real value, legible => by
      obtain ⟨literal, accepted, same⟩ := ReadsBack.literal legible
      exact spells_literal accepted same
  | .text value, _ => spells_text value
  | .list items, legible =>
      spells_list neutral depth (spells_renderItems neutral (depth + 1) items legible)
  | .record fields, legible =>
      spells_record neutral depth (spells_renderFields neutral (depth + 1) fields legible)

theorem spells_renderItems {layout : Layout} (neutral : layout.Neutral) (depth : Nat) :
    ∀ items : List Document, AllLegible items →
      List.Forall₂ Spells ((renderItems layout depth items).map String.toList) items
  | [], _ => .nil
  | item :: rest, legible =>
      .cons (spells_render neutral depth item legible.1)
        (spells_renderItems neutral depth rest legible.2)

theorem spells_renderFields {layout : Layout} (neutral : layout.Neutral) (depth : Nat) :
    ∀ fields : List (Option String × Document), AllFieldsLegible fields →
      List.Forall₂ SpellsField ((renderFields layout depth fields).map String.toList) fields
  | [], _ => .nil
  | (some name, value) :: rest, legible => by
      obtain ⟨blanks, blank, colon⟩ := neutral.colon
      have field := SpellsField.intro name blank (spells_render neutral depth value legible.2.1)
      refine .cons ?_ (spells_renderFields neutral depth rest legible.2.2)
      simpa [colon] using field

end

/-- A document is read back from its text. -/
theorem parse_render {layout : Layout} (neutral : layout.Neutral) (depth : Nat)
    {document : Document} (legible : document.Legible) :
    parse (document.render layout depth) = some (document, []) := by
  have reads := (spells_render neutral depth document legible).reads [] _ delimited_nil
    (Nat.le_add_right _ 2)
  rwa [List.append_nil] at reads

end QuditSynth.Document
