import RulesText.Describe.Phrase
import RulesText.Proofs.GatedEffects

/-!
# Conditions on a counter

A condition asks for a counter by its tag. The operand is read without a look at the kind of the
condition, so a tag that spells an affinity is taken for the affinity: the condition then asks for
counters as such, whatever vocabulary the tag was meant for. Under every other tag the condition
that is read is the one that is built for the counter of that tag.
-/

namespace RulesText.Json

/-! ## Passing over what has a text -/

theorem SpellsQuoted.closed {quoted : Quoted} {text : List Char}
    (spelled : SpellsQuoted quoted text) : quoted.ending = .closed :=
  closed_of_scanQuoted (spelled [' ']) (List.cons_ne_nil _ _)

/-- What has a text can be passed over. -/
theorem Doc.skim_of_spells {doc : Doc} {text : List Char} (spelled : Spells doc text) :
    doc.skim = .ok () := by
  match doc with
  | .null | .bool _ | .number _ => rfl
  | .string quoted =>
    cases spelled with
    | string inside => exact (skim_string_iff quoted).2 inside.closed
  | .array items ending =>
    obtain ⟨rfl, each⟩ := exists_spells_array_iff.1 ⟨text, spelled⟩
    refine skim_array_iff.2 ⟨fun item listed => ?_, rfl⟩
    obtain ⟨_, first⟩ := each item listed
    exact skim_of_spells first
  | .object members ending =>
    obtain ⟨rfl, each⟩ := exists_spells_object_iff.1 ⟨text, spelled⟩
    refine skim_object_iff.2 ⟨fun (key, value) listed => ?_, rfl⟩
    obtain ⟨⟨_, named⟩, _, first⟩ := each (key, value) listed
    exact ⟨named.closed, skim_of_spells first⟩
  | .deep _ => cases spelled
  | .broken _ => cases spelled
termination_by sizeOf doc
decreasing_by
  all_goals
    have smaller := List.sizeOf_lt_of_mem listed
    simp_all
    omega

/-- The members of an object with a text stand behind closed keys and can be passed over. -/
theorem Doc.IsText.members {members : List (Quoted × Doc)} {ending : ObjectEnd} {text : String}
    (spelled : IsText (.object members ending) text) :
    ∀ member ∈ members, member.1.ending = .closed ∧ member.2.skim = .ok () := by
  obtain ⟨_, _, _, _, inside, _⟩ := spelled
  exact (skim_object_iff.1 (skim_of_spells inside)).1

end RulesText.Json

namespace RulesText
open Describe Format Json

/-! ## Spellings -/

namespace Format

variable {κ : Type} [Vocabulary κ] {tag : String}

theorem Vocabulary.find?_eq_none_iff :
    (find? tag : Option κ) = none ↔ ∀ w : κ, spelling w ≠ tag := by
  rw [find?, List.find?_eq_none]
  constructor
  · intro none w same
    exact none w (mem_words w) (by simp [same])
  · intro other w _ same
    exact other w (by simpa using same)

theorem OpenTag.ofString_spelling (w : κ) : ofString (Vocabulary.spelling w) = .known w := by
  rw [ofString, Vocabulary.find?_spelling]

theorem OpenTag.ofString_of_unspelled (other : ∀ w : κ, Vocabulary.spelling w ≠ tag) :
    (ofString tag : OpenTag κ) = .unknown tag :=
  (ofString_eq_unknown_iff tag).2 (Vocabulary.find?_eq_none_iff.2 other)

end Format

/-! ## Operands that are strings -/

section

variable {quoted : Quoted} {tag : String} (spelled : quoted.value = .ok tag)
include spelled

theorem tag?_string {κ : Type} [Vocabulary κ] :
    (tag? (.string quoted) : Option (OpenTag κ)) = some (.ofString tag) := by
  simp only [tag?, word?, string?, spelled, OpenTag.ofString]
  cases found : (Vocabulary.find? tag : Option κ) <;> simp [Except.toOption, found]

/-- The tag of a string alone. -/
theorem openTag_string {κ : Type} [Vocabulary κ] (type : String) (source : Source) :
    (openTag type : Reader (OpenTag κ)) source (.string quoted) = .ok (.ofString tag) := by
  have checked : (Doc.string quoted).check = .ok () := discard_eq_ok_iff.2 ⟨tag, spelled⟩
  simp only [openTag, alternatives, checked, tag?_string spelled]
  rfl

/-- A string is an affinity if it spells one, and the counter of its tag otherwise. -/
theorem Operand.ofDoc?_string :
    ofDoc? (.string quoted) = some (resolve (.counter (.unknown tag))) := by
  have noNumber : number? (.string quoted) = none := by
    simp only [number?, int32, integer, Doc.mismatch, Doc.found, spelled]
    rfl
  have element : (word? (.string quoted) : Option Affinity) = Vocabulary.find? tag := by
    simp only [word?, spelled]
    rfl
  rw [ofDoc?, noNumber, element, tag?_string spelled]
  cases found : (Vocabulary.find? tag : Option Affinity) with
  | none => simp [resolve_counter found]
  | some w => simp [resolve_affinity found]

theorem Operand.read_string (source : Source) :
    Operand.read source (.string quoted) = .ok (resolve (.counter (.unknown tag))) := by
  have checked : (Doc.string quoted).check = .ok () := discard_eq_ok_iff.2 ⟨tag, spelled⟩
  simp only [Operand.read, alternatives, checked, Operand.ofDoc?_string spelled]
  rfl

end

/-! ## Conditions with a tag for an operand -/

theorem Format.Shape.probe?_eq_none {α : Type} {shape : Shape α} {source : Source} {name : String}
    (unknown : name ∉ shape.names) : shape.probe? source name = none := by
  induction shape with
  | value a => rfl
  | member field rest ih =>
    rw [Shape.names, List.mem_cons, not_or] at unknown
    rw [Shape.probe?, if_neg (Ne.symm unknown.1)]
    exact ih unknown.2

/-- Members pass a record that passes over what it does not know, if each of its places is empty or
is filled once with a value that fits, and all others can be passed over. -/
theorem Format.Record.passes_of_slots {α : Type} {record : Record α} {source : Source}
    {members : List (Quoted × Doc)} (lenient : record.lenient = true)
    (distinct : record.shape.names.Nodup)
    (named : ∀ member ∈ members, ∃ name, member.1.value = .ok name)
    (whole : ∀ member ∈ members, member.2.skim = .ok ())
    (filled : ∀ slot ∈ record.shape.slots source, valuesOf members slot.name = [] ∨
      ∃ doc, valuesOf members slot.name = [doc] ∧ slot.Takes doc) :
    record.Passes source [] members := by
  refine ⟨fun (key, value) listed => ?_, fun name own => ?_⟩
  · obtain ⟨name, behind⟩ := named (key, value) listed
    refine ⟨name, behind, .inr lenient, ?_⟩
    have among : value ∈ valuesOf members name := mem_valuesOf_iff.2 ⟨key, listed, behind⟩
    by_cases own : name ∈ record.shape.names
    · obtain ⟨slot, place, rfl⟩ := (Shape.mem_names_iff source).1 own
      refine (Record.inspectValue_slot distinct place value).2 ?_
      rcases filled slot place with none | ⟨doc, single, takes⟩
      · rw [none] at among
        cases among
      · rw [single] at among
        rw [List.mem_singleton.1 among]
        exact takes
    · rw [Record.inspectValue, Shape.probe?_eq_none own]
      exact whole (key, value) listed
  · obtain ⟨slot, place, rfl⟩ := (Shape.mem_names_iff source).1 own
    rcases filled slot place with none | ⟨doc, single, _⟩
    · simp [none]
    · simp [single]

section

variable {members : List (Quoted × Doc)} {kind quoted : Quoted} {tag : String}

/-- An object with a kind and a tag, and perhaps members that a condition does not know, is read as
the condition of that kind with the operand that the tag is taken for. -/
theorem Condition.read_object (source : Source) {w : ConditionKind}
    (typed : valuesOf members "type" = [.string kind])
    (spelled : kind.value = .ok w.spelling)
    (valued : valuesOf members "value" = [.string quoted])
    (spelled' : quoted.value = .ok tag)
    (uncompared : valuesOf members "comparison" = [])
    (named : ∀ member ∈ members, ∃ name, member.1.value = .ok name)
    (whole : ∀ member ∈ members, member.2.skim = .ok ()) :
    Condition.read source (.object members .closed) =
      .ok { kind := w, operand := some (Operand.resolve (.counter (.unknown tag))) } := by
  have readKind : ConditionKind.read source (.string kind) = .ok w := by
    cases source <;> exact find_value_eq_ok_iff.2 spelled
  have readOperand : nullable Operand.read source (.string quoted) =
      .ok (some (Operand.resolve (.counter (.unknown tag)))) := by
    simp only [nullable, Operand.read_string spelled' source]
    rfl
  refine Record.ofMembers_eq_ok_iff.2
    ⟨rfl, Record.passes_of_slots rfl (by decide) named whole ?_, ?_⟩
  · intro slot place
    have places : Condition.record.shape.slots source =
      [Field.slot ⟨"type", ConditionKind.read, none⟩ source,
        Field.slot ⟨"value", nullable Operand.read, some none⟩ source,
        Field.slot ⟨"comparison", nullable Comparison.read, some none⟩ source] := rfl
    simp only [places, List.mem_cons, List.not_mem_nil, or_false] at place
    rcases place with rfl | rfl | rfl
    · exact .inr ⟨_, typed, w, readKind⟩
    · exact .inr ⟨_, valued, _, readOperand⟩
    · exact .inl uncompared
  · have kindFound : lookup members "type" = some (.string kind) := by
      rw [lookup_eq_head?, typed]
      rfl
    have tagFound : lookup members "value" = some (.string quoted) := by
      rw [lookup_eq_head?, valued]
      rfl
    have comparisonMissing : lookup members "comparison" = none := by
      rw [lookup_eq_head?, uncompared]
      rfl
    have gathered : (Condition.mk <$> Shape.required "type" ConditionKind.read).gather source
        (lookup members) = .ok (Condition.mk w) := by
      refine (Shape.gather_map source _ _ _).trans ?_
      simp only [Shape.required, Shape.gather, kindFound, Field.take, readKind]
      rfl
    refine Shape.gather_optional_eq_ok_iff.2 ⟨_, Shape.gather_optional_eq_ok_iff.2
      ⟨_, gathered, _, ?_, rfl⟩, none, ?_, rfl⟩
    · rw [tagFound]
      exact readOperand
    · rw [comparisonMissing]
      rfl

/-- Every text of an object with the kind `has-counter` and a tag, and perhaps members that a
condition does not know, is read as the condition on the counter that the tag itself is read as,
unless the tag spells an affinity. The condition is rendered with the name of the counter, which is
the tag where the vocabulary does not have it. A tag that spells an affinity is that affinity
instead, and the condition asks for counters of any kind. -/
theorem counterCondition_reads
    (typed : valuesOf members "type" = [.string kind])
    (spelled : kind.value = .ok "has-counter")
    (valued : valuesOf members "value" = [.string quoted])
    (spelled' : quoted.value = .ok tag)
    (uncompared : valuesOf members "comparison" = [])
    (named : ∀ member ∈ members, ∃ name, member.1.value = .ok name)
    {text alone : String} (isText : Doc.IsText (.object members .closed) text)
    (isText' : Doc.IsText (.string quoted) alone) :
    ∃ counter, Counter.read.ofText alone = .ok counter ∧
      (∀ marker : Marker, marker.spelling = tag → counter.displayName = marker.displayName) ∧
      ((∀ marker : Marker, marker.spelling ≠ tag) → counter.displayName = tag) ∧
      ((∀ element : Affinity, element.spelling ≠ tag) →
        Condition.read.ofText text = .ok (.hasCounter counter) ∧
          conditionPhrase (some (.hasCounter counter)) =
            pure ("if it has a " ++ counter.displayName ++ " counter")) ∧
      (∀ element : Affinity, element.spelling = tag →
        let condition := (Condition.hasCounter counter).withOperand (.affinity element)
        Condition.read.ofText text = .ok condition ∧
          conditionPhrase (some condition) = pure "if it has counters") := by
  have limited : (Doc.object members .closed).limitDepth Doc.maxDepth =
      .object (Doc.limitMembers (Doc.maxDepth - 1) members) .closed := rfl
  have read : Condition.read.ofText text =
      .ok { kind := .hasCounter, operand := some (Operand.resolve (.counter (.unknown tag))) } := by
    rw [isText.ofText, limited]
    have kindRead : kind.value = .ok ConditionKind.hasCounter.spelling := spelled
    refine Condition.read_object .text ?_ kindRead ?_ spelled' ?_ ?_ ?_
    · rw [valuesOf_limitMembers, typed]
      rfl
    · rw [valuesOf_limitMembers, valued]
      rfl
    · rw [valuesOf_limitMembers, uncompared]
      rfl
    · rw [Doc.limitMembers_eq_map, List.forall_mem_map]
      exact named
    · rw [Doc.limitMembers_eq_map, List.forall_mem_map]
      intro member listed
      rw [Doc.skim_limitDepth]
      exact (isText.members member listed).2
  refine ⟨.ofString tag, ?_, ?_, ?_, fun other => ?_, ?_⟩
  · rw [isText'.ofText]
    exact openTag_string spelled' _ _
  · rintro marker rfl
    exact congrArg Counter.displayName (OpenTag.ofString_spelling marker)
  · intro other
    rw [OpenTag.ofString_of_unspelled other]
    rfl
  · have unfound : (Vocabulary.find? tag : Option Affinity) = none :=
      Vocabulary.find?_eq_none_iff.2 other
    rw [read, Operand.resolve_counter unfound]
    exact ⟨rfl, rfl⟩
  · rintro element rfl
    have taken : Operand.resolve (.counter (.unknown element.spelling)) = .affinity element :=
      Operand.resolve_affinity (Vocabulary.find?_spelling element)
    rw [read, taken]
    exact ⟨rfl, rfl⟩

end

theorem named_memberDocs (members : List (String × Json)) :
    ∀ member ∈ memberDocs members, ∃ name, member.1.value = .ok name := by
  induction members with
  | nil => simp [memberDocs]
  | cons member members ih =>
    rw [memberDocs, List.forall_mem_cons]
    exact ⟨⟨member.1, Quoted.value_ofText member.1⟩, ih⟩

/-- A counter of a newer vocabulary, in a text with a member that a condition does not know, and a
tag that spells an affinity. -/
theorem frost_reads :
    let frost := "\x7b\"value\":\"frost\",\"note\":[1],\"type\":\"has-counter\"\x7d"
    let fire := "\x7b\"type\":\"has-counter\",\"value\":\"fire\"\x7d"
    (Counter.read.ofText "\"frost\"" = .ok (.unknown "frost") ∧
      Condition.read.ofText frost = .ok (.hasCounter (.unknown "frost")) ∧
      conditionPhrase (some (.hasCounter (.unknown "frost"))) =
        pure "if it has a frost counter") ∧
    Condition.read.ofText fire =
      .ok { kind := .hasCounter, operand := some (.affinity .fire) } := by
  intro frost fire
  have spelled (text : String) : Doc.IsText (.string (.ofText text)) (Json.string text).compact :=
    (Fits.string text : Fits 0 (.string text)).isText_compact
  have fits : Fits 2 (.object [("value", .string "frost"), ("note", .array [.number (.int 1)]),
      ("type", .string "has-counter")]) := by
    refine .object ?_
    simp only [List.forall_mem_cons]
    refine ⟨.string _, .array ?_, .string _, by simp⟩
    simp only [List.forall_mem_cons]
    exact ⟨.int (by unfold InRange; decide), by simp⟩
  have fits' : Fits 1 (.object [("type", .string "has-counter"), ("value", .string "fire")]) :=
    .object (by simp [Fits.string])
  have kind : (Quoted.ofText "has-counter").value = .ok "has-counter" := Quoted.value_ofText _
  constructor
  · obtain ⟨counter, read, _, _, gated, _⟩ := counterCondition_reads (by rfl) kind (by rfl)
      (Quoted.value_ofText "frost") (by rfl) (named_memberDocs _) fits.isText_compact
      (spelled "frost")
    have newer : Counter.read.ofText "\"frost\"" = .ok (.unknown "frost") :=
      eq_ok_of_toOption (by decide +kernel)
    obtain rfl : counter = .unknown "frost" := Except.ok.inj (read.symm.trans newer)
    exact ⟨read, gated fun element => by cases element <;> decide⟩
  · obtain ⟨counter, _, _, _, _, taken⟩ := counterCondition_reads (by rfl) kind (by rfl)
      (Quoted.value_ofText "fire") (by rfl) (named_memberDocs _) fits'.isText_compact
      (spelled "fire")
    exact (taken .fire rfl).1

/-- A tag that spells an affinity is a counter where a counter is read, and the condition with that
tag does not ask for it. -/
theorem fire_is_no_counter :
    let text := "\x7b\"type\":\"has-counter\",\"value\":\"fire\"\x7d"
    ∃ condition counter, Condition.read.ofText text = .ok condition ∧
      Counter.read.ofText "\"fire\"" = .ok counter ∧ condition ≠ .hasCounter counter ∧
      (conditionPhrase (some condition)).value = "if it has counters" ∧
      (conditionPhrase (some (.hasCounter counter))).value = "if it has a fire counter" := by
  refine ⟨{ kind := .hasCounter, operand := some (.affinity .fire) }, .unknown "fire", ?_, ?_, ?_,
    rfl, rfl⟩
  · exact eq_ok_of_toOption (by decide +kernel)
  · exact eq_ok_of_toOption (by decide +kernel)
  · decide

end RulesText
