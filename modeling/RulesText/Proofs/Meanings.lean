import RulesText.Proofs.CounterConditions
import RulesText.Proofs.Integers
import RulesText.Proofs.MemberOrder

/-!
# Values with several readings

An amount and the operand of a condition are taken in the first way that fits. What each document
means is said here without an order of trying: no document has two meanings, and a reader takes
exactly the documents that have one. Damage and healing have their keywords apart and everything
else in common.
-/

namespace RulesText.Json
open RulesText.Format

mutual

/-- A document that can be read completely has nothing in it that was cut off. -/
theorem Doc.limitDepth_of_check (doc : Doc) {room : Nat}
    (checked : (doc.limitDepth room).check = .ok ()) : doc.limitDepth room = doc := by
  match doc, room with
  | .array _ _, 0 | .object _ _, 0 => cases checked
  | .array items ending, room + 1 =>
    rw [limitDepth] at checked ⊢
    rw [limitItems_of_check items (check_array_iff.1 checked).1]
  | .object members ending, room + 1 =>
    rw [limitDepth] at checked ⊢
    rw [limitMembers_of_check members (check_object_iff.1 checked).1]
  | .null, _ | .bool _, _ | .number _, _ | .string _, _ | .deep _, _ | .broken _, _ => rfl

theorem Doc.limitItems_of_check (items : List Doc) {room : Nat}
    (checked : ∀ item ∈ limitItems room items, item.check = .ok ()) :
    limitItems room items = items := by
  match items with
  | [] => rfl
  | item :: items =>
    obtain ⟨first, others⟩ := List.forall_mem_cons.1 checked
    rw [limitItems, limitDepth_of_check item first, limitItems_of_check items others]

theorem Doc.limitMembers_of_check (members : List (Quoted × Doc)) {room : Nat}
    (checked : ∀ member ∈ limitMembers room members,
      (∃ name, member.1.value = .ok name) ∧ member.2.check = .ok ()) :
    limitMembers room members = members := by
  match members with
  | [] => rfl
  | (key, value) :: members =>
    obtain ⟨first, others⟩ := List.forall_mem_cons.1 checked
    rw [limitMembers, limitDepth_of_check value first.2, limitMembers_of_check members others]

end

end RulesText.Json

namespace RulesText.Format
open RulesText.Json

variable {α : Type}

/-! ## Readers and meanings -/

/-- Whether a reader takes exactly the documents with a meaning, each for its meaning: those that
can be read completely, wherever they are read from, and all texts of these. -/
structure Reader.Means (read : Reader α) (Meaning : Doc → α → Prop) : Prop where
  documents : ∀ source doc value, read source doc = .ok value ↔
    doc.check = .ok () ∧ Meaning doc value
  texts : ∀ text value, read.ofText text = .ok value ↔ ∃ doc, Doc.IsText doc text ∧
    (doc.limitDepth Doc.maxDepth).check = .ok () ∧ Meaning doc value

theorem Reader.Means.of_documents {read : Reader α} {Meaning : Doc → α → Prop}
    (documents : ∀ source doc value, read source doc = .ok value ↔
      doc.check = .ok () ∧ Meaning doc value) : read.Means Meaning := by
  refine ⟨documents, fun text value => ⟨fun done => ?_, ?_⟩⟩
  · have whole (doc : Doc) (value : α) (inner : read .text doc = .ok value) :
        doc.skim = .ok () := Doc.skim_of_check doc ((documents _ _ _).1 inner).1
    obtain ⟨doc, isText⟩ := Doc.exists_isText whole done
    rw [isText.ofText, documents] at done
    obtain ⟨checked, meant⟩ := done
    rw [doc.limitDepth_of_check checked] at meant
    exact ⟨doc, isText, checked, meant⟩
  · rintro ⟨doc, isText, checked, meant⟩
    rw [isText.ofText, documents, and_iff_right checked, doc.limitDepth_of_check checked]
    exact meant

/-- What is read from a text of a document is a meaning of that document. -/
theorem Reader.Means.of_text {read : Reader α} {Meaning : Doc → α → Prop}
    (means : read.Means Meaning) {doc : Doc} {text : String} (isText : Doc.IsText doc text)
    {value : α} : read.ofText text = .ok value ↔
      (doc.limitDepth Doc.maxDepth).check = .ok () ∧ Meaning doc value := by
  rw [isText.ofText, means.documents]
  refine and_congr_right fun checked => ?_
  rw [doc.limitDepth_of_check checked]

theorem toOption_eq_some_iff {result : Except Fault α} {value : α} :
    result.toOption = some value ↔ result = .ok value := by
  cases result <;> simp [Except.toOption]

theorem alternatives_eq_ok_iff {type : String} {read? : Doc → Option α} {source : Source}
    {doc : Doc} {value : α} : alternatives type read? source doc = .ok value ↔
      doc.check = .ok () ∧ read? doc = some value := by
  rw [alternatives, seq_eq_ok_iff]
  refine and_congr_right fun _ => ?_
  cases read? doc with
  | none => constructor <;> rintro ⟨⟩
  | some a =>
    constructor
    · rintro ⟨⟩
      rfl
    · rintro ⟨⟩
      rfl

/-! ## Words and tags -/

section

variable {κ : Type} [Vocabulary κ]

theorem Vocabulary.find?_eq_some_iff {tag : String} {w : κ} :
    find? tag = some w ↔ tag = spelling w := by
  constructor
  · exact fun found => (spelling_of_find? found).symm
  · rintro rfl
    exact find?_spelling w

theorem find?_value_eq_some_iff {quoted : Quoted} {w : κ} :
    quoted.value.toOption.bind Vocabulary.find? = some w ↔
      quoted.value = .ok (Vocabulary.spelling w) := by
  simp only [Option.bind_eq_some_iff, toOption_eq_some_iff, Vocabulary.find?_eq_some_iff,
    exists_eq_right]

/-- A word is taken from the documents that stand for it. -/
theorem word?_eq_some_iff {doc : Doc} (checked : doc.check = .ok ()) {w : κ} :
    word? doc = some w ↔ Denotes w doc := by
  constructor
  · intro spelled
    unfold word? at spelled
    split at spelled
    · exact .string (find?_value_eq_some_iff.1 spelled)
    · obtain rfl := (Doc.check_object_iff.1 checked).2
      exact .tag (find?_value_eq_some_iff.1 spelled)
    · cases spelled
  · intro denotes
    cases denotes with
    | string spelled => exact find?_value_eq_some_iff.2 spelled
    | tag spelled => exact find?_value_eq_some_iff.2 spelled

end

end RulesText.Format

namespace RulesText
open Format Json

/-! ## Amounts -/

/-- What an amount of damage or healing means: the number of an integer, the keyword of a string,
or the formula that is the only one of an object, whatever else stands in that. -/
inductive AmountForm.MeantBy : Doc → AmountForm → Prop
  | number {numeral : Numeral} {value : UInt32}
    (integer : numeral.integer? = some (value.toNat : Int)) :
    MeantBy (.number numeral) (.number value)
  | keyword {quoted : Quoted} {text : String} (spelled : quoted.value = .ok text) :
    MeantBy (.string quoted) (.keyword text)
  | computed {members : List (Quoted × Doc)} {ending : ObjectEnd} {inner : Doc} {formula : Formula}
    (single : valuesOf members "formula" = [inner])
    (spelled : Formula.read .text inner = .ok formula) :
    MeantBy (.object members ending) (.computed formula)

/-- What the operand of a condition means: the number of an integer, an affinity in either form of
a word, any other string as the counter of that tag, or a marker in the form of an object. -/
inductive Operand.MeantBy : Doc → Operand → Prop
  | number {numeral : Numeral} {value : Int32} (integer : numeral.integer? = some value.toInt) :
    MeantBy (.number numeral) (.number value)
  | affinity {doc : Doc} {element : Affinity} (denotes : Denotes element doc) :
    MeantBy doc (.affinity element)
  | tag {quoted : Quoted} {tag : String} (spelled : quoted.value = .ok tag)
    (other : ∀ element : Affinity, element.spelling ≠ tag) :
    MeantBy (.string quoted) (.counter (.ofString tag))
  | marker {key : Quoted} {marker : Marker} (spelled : key.value = .ok marker.spelling) :
    MeantBy (.object [(key, .null)] .closed) (.counter (.known marker))

namespace AmountForm

theorem ofDoc?_number (numeral : Numeral) : ofDoc? (.number numeral) =
    (uint32 .buffer (.number numeral)).toOption.map .number := by
  simp [ofDoc?, string?, formula?]

theorem ofDoc?_string (quoted : Quoted) :
    ofDoc? (.string quoted) = quoted.value.toOption.map .keyword := by
  have noNumber : (uint32 .buffer (.string quoted)).toOption = none := by
    cases read : quoted.value <;> simp [uint32, integer, Doc.mismatch, Doc.found, read] <;> rfl
  simp [ofDoc?, noNumber, string?, formula?]

/-- An amount is taken from the documents that mean it. -/
theorem ofDoc?_eq_some_iff {doc : Doc} (checked : doc.check = .ok ()) {form : AmountForm} :
    ofDoc? doc = some form ↔ MeantBy doc form := by
  -- The document of the formula can be read completely, as the whole object can.
  have word {members : List (Quoted × Doc)} {ending : ObjectEnd} {inner : Doc} {formula : Formula}
      (checked : (Doc.object members ending).check = .ok ())
      (single : valuesOf members "formula" = [inner]) :
      word? inner = some formula ↔ Formula.read .text inner = .ok formula := by
    have listed : inner ∈ valuesOf members "formula" := by simp [single]
    obtain ⟨key, among, _⟩ := mem_valuesOf_iff.1 listed
    exact (word?_eq_some_iff ((Doc.check_object_iff.1 checked).1 _ among).2).trans
      word_text_iff.symm
  constructor
  · intro read
    cases doc with
    | number numeral =>
      obtain ⟨value, converted, rfl⟩ := Option.map_eq_some_iff.1 (ofDoc?_number numeral ▸ read)
      exact .number (uint32_number_iff.1 (toOption_eq_some_iff.1 converted))
    | string quoted =>
      obtain ⟨text, spelled, rfl⟩ := Option.map_eq_some_iff.1 (ofDoc?_string quoted ▸ read)
      exact .keyword (toOption_eq_some_iff.1 spelled)
    | object members ending =>
      obtain ⟨formula, found, rfl⟩ := Option.map_eq_some_iff.1 read
      obtain ⟨_, _, inner, same, single, spelled⟩ := formula?_eq_some_iff.1 found
      cases same
      exact .computed single ((word checked single).1 spelled)
    | null | bool _ | array _ _ => cases read
    | deep _ | broken _ => cases checked
  · intro meant
    cases meant with
    | number integer =>
      rw [ofDoc?_number, toOption_eq_some_iff.2 (uint32_number_iff.2 integer)]
      rfl
    | keyword spelled =>
      rw [ofDoc?_string, spelled]
      rfl
    | @computed members ending _ formula single spelled =>
      have found : formula? (.object members ending) = some formula :=
        formula?_eq_some_iff.2 ⟨_, _, _, rfl, single, (word checked single).2 spelled⟩
      rw [ofDoc?_object, found]
      rfl

/-- What turns each form into the amount of that form, and no other, reads what the form means. -/
theorem means_form {α : Type} {ofForm : AmountForm → Except Fault α} {form : α → AmountForm}
    (turns : ∀ written amount, ofForm written = .ok amount ↔ written = form amount) :
    Reader.Means (fun source doc => do ofForm (← AmountForm.read source doc))
      fun doc amount => MeantBy doc (form amount) := by
  refine .of_documents fun source doc amount => ?_
  simp only [bind_eq_ok_iff, AmountForm.read, alternatives_eq_ok_iff, turns, exists_eq_right]
  exact and_congr_right fun checked => ofDoc?_eq_some_iff checked

/-- A meaning of anything but a string is one of damage and one of healing. -/
theorem MeantBy.shared {doc : Doc} {form : AmountForm} (meant : MeantBy doc form)
    (other : ∀ quoted, doc ≠ .string quoted) :
    (∃ damage : DamageAmount, damage.form = form) ∧ ∃ heal : HealAmount, heal.form = form := by
  cases meant with
  | @number _ value _ => exact ⟨⟨.fixed value, rfl⟩, .fixed value, rfl⟩
  | keyword spelled => exact absurd rfl (other _)
  | @computed _ _ _ formula _ _ => exact ⟨⟨.computed formula, rfl⟩, .computed formula, rfl⟩

/-- No string is both a keyword of damage and one of healing. -/
theorem MeantBy.apart {quoted : Quoted} {damage : DamageAmount} {heal : HealAmount}
    (meant : MeantBy (.string quoted) damage.form) : ¬ MeantBy (.string quoted) heal.form := by
  intro meant'
  cases damage with
  | fixed | computed => cases meant
  | attackValue =>
    cases heal with
    | fixed | computed => cases meant'
    | full =>
      cases meant with
      | keyword spelled =>
        cases meant' with
        | keyword spelled' => exact absurd (spelled.symm.trans spelled') (by decide)

end AmountForm

theorem DamageAmount.ofForm_eq_ok_iff (written : AmountForm) (amount : DamageAmount) :
    ofForm written = .ok amount ↔ written = amount.form := by
  constructor
  · intro done
    cases written with
    | number | computed =>
      cases done
      rfl
    | keyword text =>
      simp only [ofForm] at done
      split at done
      · cases done
        simp [form, *]
      · cases done
  · rintro rfl
    cases amount <;> rfl

theorem HealAmount.ofForm_eq_ok_iff (written : AmountForm) (amount : HealAmount) :
    ofForm written = .ok amount ↔ written = amount.form := by
  constructor
  · intro done
    cases written with
    | number | computed =>
      cases done
      rfl
    | keyword text =>
      simp only [ofForm] at done
      split at done
      · cases done
        simp [form, *]
      · cases done
  · rintro rfl
    cases amount <;> rfl

theorem means_damage :
    DamageAmount.read.Means fun doc amount => AmountForm.MeantBy doc amount.form :=
  AmountForm.means_form DamageAmount.ofForm_eq_ok_iff

theorem means_heal : HealAmount.read.Means fun doc amount => AmountForm.MeantBy doc amount.form :=
  AmountForm.means_form HealAmount.ofForm_eq_ok_iff

/-! ## Operands -/

namespace Operand

theorem ofDoc?_number (numeral : Numeral) :
    ofDoc? (.number numeral) = (int32 .buffer (.number numeral)).toOption.map .number := by
  simp [ofDoc?, number?, word?, tag?, string?]

theorem ofDoc?_object (members : List (Quoted × Doc)) (ending : ObjectEnd) :
    ofDoc? (.object members ending) = ((word? (.object members ending)).map .affinity).or
      ((word? (.object members ending)).map fun marker => .counter (.known marker)) := by
  have noNumber : number? (.object members ending) = none := rfl
  simp [ofDoc?, noNumber, tag?, string?, Function.comp_def]

/-- An operand is taken from the documents that mean it. -/
theorem ofDoc?_eq_some_iff {doc : Doc} (checked : doc.check = .ok ()) {operand : Operand} :
    ofDoc? doc = some operand ↔ MeantBy doc operand := by
  constructor
  · intro read
    cases doc with
    | number numeral =>
      obtain ⟨value, converted, rfl⟩ := Option.map_eq_some_iff.1 (ofDoc?_number numeral ▸ read)
      exact .number (int32_number_iff.1 (toOption_eq_some_iff.1 converted))
    | string quoted =>
      obtain ⟨tag, spelled⟩ := discard_eq_ok_iff.1 checked
      cases (Operand.ofDoc?_string spelled).symm.trans read
      cases found : (Vocabulary.find? tag : Option Affinity) with
      | some element =>
        rw [resolve_affinity found]
        exact .affinity (.string (Vocabulary.find?_eq_some_iff.1 found ▸ spelled))
      | none =>
        rw [resolve_counter found]
        exact .tag spelled (Vocabulary.find?_eq_none_iff.1 found)
    | object members ending =>
      rw [ofDoc?_object, Option.or_eq_some_iff] at read
      rcases read with affinity | ⟨_, counter⟩
      · obtain ⟨element, word, rfl⟩ := Option.map_eq_some_iff.1 affinity
        exact .affinity ((word?_eq_some_iff checked).1 word)
      · obtain ⟨marker, word, rfl⟩ := Option.map_eq_some_iff.1 counter
        cases (word?_eq_some_iff checked).1 word with
        | tag spelled => exact .marker spelled
    | null | bool _ | array _ _ => cases read
    | deep _ | broken _ => cases checked
  · intro meant
    cases meant with
    | number integer =>
      rw [ofDoc?_number, toOption_eq_some_iff.2 (int32_number_iff.2 integer)]
      rfl
    | affinity denotes =>
      cases denotes with
      | string spelled =>
        rw [ofDoc?_string spelled, resolve_affinity (Vocabulary.find?_spelling _)]
      | tag spelled =>
        rw [ofDoc?_object, (word?_eq_some_iff checked).2 (.tag spelled)]
        rfl
    | tag spelled other =>
      rw [ofDoc?_string spelled, resolve_counter (Vocabulary.find?_eq_none_iff.2 other)]
    | @marker key marker spelled =>
      have none : (word? (.object [(key, .null)] .closed) : Option Affinity) = none := by
        rw [word?, spelled]
        exact marker_no_affinity marker
      have word := (word?_eq_some_iff checked).2 (.tag spelled : Denotes marker _)
      rw [ofDoc?_object, none, word]
      rfl

theorem means : Operand.read.Means MeantBy := by
  refine .of_documents fun source doc operand => ?_
  rw [Operand.read, alternatives_eq_ok_iff]
  exact and_congr_right fun checked => ofDoc?_eq_some_iff checked

/-- An operand that is a counter is the one that is read as a counter. -/
theorem MeantBy.counter {doc : Doc} {kind : Counter} (meant : MeantBy doc (.counter kind))
    (checked : doc.check = .ok ()) (source : Source) : Counter.read source doc = .ok kind := by
  cases meant with
  | tag spelled _ => exact openTag_string spelled _ source
  | @marker key marker spelled =>
    have word := (word?_eq_some_iff checked).2 (.tag spelled : Denotes marker _)
    rw [Counter.read, openTag, alternatives_eq_ok_iff, tag?, word]
    exact ⟨checked, rfl⟩

end Operand

/-- Damage is read from the integer of an unsigned 32-bit number, from its keyword, or from an
object with a single formula, and from nothing else; healing is read from the same with its own
keyword. So no string is read as both, and anything else as both, with the same number or formula,
or as neither. The operand of a condition is read from the integer of a signed 32-bit number, from
an affinity, or else from a tag, as the counter that is read from the same text. -/
theorem values_resolve :
    (DamageAmount.read.Means fun doc amount => AmountForm.MeantBy doc amount.form) ∧
    (HealAmount.read.Means fun doc amount => AmountForm.MeantBy doc amount.form) ∧
    (∀ doc text, Doc.IsText doc text →
      ((∃ quoted, doc = .string quoted) → ∀ damage heal,
        DamageAmount.read.ofText text = .ok damage → HealAmount.read.ofText text ≠ .ok heal) ∧
      ((∀ quoted, doc ≠ .string quoted) → ∀ form,
        (∃ damage, DamageAmount.read.ofText text = .ok damage ∧ damage.form = form) ↔
          ∃ heal, HealAmount.read.ofText text = .ok heal ∧ heal.form = form)) ∧
    Operand.read.Means Operand.MeantBy ∧
    ∀ text counter, Operand.read.ofText text = .ok (.counter counter) →
      Counter.read.ofText text = .ok counter := by
  refine ⟨means_damage, means_heal, fun doc text isText => ⟨?_, fun other form => ⟨?_, ?_⟩⟩,
    Operand.means, ?_⟩
  · rintro ⟨quoted, rfl⟩ damage heal read read'
    exact ((means_damage.of_text isText).1 read).2.apart ((means_heal.of_text isText).1 read').2
  · rintro ⟨damage, read, rfl⟩
    obtain ⟨checked, meant⟩ := (means_damage.of_text isText).1 read
    obtain ⟨_, heal, same⟩ := meant.shared other
    exact ⟨heal, (means_heal.of_text isText).2 ⟨checked, same ▸ meant⟩, same⟩
  · rintro ⟨heal, read, rfl⟩
    obtain ⟨checked, meant⟩ := (means_heal.of_text isText).1 read
    obtain ⟨⟨damage, same⟩, _⟩ := meant.shared other
    exact ⟨damage, (means_damage.of_text isText).2 ⟨checked, same ▸ meant⟩, same⟩
  · intro text counter read
    obtain ⟨doc, isText, checked, meant⟩ := (Operand.means.texts _ _).1 read
    have whole := doc.limitDepth_of_check checked
    rw [isText.ofText, whole]
    rw [whole] at checked
    exact meant.counter checked .text

/-- A formula with a note beside it, a keyword, and tags in the form of an object. -/
theorem note_and_tags_resolve :
    let noted := "\x7b\"note\":[1],\"formula\":\"damage-dealt\"\x7d"
    let attack := "\"attack-value\""
    let burn := "\x7b\"burn\":null\x7d"
    DamageAmount.read.ofText noted = .ok (.computed .damageDealt) ∧
    HealAmount.read.ofText noted = .ok (.computed .damageDealt) ∧
    DamageAmount.read.ofText attack = .ok .attackValue ∧
    (∀ heal, HealAmount.read.ofText attack ≠ .ok heal) ∧
    Operand.read.ofText "\x7b\"fire\":null\x7d" = .ok (.affinity .fire) ∧
    Operand.read.ofText burn = .ok (.counter (.known .burn)) ∧
    Counter.read.ofText burn = .ok (.known .burn) := by
  intro noted attack burn
  have isText {json : Json} (fits : Fits Doc.maxDepth json) {text : String}
      (printed : json.compact = text) : Doc.IsText json.toDoc text ∧
        (json.toDoc.limitDepth Doc.maxDepth).check = .ok () := by
    rw [fits.limitDepth]
    exact ⟨printed ▸ fits.isText_compact, fits.check⟩
  have one : Fits 125 (.number (.int 1)) := .int (by unfold InRange; decide)
  have fits : Fits Doc.maxDepth (.object [("note", .array [.number (.int 1)]),
      ("formula", .string "damage-dealt")]) :=
    .object (List.forall_mem_cons.2 ⟨.array (List.forall_mem_singleton.2 one),
      List.forall_mem_singleton.2 (.string _)⟩)
  have fits_tag (tag : String) : Fits Doc.maxDepth (.object [(tag, .null)]) :=
    .object (List.forall_mem_singleton.2 .null)
  obtain ⟨damage, _, apart, operand, counter⟩ := values_resolve
  have notedText := isText fits (by decide +kernel : _ = noted)
  have attackText := isText (.string "attack-value") (by decide +kernel : _ = attack)
  have fireText := isText (fits_tag "fire") (by decide +kernel : _ = "\x7b\"fire\":null\x7d")
  have burnText := isText (fits_tag "burn") (by decide +kernel : _ = burn)
  have computed := (damage.texts noted (.computed .damageDealt)).2 ⟨_, notedText.1, notedText.2,
    .computed rfl (word_text_iff.2 (.string (Quoted.value_ofText _)))⟩
  have keyword := (damage.texts attack .attackValue).2 ⟨_, attackText.1, attackText.2,
    .keyword (Quoted.value_ofText _)⟩
  have marker := (operand.texts burn (.counter (.known .burn))).2 ⟨_, burnText.1, burnText.2,
    .marker (Quoted.value_ofText _)⟩
  refine ⟨computed, ?_, keyword, fun heal => ?_, ?_, marker, counter _ _ marker⟩
  · obtain ⟨heal, read, same⟩ := ((apart _ noted notedText.1).2 nofun _).1 ⟨_, computed, rfl⟩
    cases heal with
    | fixed | full => cases same
    | computed formula =>
      cases same
      exact read
  · exact (apart _ attack attackText.1).1 ⟨_, rfl⟩ _ heal keyword
  · exact (operand.texts _ _).2 ⟨_, fireText.1, fireText.2,
      .affinity (.tag (Quoted.value_ofText _))⟩

end RulesText
