import RulesText.Ability.Format
import RulesText.Describe.Config
import RulesText.Proofs.CutReads
import RulesText.Proofs.Yields

/-!
# The first fault is final

A text is read up to its first fault. Once that is met, nothing behind the text can hide or change
it: no text that begins so is read, and every one is at the same fault. This holds of effects and
costs, alone and in lists, and of operands, amounts and tags. Abilities and conditions pass over
members that they do not know, and may be written by position, and of them it holds but for two ways
in which a text may go on just where it was cut off.
-/

namespace RulesText
open Format Json

variable {α : Type} {loose : Prop} {read : Reader α}

/-! ## Whole texts -/

theorem Format.Reader.Final.stays_ofText (final : read.Final loose) {text more : String}
    (ends : EndsNumeral more.toList) {fault : Fault} (failed : read.ofText text = .error fault) :
    Stays (loose ∧ SignBehindExponent text.toList more.toList)
      (loose ∧ BracketBehindComma text.toList more.toList) (read.ofText text)
      (read.ofText (text ++ more)) := by
  have goes := @Doc.scan_append text more ends
  unfold Reader.ofText at failed ⊢
  generalize Doc.scan text = scanned at goes failed
  generalize Doc.scan (text ++ more) = scanned' at goes
  cases goes with
  | cut rest' inside => exact (final.cut inside).bind _ _
  | stuck doc =>
    dsimp only at failed ⊢
    rw [failed]
    exact .same fault
  | whole doc rest =>
    dsimp only at failed ⊢
    cases done : read .text doc with
    | error other => exact .same other
    | ok value =>
      rw [done] at failed
      change (if rest.all isSpace then pure value else malformed .trailingText) = _ at failed
      change Stays _ _ (if rest.all isSpace then _ else _)
        (if (rest ++ more.toList).all isSpace then _ else _)
      by_cases blank : rest.all isSpace
      · rw [if_pos blank] at failed
        cases failed
      · have longer : ¬ (rest ++ more.toList).all isSpace := by
          rw [List.all_append]
          exact fun all => blank (Bool.and_eq_true_iff.1 all).1
        rw [if_neg blank, if_neg longer]
        exact .same _

/-- Whether the first fault in a text is final to a reader: unless it is that the text has ended,
the text is at the same fault with any text behind it that could not go on a numeral. -/
def FaultIsFinal (read : Reader α) : Prop :=
  ∀ text more fault, EndsNumeral more.toList → read.ofText text = .error fault →
    (∀ inside, fault ≠ .unfinished inside) → read.ofText (text ++ more) = .error fault

/-- Whether the first fault in a text is final to a reader but for two exceptions: a bad numeral may
become a numeral by a sign behind the letter of its exponent, and a comma that is left over is
called a trailing one as soon as a closing bracket follows. -/
def FaultIsAlmostFinal (read : Reader α) : Prop :=
  ∀ text more fault, EndsNumeral more.toList → read.ofText text = .error fault →
    (∀ inside, fault ≠ .unfinished inside) → read.ofText (text ++ more) = .error fault ∨
      fault = .malformed .badNumeral ∧ SignBehindExponent text.toList more.toList ∨
      fault = .malformed .trailingText ∧ BracketBehindComma text.toList more.toList ∧
        read.ofText (text ++ more) = .error (.malformed .trailingComma)

section

variable {text more : String} {fault : Fault}

theorem Format.Reader.Final.final_or_loose (final : read.Final loose)
    (ends : EndsNumeral more.toList) (failed : read.ofText text = .error fault)
    (met : ∀ inside, fault ≠ .unfinished inside) :
    read.ofText (text ++ more) = .error fault ∨ loose ∧
      (fault = .malformed .badNumeral ∧ SignBehindExponent text.toList more.toList ∨
      fault = .malformed .trailingText ∧ BracketBehindComma text.toList more.toList ∧
        read.ofText (text ++ more) = .error (.malformed .trailingComma)) := by
  have stays := final.stays_ofText ends failed
  rw [failed] at stays
  generalize read.ofText (text ++ more) = answer' at stays ⊢
  cases stays with
  | unfinished inside => exact absurd rfl (met inside)
  | same => exact .inl rfl
  | numeral sign => exact .inr ⟨sign.1, .inl ⟨rfl, sign.2⟩⟩
  | comma bracket => exact .inr ⟨bracket.1, .inr ⟨rfl, bracket.2, rfl⟩⟩

end

theorem Format.Reader.Final.faultIsFinal (final : read.Final False) : FaultIsFinal read :=
  fun _ _ _ ends failed met => (final.final_or_loose ends failed met).resolve_right And.left

theorem Format.Reader.Final.faultIsAlmostFinal (final : read.Final True) :
    FaultIsAlmostFinal read :=
  fun _ _ _ ends failed met => (final.final_or_loose ends failed met).imp_right And.right

/-! ## Abilities and their parts -/

theorem final_condition : Condition.read.Final True :=
  Condition.record.final ⟨final_word, final_alternatives.nullable, final_word.nullable, trivial⟩

theorem final_cost : Cost.read.Final loose := final_tagged _ _

theorem final_effect : Effect.read.Final loose := final_tagged _ _

theorem final_ability : Ability.read.Final True :=
  Ability.record.final ⟨final_string, final_string, (final_openTag _).nullable,
    final_cost.nullable, final_effect.list, final_uint32.nullable, final_uint32.nullable, trivial⟩

theorem final_config : Describe.Config.read.Final True :=
  Describe.Config.record.final ⟨final_boolean, final_boolean, final_boolean, trivial⟩

/-- Nothing behind the first fault of a text can hide or change it. Effects and costs are read so,
alone and in lists, and operands, amounts and the tags of closed and of open vocabularies;
abilities, conditions and configurations, alone and in lists, are but for the two exceptions, which
only records make that pass over members or are written by position. -/
theorem first_fault_is_final :
    (FaultIsFinal Effect.read ∧ FaultIsFinal (list Effect.read) ∧
      FaultIsFinal Cost.read ∧ FaultIsFinal (list Cost.read) ∧
      FaultIsFinal Operand.read ∧ FaultIsFinal DamageAmount.read ∧ FaultIsFinal HealAmount.read ∧
      (∀ (κ : Type) [Vocabulary κ], FaultIsFinal (word : Reader κ)) ∧
      ∀ (κ : Type) [Vocabulary κ] (type : String),
        FaultIsFinal (openTag type : Reader (OpenTag κ))) ∧
    FaultIsAlmostFinal Ability.read ∧ FaultIsAlmostFinal (list Ability.read) ∧
      FaultIsAlmostFinal Condition.read ∧ FaultIsAlmostFinal (list Condition.read) ∧
      FaultIsAlmostFinal Describe.Config.read ∧ FaultIsAlmostFinal (list Describe.Config.read) := by
  refine ⟨⟨final_effect.faultIsFinal, final_effect.list.faultIsFinal, final_cost.faultIsFinal,
    final_cost.list.faultIsFinal, final_alternatives.faultIsFinal, ?_, ?_, ?_, ?_⟩,
    final_ability.faultIsAlmostFinal, final_ability.list.faultIsAlmostFinal,
    final_condition.faultIsAlmostFinal, final_condition.list.faultIsAlmostFinal,
    final_config.faultIsAlmostFinal, final_config.list.faultIsAlmostFinal⟩
  · exact (final_alternatives.bind DamageAmount.ofForm).faultIsFinal
  · exact (final_alternatives.bind HealAmount.ofForm).faultIsFinal
  · exact fun κ _ => final_word.faultIsFinal
  · exact fun κ _ type => (final_openTag type).faultIsFinal

/-! ## Faults that stay and faults that do not -/

/-- A kind of effect that there is not stays so, in an effect and in an ability, though what follows
it is well formed. -/
theorem burning_stays_unknown :
    let fault := Fault.mismatch (.unknownTag "burn" (Vocabulary.spellings EffectKind))
    let effect := "\x7b\"type\":\"burn\""
    let ability := "\x7b\"name\":\"Burn\",\"effects\":[\x7b\"type\":\"burn\""
    (Effect.read.ofText effect = .error fault ∧
      Effect.read.ofText (effect ++ ",\"target\":\"self\"\x7d") = .error fault) ∧
    Ability.read.ofText ability = .error fault ∧
      Ability.read.ofText (ability ++ ",\"target\":\"self\"\x7d]\x7d") = .error fault := by
  intro fault effect ability
  have ends : EndsNumeral ",\"target\":\"self\"\x7d".toList := by
    rintro _ ⟨⟩
    decide
  have ends' : EndsNumeral ",\"target\":\"self\"\x7d]\x7d".toList := by
    rintro _ ⟨⟩
    decide
  have unknown : Effect.read.ofText effect = .error fault :=
    eq_error_of_fault? (by decide +kernel)
  have unknown' : Ability.read.ofText ability = .error fault :=
    eq_error_of_fault? (by decide +kernel)
  have met (inside : Unfinished) : fault ≠ .unfinished inside := by simp [fault]
  have other (how : Malformed) : fault ≠ .malformed how := by simp [fault]
  refine ⟨⟨unknown, first_fault_is_final.1.1 effect _ fault ends unknown met⟩, unknown', ?_⟩
  rcases first_fault_is_final.2.1 ability _ fault ends' unknown' met with same | bad | left
  · exact same
  · exact absurd bad.1 (other _)
  · exact absurd left.1 (other _)

/-- A number that is passed over is a bad one behind the letter of its exponent, and none with a
sign and a digit behind that. A comma behind the last member of a condition is left over, and is a
trailing one in front of a bracket. -/
theorem faults_give_way :
    let ability := "\x7b\"name\":\"Burn\",\"note\":1e"
    let condition := "[\"has-counter\",1,\"less\","
    (EndsNumeral "+5\x7d".toList ∧ Ability.read.ofText ability = .error (.malformed .badNumeral) ∧
      Ability.read.ofText (ability ++ "+5\x7d") = .ok { name := "Burn" } ∧
      ¬ FaultIsFinal Ability.read) ∧
    EndsNumeral "]".toList ∧ Condition.read.ofText condition = .error (.malformed .trailingText) ∧
      Condition.read.ofText (condition ++ "]") = .error (.malformed .trailingComma) ∧
      ¬ FaultIsFinal Condition.read := by
  intro ability condition
  have ends : EndsNumeral "+5\x7d".toList := by
    rintro _ ⟨⟩
    decide
  have ends' : EndsNumeral "]".toList := by
    rintro _ ⟨⟩
    decide
  have bad : Ability.read.ofText ability = .error (.malformed .badNumeral) :=
    eq_error_of_fault? (by decide +kernel)
  have mended : Ability.read.ofText (ability ++ "+5\x7d") = .ok { name := "Burn" } :=
    eq_ok_of_toOption (by decide +kernel)
  have left : Condition.read.ofText condition = .error (.malformed .trailingText) :=
    eq_error_of_fault? (by decide +kernel)
  have trailing : Condition.read.ofText (condition ++ "]") = .error (.malformed .trailingComma) :=
    eq_error_of_fault? (by decide +kernel)
  have met (how : Malformed) (inside : Unfinished) : Fault.malformed how ≠ .unfinished inside := by
    simp
  refine ⟨⟨ends, bad, mended, fun final => ?_⟩, ends', left, trailing, fun final => ?_⟩
  · have same := final _ _ _ ends bad (met _)
    rw [mended] at same
    cases same
  · have same := final _ _ _ ends' left (met _)
    rw [trailing] at same
    cases same

end RulesText
