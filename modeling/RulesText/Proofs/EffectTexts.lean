import RulesText.Proofs.Conditions
import RulesText.Proofs.Sentence
import RulesText.Proofs.Tidy

/-!
# The parts of a clause

A clause says what its effect does, then for how long, then under which condition, and each of these
parts comes through as it is: none of them glues to its neighbours or changes them, and a duration
that goes without saying leaves no trace. So a clause has nothing to say only if none of its parts
has, which takes raw tags without a visible character for both the target and the change of an
attack.
-/

namespace RulesText
open Describe Format Text

/-! ## Bare effects -/

/-- The effect without its condition, and for as long as its source is on the field. -/
def Effect.bare (effect : Effect) : Effect := effect.ungated.lasting .whileOnField

/-- Whether a duration goes without saying: there is none, what happens is over at once, or it lasts
as long as its source is on the field. -/
def Duration.Tacit (duration : Option Duration) : Prop :=
  duration = none ∨ duration = some .instant ∨ duration = some .whileOnField

namespace Describe

/-! ## Durations -/

theorem durationPhrase_collapsed (duration : Option Duration) :
    collapse (durationPhrase duration) = durationPhrase duration := by
  match duration with
  | none => rfl
  | some duration => cases duration <;> decide

theorem durationPhrase_silent_iff (duration : Option Duration) :
    words (durationPhrase duration).toList = [] ↔ Duration.Tacit duration := by
  unfold Duration.Tacit
  match duration with
  | none => simp [durationPhrase]
  | some duration => cases duration <;> decide

theorem durationPhrase_of_tacit {duration : Option Duration} (tacit : Duration.Tacit duration) :
    durationPhrase duration = "" :=
  (words_eq_nil_iff_of_collapsed (durationPhrase_collapsed duration)).1
    ((durationPhrase_silent_iff duration).2 tacit)

theorem duration_lasting (duration : Duration) (deed : Deed) :
    (deed.lasting duration).duration = some duration := by
  cases deed <;> rfl

theorem deedFragments_lasting (target : Target) (duration : Duration) (deed : Deed) :
    deedFragments target (deed.lasting duration) = deedFragments target deed := by
  cases deed <;> rfl

/-- Effects that differ in their durations only do the same. -/
theorem deedFragments_of_lasting {effect other : Effect} {duration : Duration}
    (same : other.lasting duration = effect.lasting duration) :
    deedFragments other.target other.deed = deedFragments effect.target effect.deed := by
  obtain ⟨target, deed, _⟩ := Effect.mk.inj same
  rw [← deedFragments_lasting _ duration, deed, target, deedFragments_lasting]

/-- Effects that differ at most in durations that go without saying have the same clause. -/
theorem clause_of_tacit {effect other : Effect} {duration : Duration}
    (same : other.lasting duration = effect.lasting duration)
    (tacit : Duration.Tacit effect.duration) (tacit' : Duration.Tacit other.duration)
    (withCondition : Bool) : clause withCondition other = clause withCondition effect := by
  obtain ⟨_, _, condition⟩ := Effect.mk.inj same
  have condition : other.condition = effect.condition := condition
  simp only [clause, deedFragments_of_lasting same, condition, durationPhrase_of_tacit tacit,
    durationPhrase_of_tacit tacit']

/-! ## Clauses and their parts -/

/-- The text of a bare effect has the words of its deed. -/
theorem words_bare (effect : Effect) : words (effectText effect.bare).value.toList =
    wordsOf (deedFragments effect.target effect.deed).value := by
  have deed : deedFragments effect.bare.target effect.bare.deed =
      deedFragments effect.target effect.deed := deedFragments_lasting _ _ _
  have duration : Duration.Tacit effect.bare.duration :=
    .inr (.inr (duration_lasting .whileOnField effect.deed))
  have condition : effect.bare.condition = none := rfl
  rw [effectText, value_clause, words_sentence, deed, durationPhrase_of_tacit duration, condition]
  exact (wordsOf_append _ _).trans (List.append_nil _)

/-- A clause is its parts, each collapsed, with one space between those of which something is
left. -/
theorem value_clause_eq (withCondition : Bool) (effect : Effect) :
    (clause withCondition effect).value = " ".intercalate
      ([(effectText effect.bare).value, durationPhrase effect.duration,
        collapse (conditionPhrase (if withCondition then effect.condition else none)).value].filter
          (· ≠ "")) := by
  generalize given : (if withCondition then effect.condition else none) = condition
  have parts : (clause withCondition effect).value = sentence
      [(effectText effect.bare).value, durationPhrase effect.duration,
        (conditionPhrase condition).value] := by
    rw [value_clause, given, sentence_eq_iff, wordsOf_append, wordsOf_cons (effectText _).value,
      words_bare]
  rw [parts, sentence_eq]
  simp only [List.map_cons, List.map_nil, durationPhrase_collapsed, effectText, clause_collapsed]

/-- The text of an effect is that of the bare effect, its duration and its condition, with one space
between those that are not empty; where conditions are not mentioned, it is the same without the
last part. So each part is followed by the next one and not changed by it, and durations that go
without saying are all alike. -/
theorem effectText_composed (effect : Effect) :
    let bare := (effectText effect.bare).value
    let duration := durationPhrase effect.duration
    let condition := collapse (conditionPhrase effect.condition).value
    let ungated := (clause false effect).value
    (effectText effect).value = " ".intercalate ([bare, duration, condition].filter (· ≠ "")) ∧
      ungated = " ".intercalate ([bare, duration].filter (· ≠ "")) ∧
      bare.toList <+: ungated.toList ∧ ungated.toList <+: (effectText effect).value.toList ∧
      ∀ other : Effect, other.lasting .whileOnField = effect.lasting .whileOnField →
        Duration.Tacit effect.duration → Duration.Tacit other.duration →
          ∀ withCondition, clause withCondition other = clause withCondition effect := by
  intro bare duration condition ungated
  have whole : (effectText effect).value =
      " ".intercalate ([bare, duration, condition].filter (· ≠ "")) := value_clause_eq true effect
  have first : ungated = " ".intercalate ([bare, duration].filter (· ≠ "")) := by
    have empty : collapse (conditionPhrase none).value = "" := rfl
    have parts := value_clause_eq false effect
    simpa only [Bool.false_eq_true, if_false, empty, List.filter_cons, ne_eq, not_true_eq_false,
      decide_false, List.filter_nil] using parts
  have alone : bare = " ".intercalate ([bare].filter (· ≠ "")) := by
    by_cases empty : bare = "" <;> simp [empty]
  have begins {parts others : List String} (front : parts <+: others) :
      (" ".intercalate (parts.filter (· ≠ ""))).toList <+:
        (" ".intercalate (others.filter (· ≠ ""))).toList := by
    rw [String.toList_intercalate, String.toList_intercalate]
    exact prefix_joined ((front.filter _).map _)
  refine ⟨whole, first, ?_, ?_, fun other same tacit tacit' => clause_of_tacit same tacit tacit'⟩
  · rw [alone, first]
    exact begins (List.prefix_append [bare] [duration])
  · rw [whole, first]
    exact begins (List.prefix_append [bare, duration] [condition])

/-- Blanks around and inside raw tags, a duration and a condition; and the same effect for no time
at all and for one that goes without saying. -/
theorem gust_composed :
    let gate := Condition.hasCounter (.unknown "deep\n root")
    let gust :=
      (Effect.attackModification (.unknown " back\u3000row ") (.unknown "\t")).gatedBy gate
    (effectText (gust.lasting .endOfTurn)).value =
        "back row until end of turn if it has a deep root counter" ∧
      (effectText gust.bare).value = "back row" ∧
      clause true (gust.lasting .instant) = clause true gust := by
  intro gate gust
  have parts := (effectText_composed (gust.lasting .endOfTurn)).1
  have alike := (effectText_composed gust).2.2.2.2 (gust.lasting .instant) rfl (.inl rfl)
    (.inr (.inl rfl)) true
  refine ⟨?_, by decide +kernel, alike⟩
  rw [parts]
  decide +kernel

end Describe

/-! ## Effects with nothing to say -/

/-- Whether a tag is unknown and has no character that is not blank. -/
def Format.OpenTag.Blank {κ : Type} (tag : OpenTag κ) : Prop :=
  ∃ raw, tag = .unknown raw ∧ ∀ c ∈ raw.toList, isBlank c = true

/-- Whether an effect changes attacks of a blank target in a blank way, for a time that goes without
saying and under no condition. -/
structure Effect.Mute (effect : Effect) : Prop where
  target : effect.target.Blank
  deed : ∃ modifier duration, effect.deed = .act (.attackModification modifier) duration ∧
    modifier.Blank
  duration : Duration.Tacit effect.duration
  condition : effect.condition = none

/-- A phrase that says something of every known word and calls an unknown one by its tag is silent
of blank tags only. -/
theorem Format.OpenTag.silent_iff {κ : Type} (phrase : OpenTag κ → String)
    (known : ∀ word, words (phrase (.known word)).toList ≠ [])
    (unknown : ∀ raw, phrase (.unknown raw) = raw) (tag : OpenTag κ) :
    words (phrase tag).toList = [] ↔ tag.Blank := by
  cases tag with
  | known word => simpa [Blank] using known word
  | unknown raw => simp [Blank, unknown, words_eq_nil_iff]

namespace Describe

theorem targetPhrase_silent_iff (target : Target) :
    words (targetPhrase target).value.toList = [] ↔ target.Blank := by
  refine OpenTag.silent_iff (fun target => (targetPhrase target).value) (fun scope => ?_)
    (fun raw => rfl) target
  cases scope <;> decide

theorem modifierPhrase_silent_iff (modifier : AttackModifier) (singular : Bool) :
    words (modifierPhrase modifier singular).value.toList = [] ↔ modifier.Blank := by
  refine OpenTag.silent_iff (fun modifier => (modifierPhrase modifier singular).value)
    (fun rule => ?_) (fun raw => rfl) modifier
  cases rule <;> cases singular <;> decide

theorem numericPhrase_visible {condition : Condition} {clause : String → String}
    (visible : ∀ number, 'i' ∈ (clause number).toList) :
    'i' ∈ (numericPhrase condition clause).value.toList := by
  unfold numericPhrase
  split
  · exact visible _
  · simp

/-- The clause of a condition begins with `if`. -/
theorem conditionPhrase_visible (condition : Condition) :
    'i' ∈ (conditionPhrase (some condition)).value.toList := by
  obtain ⟨kind, operand, comparison⟩ := condition
  cases kind with
  | hasCounter | affinityMatches =>
    simp only [conditionPhrase]
    split <;> simp
  | isDamaged | isWilting => simp [conditionPhrase]
  | healthBelow | healthAbove | costAbove | costBelow =>
    exact numericPhrase_visible fun number => by simp
  | turnCount | unitsOnField | resourceAvailable =>
    exact numericPhrase_visible fun number => by simp

theorem conditionPhrase_silent_iff (condition : Option Condition) :
    words (conditionPhrase condition).value.toList = [] ↔ condition = none := by
  cases condition with
  | none => simp [conditionPhrase]
  | some condition => simp [words_ne_nil (conditionPhrase_visible condition) (by decide)]

section

attribute [local simp] deedFragments standingFragments actFragments

/-- Every deed but a change of attacks has a fragment of its own, whatever its target. -/
theorem exists_visible_fragment (target : Target) {deed : Deed}
    (other : deed.kind ≠ .attackModification) :
    ∃ fragment ∈ (deedFragments target deed).value, words fragment.toList ≠ [] := by
  cases deed with
  | standing change duration =>
    cases change with
    | modifyStats stat value => exact ⟨stat.label, by simp, by cases stat <;> decide⟩
    | immunity sources => exact ⟨"immune", by simp, by decide⟩
    | damageReduction amount => exact ⟨"less damage", by simp, by decide⟩
  | act what duration =>
    cases what with
    | attackModification modifier => exact absurd rfl other
    | dealDamage amount piercing => exact ⟨"deal", by cases amount <;> simp, by decide⟩
    | heal amount =>
      cases amount with
      | full => exact ⟨"fully heal", by simp, by decide⟩
      | fixed value => exact ⟨"heal", by simp, by decide⟩
      | computed formula => exact ⟨"heal", by simp, by decide⟩
    | drawCards count =>
      cases opponent : target.isOpponent with
      | true => exact ⟨"opponent draws", by simp [opponent], by decide⟩
      | false => exact ⟨"draw", by simp [opponent], by decide⟩
    | applyCounter counter count => exact ⟨"put", by simp, by decide⟩
    | removeCounter counter count =>
      match counter, count with
      | none, none => exact ⟨"remove all counters from", by simp, by decide⟩
      | some counter, none => exact ⟨"remove all", by simp, by decide⟩
      | none, some count => exact ⟨"remove", by simp, by decide⟩
      | some counter, some count => exact ⟨"remove", by simp, by decide⟩
    | cannotBeTargeted sources threshold => exact ⟨"can't be targeted", by simp, by decide⟩
    | move destination => exact ⟨"move", by simp, by decide⟩
    | gainResource resource amount =>
      cases opponent : target.isOpponent with
      | true => exact ⟨"opponent gains", by simp [opponent], by decide⟩
      | false => exact ⟨"gain", by simp [opponent], by decide⟩
    | preventDamage amount => exact ⟨"prevent", by simp, by decide⟩
    | searchDeck count card affinity => exact ⟨"search your deck for", by simp, by decide⟩
    | destroy => exact ⟨"destroy", by simp, by decide⟩
    | temporaryHealth amount => exact ⟨"temporary HP", by simp, by decide⟩
    | retaliation amount => exact ⟨"deal", by simp, by decide⟩
    | swap what =>
      cases what with
      | stats => exact ⟨"swap ATK and HP of", by simp, by decide⟩
      | positions => exact ⟨"swap positions with", by simp, by decide⟩
    | returnToHand => exact ⟨"return", by simp, by decide⟩
    | discard count random =>
      cases opponent : target.isOpponent with
      | true => exact ⟨"opponent discards", by simp [opponent], by decide⟩
      | false => exact ⟨"discard", by simp [opponent], by decide⟩
    | copyAbility => exact ⟨"copy an ability from", by simp, by decide⟩
    | nullify => exact ⟨"nullify the abilities of", by simp, by decide⟩
    | redirectDamage recipient => exact ⟨"redirect damage dealt to", by simp, by decide⟩
    | removeSummoningSickness => exact ⟨"can attack immediately", by simp, by decide⟩
    | summonToken token count => exact ⟨"summon", by simp, by decide⟩

end

theorem deedFragments_silent_iff (target : Target) (deed : Deed) :
    (∀ fragment ∈ (deedFragments target deed).value, words fragment.toList = []) ↔
      target.Blank ∧ ∃ modifier duration, deed = .act (.attackModification modifier) duration ∧
        modifier.Blank := by
  by_cases attack : deed.kind = .attackModification
  · obtain ⟨modifier, duration, rfl⟩ : ∃ modifier duration,
        deed = .act (.attackModification modifier) duration := by
      cases deed with
      | standing change duration => cases change <;> cases attack
      | act what duration => cases what <;> first | exact ⟨_, _, rfl⟩ | cases attack
    have fragments : (deedFragments target (.act (.attackModification modifier) duration)).value =
        [(targetPhrase target).value, (modifierPhrase modifier target.isSingular).value] := rfl
    simp [fragments, targetPhrase_silent_iff, modifierPhrase_silent_iff]
  · obtain ⟨fragment, listed, visible⟩ := exists_visible_fragment target attack
    refine iff_of_false (fun silent => visible (silent fragment listed)) ?_
    rintro ⟨_, modifier, duration, rfl, _⟩
    exact attack rfl

/-- The text of an effect is empty exactly if the effect is mute, and tidy otherwise. -/
theorem effectText_eq_empty_iff (effect : Effect) :
    ((effectText effect).value = "" ↔ effect.Mute) ∧
      (¬ effect.Mute → Tidy (effectText effect).value.toList) := by
  have silent : (effectText effect).value = "" ↔ effect.Mute := by
    rw [effectText, value_clause, sentence_eq_empty_iff, List.forall_mem_append,
      deedFragments_silent_iff]
    simp only [List.forall_mem_cons, durationPhrase_silent_iff, if_true, conditionPhrase_silent_iff]
    constructor
    · rintro ⟨⟨target, deed⟩, duration, condition, _⟩
      exact ⟨target, deed, duration, condition⟩
    · rintro ⟨target, deed, duration, condition⟩
      exact ⟨⟨target, deed⟩, duration, condition, by simp⟩
  exact ⟨silent, fun speaks => tidy_collapse fun empty => speaks (silent.1 empty)⟩

/-- Blank tags alone have nothing to say; a duration that does not go without saying has. -/
theorem lull_empty :
    let lull := Effect.attackModification (.unknown "") (.unknown " \u3000\t")
    (effectText (lull.lasting .instant)).value = "" ∧ ¬ (lull.lasting .thisTurn).Mute ∧
      Tidy (effectText (lull.lasting .thisTurn)).value.toList := by
  intro lull
  have mute : (lull.lasting .instant).Mute :=
    ⟨⟨_, rfl, (words_eq_nil_iff _).1 (by decide)⟩,
      ⟨_, _, rfl, _, rfl, (words_eq_nil_iff _).1 (by decide)⟩, .inr (.inl rfl), rfl⟩
  have lasts : words (durationPhrase (some .thisTurn)).toList ≠ [] := by decide
  have loud : ¬ (lull.lasting .thisTurn).Mute :=
    fun mute => lasts ((durationPhrase_silent_iff _).2 mute.duration)
  exact ⟨(effectText_eq_empty_iff _).1.2 mute, loud, (effectText_eq_empty_iff _).2 loud⟩

end Describe

end RulesText
