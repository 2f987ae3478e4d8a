import RulesText.Describe.Clause
import RulesText.Proofs.Words

/-!
# The words and the notes of a clause

A clause has the words of its fragments in turn: those of the deed, of the duration and of the
condition. It says no more than these words, so two clauses that share all but one of these parts
are the same exactly if that part has the same words.
-/

namespace RulesText.Describe
open Text

/-! ## Words of fragments -/

/-- The words of fragments, one fragment after the other. -/
def wordsOf (fragments : List String) : List (List Char) :=
  fragments.flatMap fun fragment => words fragment.toList

@[simp] theorem wordsOf_nil : wordsOf [] = [] := rfl

@[simp] theorem wordsOf_cons (fragment : String) (fragments : List String) :
    wordsOf (fragment :: fragments) = words fragment.toList ++ wordsOf fragments := rfl

@[simp] theorem wordsOf_append (front back : List String) :
    wordsOf (front ++ back) = wordsOf front ++ wordsOf back :=
  List.flatMap_append

/-- Two sentences are the same if their fragments have the same words. -/
theorem sentence_eq_iff (fragments others : List String) :
    sentence fragments = sentence others ↔ wordsOf fragments = wordsOf others := by
  rw [← collapse_sentence fragments, ← collapse_sentence others, collapse_eq_iff, words_sentence,
    words_sentence]
  rfl

/-! ## Words of clauses -/

/-- A clause is the sentence of its deed, its duration and its condition. -/
theorem value_clause (withCondition : Bool) (effect : Effect) :
    (clause withCondition effect).value =
      sentence ((deedFragments effect.target effect.deed).value ++ [durationPhrase effect.duration,
        (conditionPhrase (if withCondition then effect.condition else none)).value]) := rfl

theorem notes_clause (withCondition : Bool) (effect : Effect) :
    (clause withCondition effect).notes = (deedFragments effect.target effect.deed).notes ++
      (conditionPhrase (if withCondition then effect.condition else none)).notes := by
  simp only [clause, Logged.notes_bind, Logged.notes_pure, List.append_nil]

/-- Clauses of one duration and one condition are the same if their deeds have the same words. -/
theorem clause_eq_iff_of_deed {withCondition : Bool} {effect other : Effect}
    (duration : effect.duration = other.duration) (condition : effect.condition = other.condition) :
    (clause withCondition effect).value = (clause withCondition other).value ↔
      wordsOf (deedFragments effect.target effect.deed).value =
        wordsOf (deedFragments other.target other.deed).value := by
  rw [value_clause, value_clause, sentence_eq_iff, wordsOf_append, wordsOf_append, duration,
    condition, List.append_cancel_right_eq]

/-- Clauses of one deed and one duration are the same if their conditions have the same words. -/
theorem clause_eq_iff_of_condition (effect : Effect) (condition other : Option Condition) :
    (clause true { effect with condition }).value =
        (clause true { effect with condition := other }).value ↔
      words (conditionPhrase condition).value.toList =
        words (conditionPhrase other).value.toList := by
  rw [value_clause, value_clause, sentence_eq_iff, wordsOf_append, wordsOf_append,
    List.append_cancel_left_eq]
  simp only [wordsOf_cons, wordsOf_nil, List.append_nil]
  exact List.append_right_inj _

end RulesText.Describe
